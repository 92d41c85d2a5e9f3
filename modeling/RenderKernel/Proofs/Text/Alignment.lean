import RenderKernel.Proofs.Text.Cell

/-!
# What a block shows

A text is cut at a separator (`Block.cut`), and pieces in which the first character of the separator
does not occur are found again after they have been joined with it (`Block.cut_intercalate`).  A cell
has neither commas nor semicolons nor blanks, so that the lines of a block, the cells of a line and the
text in a cell can be read off (`Block.textsOf_joined`), and a block determines the shape of its grid
and the texts of all entries (`Grid.blockText_unambiguous`).
-/

namespace RenderKernel

open Significant

namespace Block

/-! ### Cutting -/

/-- The pieces of a text behind the next `rest` characters, between the separators in it. -/
def cutBehind (separator : List Char) : Nat → List Char → List (List Char)
  | _, [] => [[]]
  | rest + 1, _ :: cs => cutBehind separator rest cs
  | 0, c :: cs =>
    if separator.isPrefixOf (c :: cs) then [] :: cutBehind separator (separator.length - 1) cs
    else (cutBehind separator 0 cs).modifyHead (c :: ·)

/-- The pieces of a text between the separators in it, found from the left. -/
def cut (separator cs : List Char) : List (List Char) := cutBehind separator 0 cs

section

variable {c : Char} {separator cs : List Char}

theorem cutBehind_append (separator cs ds : List Char) :
  cutBehind separator cs.length (cs ++ ds) = cut separator ds
  := by
  induction cs with
  | nil => rfl
  | cons c cs ih => exact ih

theorem cut_separator_append (c : Char) (separator ds : List Char) :
  cut (c :: separator) (c :: separator ++ ds) = [] :: cut (c :: separator) ds
  := by
  have hbegins : (c :: separator).isPrefixOf (c :: separator ++ ds) = true := by
    rw [List.isPrefixOf_iff_prefix]
    apply List.prefix_append
  rw [← cutBehind_append (c :: separator) separator ds]
  exact if_pos hbegins

/-- A character with which no separator begins belongs to the first piece. -/
theorem cut_cons {d : Char} (h : c ≠ d) (separator cs : List Char) :
  cut (c :: separator) (d :: cs) = (cut (c :: separator) cs).modifyHead (d :: ·)
  := by
  have hbegins : ¬(c :: separator).isPrefixOf (d :: cs) = true := by
    rw [List.isPrefixOf_iff_prefix, List.cons_prefix_cons]
    exact fun hprefix => h hprefix.1
  exact if_neg hbegins

theorem cut_append (h : c ∉ cs) (ds : List Char) :
  cut (c :: separator) (cs ++ (c :: separator) ++ ds) = cs :: cut (c :: separator) ds
  := by
  induction cs with
  | nil => exact cut_separator_append c separator ds
  | cons d cs ih =>
      rw [List.mem_cons, not_or] at h
      rw [List.cons_append, List.cons_append, cut_cons h.1, ih h.2]
      rfl

theorem cut_of_not_mem (h : c ∉ cs) :
  cut (c :: separator) cs = [cs]
  := by
  induction cs with
  | nil => rfl
  | cons d cs ih =>
      rw [List.mem_cons, not_or] at h
      rw [cut_cons h.1, ih h.2]
      rfl

/-- Pieces that have been joined are found again, if no separator begins in one of them. -/
theorem cut_intercalate {pieces : List (List Char)} (hne : pieces ≠ []) (h : ∀ cs ∈ pieces, c ∉ cs) :
  cut (c :: separator) ((c :: separator).intercalate pieces) = pieces
  := by
  induction pieces with
  | nil => exact absurd rfl hne
  | cons cs pieces ih =>
      have hcs : c ∉ cs := h cs List.mem_cons_self
      cases pieces with
      | nil => rw [List.intercalate_singleton, cut_of_not_mem hcs]
      | cons ds pieces =>
          rw [List.intercalate_cons_cons, cut_append hcs,
            ih (List.cons_ne_nil ds pieces) fun es hes => h es (List.mem_cons_of_mem cs hes)]

theorem not_mem_intercalate {pieces : List (List Char)} (hseparator : c ∉ separator)
    (h : ∀ cs ∈ pieces, c ∉ cs) :
  c ∉ separator.intercalate pieces
  := by
  induction pieces with
  | nil => exact List.not_mem_nil
  | cons cs pieces ih =>
      have hcs : c ∉ cs := h cs List.mem_cons_self
      cases pieces with
      | nil =>
          rw [List.intercalate_singleton]
          exact hcs
      | cons ds pieces =>
          have hrest := ih fun es hes => h es (List.mem_cons_of_mem cs hes)
          rw [List.intercalate_cons_cons, List.mem_append, List.mem_append]
          rintro ((hmem | hmem) | hmem)
          · exact hcs hmem
          · exact hseparator hmem
          · exact hrest hmem

/-- Pieces of one length are joined to a text whose length depends on their number only. -/
theorem length_intercalate {w : Nat} {pieces : List (List Char)} (h : ∀ cs ∈ pieces, cs.length = w) :
  (separator.intercalate pieces).length
    = pieces.length * w + (pieces.length - 1) * separator.length
  := by
  induction pieces with
  | nil =>
      rw [List.length_nil, Nat.zero_mul, Nat.zero_sub, Nat.zero_mul]
      rfl
  | cons cs pieces ih =>
      have hcs : cs.length = w := h cs List.mem_cons_self
      cases pieces with
      | nil =>
          rw [List.intercalate_singleton, hcs, List.length_singleton, Nat.one_mul, Nat.sub_self,
            Nat.zero_mul, Nat.add_zero]
      | cons ds pieces =>
          have hrest := ih fun es hes => h es (List.mem_cons_of_mem cs hes)
          rw [List.intercalate_cons_cons, List.length_append, List.length_append, hrest, hcs]
          simp only [List.length_cons, Nat.add_sub_cancel]
          ring

end

/-! ### Lines and cells -/

/-- The lines of a block, given the text between its brackets. -/
def linesOf (inside : List Char) : List (List Char) := cut [';', '\n', ' '] inside

/-- The cells of a line. -/
def cellsOf (line : List Char) : List (List Char) := cut [',', ' '] line

/-- The texts in the cells of a block, line by line, without the blanks before them. -/
def textsOf (inside : List Char) : List (List (List Char)) :=
  ((linesOf inside).map cellsOf).map (·.map (·.dropWhile (· == ' ')))

/-- What stands between the brackets. -/
def joined (lines : List (List (List Char))) : List Char :=
  [';', '\n', ' '].intercalate (lines.map [',', ' '].intercalate)

theorem bracketed_eq (lines : List (List (List Char))) :
  bracketed lines = '[' :: joined lines ++ [']']
  := rfl

theorem joined_singleton (line : List (List Char)) :
  joined [line] = [',', ' '].intercalate line
  := List.intercalate_singleton

variable {w : Nat} {lines lines' texts : List (List (List Char))} {line : List (List Char)}

theorem joined_of_bracketed (h : bracketed lines = bracketed lines') :
  joined lines = joined lines'
  := by
  rw [bracketed_eq, bracketed_eq] at h
  exact (List.cons.inj (List.append_cancel_right h)).2

/-- There is a cell in every line, and no cell contains a character with which a separator begins. -/
structure Separable (lines : List (List (List Char))) : Prop where
  ne_nil : lines ≠ []
  line_ne_nil : ∀ line ∈ lines, line ≠ []
  comma : ∀ line ∈ lines, ∀ cs ∈ line, ',' ∉ cs
  semicolon : ∀ line ∈ lines, ∀ cs ∈ line, ';' ∉ cs

namespace Separable

theorem linesOf_joined (h : Separable lines) :
  linesOf (joined lines) = lines.map [',', ' '].intercalate
  := by
  apply cut_intercalate (mt List.map_eq_nil_iff.mp h.ne_nil)
  intro text htext
  obtain ⟨line, hline, rfl⟩ := List.mem_map.mp htext
  exact not_mem_intercalate (by decide) (h.semicolon line hline)

theorem cellsOf_intercalate (h : Separable lines) (hline : line ∈ lines) :
  cellsOf ([',', ' '].intercalate line) = line
  := cut_intercalate (h.line_ne_nil line hline) (h.comma line hline)

/-- The cells of a block are found again. -/
theorem map_cellsOf (h : Separable lines) :
  (linesOf (joined lines)).map cellsOf = lines
  := by
  have hcells : ∀ line ∈ lines, (cellsOf ∘ [',', ' '].intercalate) line = id line :=
    fun line hline => h.cellsOf_intercalate hline
  rw [h.linesOf_joined, List.map_map, List.map_congr_left hcells, List.map_id]

theorem exists_line (h : Separable lines) {text : List Char} (htext : text ∈ linesOf (joined lines)) :
  ∃ line ∈ lines, text = [',', ' '].intercalate line ∧ cellsOf text = line
  := by
  rw [h.linesOf_joined] at htext
  obtain ⟨line, hline, rfl⟩ := List.mem_map.mp htext
  exact ⟨line, hline, rfl, h.cellsOf_intercalate hline⟩

end Separable

/-- Cells that are filled up to the width all have this length. -/
theorem length_of_mem_filled (hline : line ∈ filled (width texts) texts) {cs : List Char}
    (hcs : cs ∈ line) :
  cs.length = width texts
  := by
  obtain ⟨line, hmem, rfl⟩ := List.mem_map.mp hline
  obtain ⟨cs, htext, rfl⟩ := List.mem_map.mp hcs
  rw [List.length_leftpad, Nat.max_eq_left (length_le_width hmem htext)]

theorem IsCell.head?_ne_blank {cs : List Char} (h : IsCell cs) :
  cs.head? ≠ some ' '
  := by
  intro hhead
  exact h.not_mem (by decide) (List.mem_of_mem_head? hhead)

section

variable (w : Nat) (hne : texts ≠ []) (hline : ∀ line ∈ texts, line ≠ [])
  (h : ∀ line ∈ texts, ∀ cs ∈ line, IsCell cs)

include hne hline h

/-- Cells can be separated behind blanks too. -/
theorem separable_filled :
  Separable (filled w texts)
  := by
  have hcell : ∀ c, isCellChar c = false → c ≠ ' ' →
      ∀ line ∈ filled w texts, ∀ cs ∈ line, c ∉ cs := by
    intro c hc hblank line hfilled cs hpadded hmem
    obtain ⟨line, hline, rfl⟩ := List.mem_map.mp hfilled
    obtain ⟨cs, hcs, rfl⟩ := List.mem_map.mp hpadded
    obtain hleft | hright := List.mem_append.mp hmem
    · exact hblank (List.eq_of_mem_replicate hleft)
    · exact (h line hline cs hcs).not_mem hc hright
  constructor
  · exact mt List.map_eq_nil_iff.mp hne
  · intro line hfilled
    obtain ⟨line, hmem, rfl⟩ := List.mem_map.mp hfilled
    exact mt List.map_eq_nil_iff.mp (hline line hmem)
  · exact hcell ',' (by decide) (by decide)
  · exact hcell ';' (by decide) (by decide)

/-- The texts in the cells are found again without the blanks before them. -/
theorem textsOf_joined :
  textsOf (joined (filled w texts)) = texts
  := by
  have hstripped : ∀ line ∈ texts,
      ((·.map (·.dropWhile (· == ' '))) ∘ (·.map (List.leftpad w ' '))) line = id line := by
    intro line hmem
    have hcell : ∀ cs ∈ line, ((·.dropWhile (· == ' ')) ∘ List.leftpad w ' ') cs = id cs :=
      fun cs hcs => Grid.dropWhile_leftpad w (h line hmem cs hcs).head?_ne_blank
    rw [Function.comp_apply, List.map_map, List.map_congr_left hcell, List.map_id, id]
  rw [textsOf, (separable_filled w hne hline h).map_cellsOf, filled, List.map_map,
    List.map_congr_left hstripped, List.map_id]

end

end Block

open Block

namespace Grid

section

variable {V : Type} [Legible V] {rows cols digits : Nat} {g : Grid V rows cols}
  {texts : List (List (List Char))}

theorem length_cells (h : g.cells digits = .ok texts) :
  texts.length = rows
  := by
  rw [← (forall₂_of_mapM h).length_eq, Vector.length_toList]

theorem length_of_mem_cells (h : g.cells digits = .ok texts) :
  ∀ line ∈ texts, line.length = cols
  := by
  intro line hline
  obtain ⟨row, -, hrow⟩ := exists_of_mem_mapM h hline
  rw [← (forall₂_of_mapM hrow).length_eq, Vector.length_toList]

/-- With a row and a column, there are lines, and cells in every line. -/
theorem ne_nil_of_cells (h : g.cells digits = .ok texts) (hrows : 0 < rows) (hcols : 0 < cols) :
  texts ≠ [] ∧ ∀ line ∈ texts, line ≠ []
  := by
  constructor
  · rw [← List.length_pos_iff, length_cells h]
    exact hrows
  · intro line hline
    rw [← List.length_pos_iff, length_of_mem_cells h line hline]
    exact hcols

end

/-- Between the brackets stand the lines of a grid, of one length, in cells of one width, and in each
cell the text of the entry behind blanks.  The width is the length of one of the texts. -/
structure Laid {V : Type} [Legible V] {rows cols : Nat} (digits : Nat) (g : Grid V rows cols)
    (w : Nat) (inside : List Char) : Prop where
  length_lines : (linesOf inside).length = rows
  line : ∀ line ∈ linesOf inside, ∀ line' ∈ linesOf inside, line.length = line'.length
  length_cells : ∀ line ∈ linesOf inside, (cellsOf line).length = cols
  width : ∀ line ∈ linesOf inside, ∀ cs ∈ cellsOf line, cs.length = w
  cell : ∀ (i : Fin rows) (j : Fin cols), ∃ blanks cs,
    Legible.significantText digits (g.entry i j) = .ok cs
      ∧ cellAt ((linesOf inside).map cellsOf) i j = some (List.replicate blanks ' ' ++ cs)
  attained : ∃ (i : Fin rows) (j : Fin cols), ∃ cs,
    Legible.significantText digits (g.entry i j) = .ok cs ∧ cs.length = w

section

variable {V : Type} [Legible V] {rows cols digits : Nat} {g : Grid V rows cols}
  {texts : List (List (List Char))}

theorem laid_of_cells (hV : Legible.IsScalar V) (h : g.cells digits = .ok texts) (hrows : 0 < rows)
    (hcols : 0 < cols) :
  g.Laid digits (width texts) (joined (filled (width texts) texts))
  := by
  obtain ⟨hne, hline⟩ := ne_nil_of_cells h hrows hcols
  have hseparable := separable_filled (width texts) hne hline (isCell_of_mem_cells hV h)
  have hlength : ∀ line ∈ filled (width texts) texts, line.length = cols := by
    intro line hfilled
    obtain ⟨line, hmem, rfl⟩ := List.mem_map.mp hfilled
    rw [List.length_map, length_of_mem_cells h line hmem]
  constructor
  · rw [hseparable.linesOf_joined, List.length_map, filled, List.length_map, Grid.length_cells h]
  · intro text htext text' htext'
    obtain ⟨line, hmem, rfl, -⟩ := hseparable.exists_line htext
    obtain ⟨line', hmem', rfl, -⟩ := hseparable.exists_line htext'
    rw [length_intercalate fun cs => length_of_mem_filled hmem,
      length_intercalate fun cs => length_of_mem_filled hmem',
      hlength line hmem, hlength line' hmem']
  · intro text htext
    obtain ⟨line, hmem, -, hcells⟩ := hseparable.exists_line htext
    rw [hcells, hlength line hmem]
  · intro text htext cs hcs
    obtain ⟨line, hmem, -, hcells⟩ := hseparable.exists_line htext
    rw [hcells] at hcs
    exact length_of_mem_filled hmem hcs
  · intro i j
    obtain ⟨cs, hcs, hcell⟩ := cell_cells h i j
    refine ⟨width texts - cs.length, cs, hcs, ?_⟩
    rw [hseparable.map_cellsOf, cellAt_filled, hcell]
    rfl
  · obtain ⟨cs, -, hcell⟩ := cell_cells h ⟨0, hrows⟩ ⟨0, hcols⟩
    obtain ⟨line, hmem, hcs⟩ := Option.bind_eq_some_iff.mp hcell
    obtain ⟨line, hmem, cs, hcs, hwidth⟩ :=
      exists_length_eq_width (List.mem_of_getElem? hmem) (List.mem_of_getElem? hcs)
    obtain ⟨i, j, htext⟩ := exists_entry_of_mem_cells h hmem hcs
    exact ⟨i, j, cs, htext, hwidth⟩

/-- The texts of the entries determine the shape. -/
theorem shape_of_cells {W : Type} [Legible W] {rows' cols' digits' : Nat} {h : Grid W rows' cols'}
    (hne : texts ≠ []) (hg : g.cells digits = .ok texts) (hh : h.cells digits' = .ok texts) :
  rows = rows' ∧ cols = cols'
  := by
  obtain ⟨line, hmem⟩ := List.exists_mem_of_ne_nil texts hne
  constructor
  · exact (length_cells hg).symm.trans (length_cells hh)
  · exact (length_of_mem_cells hg line hmem).symm.trans (length_of_mem_cells hh line hmem)

end

/-! ### One column -/

section

variable {V : Type} [Legible V] {rows digits : Nat} {g : Grid V rows 1}
  {texts : List (List (List Char))}

/-- Lines of one cell each are flattened without loss. -/
theorem map_singleton_flatten {α : Type} {xss : List (List α)} (h : ∀ xs ∈ xss, xs.length = 1) :
  xss.flatten.map (fun x => [x]) = xss
  := by
  induction xss with
  | nil => rfl
  | cons xs xss ih =>
      obtain ⟨x, rfl⟩ := List.length_eq_one_iff.mp (h xs List.mem_cons_self)
      rw [List.flatten_cons, List.singleton_append, List.map_cons,
        ih fun ys hys => h ys (List.mem_cons_of_mem [x] hys)]

/-- The cells of a column, one below the other. -/
theorem getElem?_flatten_cells (h : g.cells digits = .ok texts) (i : Fin rows) :
  ∃ cs, Legible.significantText digits (g.entry i 0) = .ok cs ∧ texts.flatten[i.val]? = some cs
  := by
  obtain ⟨cs, hcs, hcell⟩ := cell_cells h i 0
  refine ⟨cs, hcs, ?_⟩
  rw [← map_singleton_flatten (length_of_mem_cells h), cellAt, List.getElem?_map] at hcell
  cases hi : texts.flatten[i.val]? with
  | none =>
      rw [hi] at hcell
      cases hcell
  | some ds =>
      rw [hi] at hcell
      exact hcell

theorem length_flatten_cells (h : g.cells digits = .ok texts) :
  texts.flatten.length = rows
  := by
  rw [← length_cells h, ← List.length_map fun cs => [cs], map_singleton_flatten (length_of_mem_cells h)]

end

/-- The text of a column is a row of its unpadded cells, which are found again unless there are none. -/
structure InOneRow {V : Type} [Legible V] {rows : Nat} (digits : Nat) (g : Grid V rows 1)
    (column : List (List Char)) : Prop where
  length : column.length = rows
  cell : ∀ i : Fin rows, ∃ cs, Legible.significantText digits (g.entry i 0) = .ok cs
    ∧ column[i.val]? = some cs
  text : g.blockText digits = .ok ('[' :: [',', ' '].intercalate column ++ [']'])
  found : 1 ≤ rows → cellsOf ([',', ' '].intercalate column) = column

theorem inOneRow_of_cells {V : Type} [Legible V] {rows digits : Nat} {g : Grid V rows 1}
    {texts : List (List (List Char))} (hV : Legible.IsScalar V) (h : g.cells digits = .ok texts) :
  g.InOneRow digits texts.flatten
  := by
  constructor
  · exact length_flatten_cells h
  · exact getElem?_flatten_cells h
  · rw [blockText_of_cells hV h, if_pos rfl, bracketed_eq, joined_singleton]
  · intro hrows
    apply cut_intercalate
    · rw [← List.length_pos_iff, length_flatten_cells h]
      exact hrows
    · intro cs hcs
      obtain ⟨line, hline, hcs⟩ := List.mem_flatten.mp hcs
      exact (isCell_of_mem_cells hV h line hline cs hcs).not_mem (by decide)

/-! ### Equal texts -/

/-- Two grids with the same text have the same shape, and the same texts stand in their cells. -/
def TextTells {V W : Type} [Legible V] [Legible W] {rows cols rows' cols' : Nat} (digits digits' : Nat)
    (g : Grid V rows cols) (h : Grid W rows' cols') : Prop :=
  ∀ text, g.blockText digits = .ok text → h.blockText digits' = .ok text →
    rows = rows' ∧ cols = cols' ∧ g.cells digits = h.cells digits'

section

variable {V W : Type} [Legible V] [Legible W] {rows cols rows' cols' : Nat} (digits digits' : Nat)

theorem cells_of_blockText {digits : Nat} {g : Grid V rows cols} {text : List Char}
    (h : g.blockText digits = .ok text) :
  ∃ texts, g.cells digits = .ok texts
  := by
  rw [blockText] at h
  cases hcells : g.cells digits with
  | error fault =>
      rw [hcells] at h
      cases h
  | ok texts => exact ⟨texts, rfl⟩

theorem textTells_block (hV : Legible.IsScalar V) (hW : Legible.IsScalar W) (g : Grid V rows cols)
    (h : Grid W rows' cols') (hrows : 1 ≤ rows) (hcols : 2 ≤ cols) (hrows' : 1 ≤ rows')
    (hcols' : 2 ≤ cols') :
  TextTells digits digits' g h
  := by
  intro text hg hh
  obtain ⟨texts, htexts⟩ := cells_of_blockText hg
  obtain ⟨texts', htexts'⟩ := cells_of_blockText hh
  obtain ⟨hne, hline⟩ := ne_nil_of_cells htexts hrows (by omega)
  obtain ⟨hne', hline'⟩ := ne_nil_of_cells htexts' hrows' (by omega)
  rw [blockText_of_cells hV htexts, if_neg (by omega)] at hg
  rw [← hg, blockText_of_cells hW htexts', if_neg (by omega)] at hh
  have hsame : texts = texts' := by
    rw [← textsOf_joined (width texts) hne hline (isCell_of_mem_cells hV htexts),
      ← joined_of_bracketed (Except.ok.inj hh),
      textsOf_joined (width texts') hne' hline' (isCell_of_mem_cells hW htexts')]
  subst hsame
  obtain ⟨hrows, hcols⟩ := shape_of_cells hne htexts htexts'
  exact ⟨hrows, hcols, htexts.trans htexts'.symm⟩

theorem textTells_column (hV : Legible.IsScalar V) (hW : Legible.IsScalar W) (g : Grid V rows 1)
    (h : Grid W rows' 1) (hrows : 1 ≤ rows) (hrows' : 1 ≤ rows') :
  TextTells digits digits' g h
  := by
  intro text hg hh
  obtain ⟨texts, htexts⟩ := cells_of_blockText hg
  obtain ⟨texts', htexts'⟩ := cells_of_blockText hh
  have hcolumn : texts.flatten = texts'.flatten := by
    rw [blockText_of_cells hV htexts, if_pos rfl] at hg
    rw [← hg, blockText_of_cells hW htexts', if_pos rfl] at hh
    have hjoined := joined_of_bracketed (Except.ok.inj hh)
    rw [joined_singleton, joined_singleton] at hjoined
    rw [← (inOneRow_of_cells hV htexts).found hrows, ← hjoined,
      (inOneRow_of_cells hW htexts').found hrows']
  refine ⟨?_, rfl, ?_⟩
  · rw [← length_flatten_cells htexts, hcolumn, length_flatten_cells htexts']
  · rw [htexts, htexts', ← map_singleton_flatten (length_of_mem_cells htexts), hcolumn,
      map_singleton_flatten (length_of_mem_cells htexts')]

end

/-- The text of a grid with at least two columns is laid out in lines and cells, and shows the shape
of the grid and the texts of its entries: two such grids with the same text agree in both.  The text of
a single column is a row of its cells, and shows them too. -/
theorem blockText_unambiguous :
  (∀ (V : Type) [Legible V], Legible.IsScalar V →
      ∀ (rows cols digits : Nat) (g : Grid V rows cols), 1 ≤ rows → 2 ≤ cols →
        (∀ i j, ∃ cs, Legible.significantText digits (g.entry i j) = .ok cs) →
        ∃ w inside, g.blockText digits = .ok ('[' :: inside ++ [']']) ∧ g.Laid digits w inside)
    ∧ (∀ (V W : Type) [Legible V] [Legible W], Legible.IsScalar V → Legible.IsScalar W →
        ∀ (rows cols rows' cols' digits digits' : Nat) (g : Grid V rows cols)
          (h : Grid W rows' cols'), 1 ≤ rows → 2 ≤ cols → 1 ≤ rows' → 2 ≤ cols' →
          TextTells digits digits' g h)
    ∧ (∀ (V : Type) [Legible V], Legible.IsScalar V →
        ∀ (rows digits : Nat) (g : Grid V rows 1),
          (∀ i, ∃ cs, Legible.significantText digits (g.entry i 0) = .ok cs) →
          ∃ column, g.InOneRow digits column)
    ∧ ∀ (V W : Type) [Legible V] [Legible W], Legible.IsScalar V → Legible.IsScalar W →
        ∀ (rows rows' digits digits' : Nat) (g : Grid V rows 1) (h : Grid W rows' 1),
          1 ≤ rows → 1 ≤ rows' → TextTells digits digits' g h
  := by
  refine ⟨?_, ?_, ?_, ?_⟩
  · intro V _ hV rows cols digits g hrows hcols hentry
    obtain ⟨texts, htexts⟩ := g.exists_cells hentry
    refine ⟨width texts, joined (filled (width texts) texts), ?_, ?_⟩
    · rw [blockText_of_cells hV htexts, if_neg (by omega), bracketed_eq]
    · exact laid_of_cells hV htexts hrows (by omega)
  · intro V W _ _ hV hW rows cols rows' cols' digits digits' g h hrows hcols hrows' hcols'
    exact textTells_block digits digits' hV hW g h hrows hcols hrows' hcols'
  · intro V _ hV rows digits g hentry
    have hcolumn : ∀ i j, ∃ cs, Legible.significantText digits (g.entry i j) = .ok cs := by
      intro i j
      obtain rfl := Fin.fin_one_eq_zero j
      exact hentry i
    obtain ⟨texts, htexts⟩ := g.exists_cells hcolumn
    exact ⟨texts.flatten, inOneRow_of_cells hV htexts⟩
  · intro V W _ _ hV hW rows rows' digits digits' g h hrows hrows'
    exact textTells_column digits digits' hV hW g h hrows hrows'

/-- The same numbers as integers and in floating point have the same texts. -/
theorem blockText_unambiguous_sameNumbers :
  let one : Bounded .signed32 := ⟨1, by decide, by decide⟩
  let twenty : Bounded .signed32 := ⟨20, by decide, by decide⟩
  let g : Grid (Bounded .signed32) 2 2 := ⟨#v[#v[one, twenty], #v[one, one]]⟩
  let h : Grid (Binary .double) 2 2 :=
    ⟨#v[#v[.ofBits 0x3ff0000000000000, .ofBits 0x4034000000000000],
      #v[.ofBits 0x3ff0000000000000, .ofBits 0x3ff0000000000000]]⟩
  let c : Grid (Bounded .signed32) 2 1 := ⟨#v[#v[one], #v[twenty]]⟩
  let d : Grid (Binary .double) 2 1 :=
    ⟨#v[#v[.ofBits 0x3ff0000000000000], #v[.ofBits 0x4034000000000000]]⟩
  Legible.IsScalar (Bounded .signed32) ∧ Legible.IsScalar (Binary .double)
    ∧ g.blockText 6 = .ok "[ 1, 20;\n  1,  1]".toList
    ∧ h.blockText 17 = .ok "[ 1, 20;\n  1,  1]".toList
    ∧ (∃ w inside, g.blockText 6 = .ok ('[' :: inside ++ [']']) ∧ g.Laid 6 w inside)
    ∧ g.cells 6 = h.cells 17
    ∧ c.blockText 6 = .ok "[1, 20]".toList ∧ d.blockText 17 = .ok "[1, 20]".toList
    ∧ (∃ column, c.InOneRow 6 column)
    ∧ c.cells 6 = d.cells 17
  := by
  intro one twenty g h c d
  obtain ⟨hblock, htells, hcolumn, htellsColumn⟩ := blockText_unambiguous
  have hinteger : Legible.IsScalar (Bounded .signed32) := .integer .signed32 (by decide)
  have hbinary : Legible.IsScalar (Binary .double) := .binary .double
  have hg : g.blockText 6 = .ok "[ 1, 20;\n  1,  1]".toList := by decide +kernel
  have hh : h.blockText 17 = .ok "[ 1, 20;\n  1,  1]".toList := by decide +kernel
  have hc : c.blockText 6 = .ok "[1, 20]".toList := by decide +kernel
  have hd : d.blockText 17 = .ok "[1, 20]".toList := by decide +kernel
  obtain ⟨-, -, hcells⟩ := htells _ _ hinteger hbinary 2 2 2 2 6 17 g h (by decide) le_rfl (by decide)
    le_rfl _ hg hh
  obtain ⟨-, -, hcellsColumn⟩ := htellsColumn _ _ hinteger hbinary 2 2 6 17 c d (by decide) (by decide)
    _ hc hd
  exact ⟨hinteger, hbinary, hg, hh,
    hblock _ hinteger 2 2 6 g (by decide) le_rfl fun i j => ⟨(g.entry i j).digits, rfl⟩, hcells, hc, hd,
    hcolumn _ hinteger 2 6 c fun i => ⟨(c.entry i 0).digits, rfl⟩, hcellsColumn⟩

end Grid

end RenderKernel
