import RenderKernel.Proofs.Text.Reading
import RenderKernel.Proofs.Traversal
import RenderKernel.Text.Block

/-!
# The cells of a block

The text of a grid is made of cells, and the cell of an entry is the text of the entry behind blanks
(`Grid.cell_printed`).  Such a text does not begin with a blank, so that entries with the same cell
have the same text; and with enough digits, a number is read from its text
(`Binary.reading_of_lossless`).  So two different finite numbers never have the same cell.
-/

namespace RenderKernel

/-! ### Cells -/

namespace Block

variable {lines texts : List (List (List Char))}

/-- The lines with blanks before every cell, up to a width. -/
def filled (w : Nat) (texts : List (List (List Char))) : List (List (List Char)) :=
  texts.map (·.map (List.leftpad w ' '))

theorem filled_zero (texts : List (List (List Char))) :
  filled 0 texts = texts
  := by
  have hcell : List.leftpad 0 ' ' = id := by
    funext cs
    rw [List.leftpad, Nat.zero_sub, List.replicate_zero, List.nil_append, id]
  rw [filled, hcell]
  simp only [List.map_id, List.map_id']

theorem exists_width_of_aligned (h : aligned texts = .ok lines) :
  ∃ w, lines = filled w texts
  := by
  rw [aligned] at h
  split at h
  · cases h
    exact ⟨0, (filled_zero lines).symm⟩
  · cases hwidth : Significant.checkPrecision (width texts) with
    | error fault =>
        simp only [hwidth] at h
        cases h
    | ok passed =>
        simp only [hwidth] at h
        cases h
        exact ⟨width texts, rfl⟩

end Block

namespace Grid

section

variable {V : Type} {rows cols : Nat}

/-- The entry in a row and a column. -/
def entry (g : Grid V rows cols) (i : Fin rows) (j : Fin cols) : V := g.entries[i][j]

theorem exists_entry {g : Grid V rows cols} {row : Vector V cols} {x : V}
    (hrow : row ∈ g.entries.toList) (hx : x ∈ row.toList) :
  ∃ i j, g.entry i j = x
  := by
  obtain ⟨i, hi, rfl⟩ := Vector.getElem_of_mem (Vector.mem_toList_iff.mp hrow)
  obtain ⟨j, hj, rfl⟩ := Vector.getElem_of_mem (Vector.mem_toList_iff.mp hx)
  exact ⟨⟨i, hi⟩, ⟨j, hj⟩, rfl⟩

variable [Legible V] {digits : Nat} {lines : List (List (List Char))}

/-- The cells as they stand in the text of a grid: filled up to a common width, unless they stand in
a single row. -/
def printed (digits : Nat) (g : Grid V rows cols) :
    Except FormatFault (List (List (List Char))) := do
  let lines ← g.cells digits
  if cols = 1 then return lines else Block.aligned lines

/-- The cell in a row and a column. -/
def cellAt (lines : List (List (List Char))) (i : Fin rows) (j : Fin cols) : Option (List Char) :=
  lines[i.val]?.bind (·[j.val]?)

/-- The text of a grid is made of its cells. -/
theorem blockText_eq (digits : Nat) (g : Grid V rows cols) :
  g.blockText digits = (g.printed digits).map fun lines =>
    Block.bracketed (if cols = 1 then [lines.flatten] else lines)
  := by
  rw [blockText, printed]
  cases g.cells digits with
  | error fault => rfl
  | ok lines =>
      by_cases hcols : cols = 1
      · simp only [hcols]
        rfl
      · change (if cols = 1 then _ else _) = (if cols = 1 then _ else Block.aligned lines).map _
        simp only [if_neg hcols]
        cases Block.aligned lines with
        | error fault => rfl
        | ok aligned => rfl

theorem exists_width {g : Grid V rows cols} (h : g.printed digits = .ok lines) :
  ∃ texts w, g.cells digits = .ok texts ∧ lines = Block.filled w texts
  := by
  rw [printed] at h
  cases htexts : g.cells digits with
  | error fault =>
      rw [htexts] at h
      cases h
  | ok texts =>
      rw [htexts] at h
      change (if cols = 1 then Except.ok texts else Block.aligned texts) = .ok lines at h
      split at h
      · cases h
        exact ⟨lines, 0, rfl, (Block.filled_zero lines).symm⟩
      · obtain ⟨w, rfl⟩ := Block.exists_width_of_aligned h
        exact ⟨texts, w, rfl, rfl⟩

/-- Before they are filled up, the cells are the texts of the entries. -/
theorem cell_cells {g : Grid V rows cols} {texts : List (List (List Char))}
    (h : g.cells digits = .ok texts) (i : Fin rows) (j : Fin cols) :
  ∃ cs, Legible.significantText digits (g.entry i j) = .ok cs ∧ cellAt texts i j = some cs
  := by
  have hi : i.val < g.entries.toList.length := by
    rw [Vector.length_toList]
    exact i.isLt
  obtain ⟨line, hline, hi'⟩ := exists_getElem?_of_mapM h hi
  have hj : j.val < (g.entries.toList[i.val]).toList.length := by
    rw [Vector.length_toList]
    exact j.isLt
  obtain ⟨cs, hcs, hj'⟩ := exists_getElem?_of_mapM hline hj
  refine ⟨cs, hcs, ?_⟩
  rw [cellAt, hi', Option.bind_some, hj']

/-- Every cell is the text of an entry. -/
theorem exists_entry_of_mem_cells {g : Grid V rows cols} {texts : List (List (List Char))}
    (h : g.cells digits = .ok texts) {line : List (List Char)} {cs : List Char} (hline : line ∈ texts)
    (hcs : cs ∈ line) :
  ∃ i j, Legible.significantText digits (g.entry i j) = .ok cs
  := by
  obtain ⟨row, hrow, hmapM⟩ := exists_of_mem_mapM h hline
  obtain ⟨x, hx, htext⟩ := exists_of_mem_mapM hmapM hcs
  obtain ⟨i, j, rfl⟩ := exists_entry hrow hx
  exact ⟨i, j, htext⟩

theorem cellAt_filled (w : Nat) (texts : List (List (List Char))) (i : Fin rows) (j : Fin cols) :
  cellAt (Block.filled w texts) i j = (cellAt texts i j).map (List.leftpad w ' ')
  := by
  rw [cellAt, cellAt, Block.filled, List.getElem?_map]
  cases texts[i.val]? with
  | none => rfl
  | some line => exact List.getElem?_map

/-- The cell of an entry is the text of the entry behind blanks. -/
theorem cell_printed {g : Grid V rows cols} (h : g.printed digits = .ok lines) :
  ∃ w, ∀ (i : Fin rows) (j : Fin cols), ∃ cs, Legible.significantText digits (g.entry i j) = .ok cs
    ∧ cellAt lines i j = some (cs.leftpad w ' ')
  := by
  obtain ⟨texts, w, htexts, rfl⟩ := exists_width h
  use w
  intro i j
  obtain ⟨cs, hcs, hcell⟩ := cell_cells htexts i j
  refine ⟨cs, hcs, ?_⟩
  rw [cellAt_filled, hcell, Option.map_some]

end

/-- Different finite numbers of a grid stand in its text as different cells. -/
def TellsApart {f : Format} {rows cols : Nat} (digits : Nat) (g : Grid (Binary f) rows cols) : Prop :=
  ∀ text, g.blockText digits = .ok text →
    ∃ lines, g.printed digits = .ok lines
      ∧ text = Block.bracketed (if cols = 1 then [lines.flatten] else lines)
      ∧ ∀ (i k : Fin rows) (j l : Fin cols), (g.entry i j).isFinite = true →
        (g.entry k l).isFinite = true → g.entry i j ≠ g.entry k l →
        ∃ c d, cellAt lines i j = some c ∧ cellAt lines k l = some d ∧ c ≠ d

/-- The blanks before a text that does not begin with one can be taken away again. -/
theorem dropWhile_leftpad (w : Nat) {cs : List Char} (hcs : cs.head? ≠ some ' ') :
  (cs.leftpad w ' ').dropWhile (· == ' ') = cs
  := by
  rw [List.leftpad, List.dropWhile_append_of_pos]
  · cases cs with
    | nil => rfl
    | cons c cs =>
        apply List.dropWhile_cons_of_neg
        rw [beq_iff_eq]
        rintro rfl
        exact hcs rfl
  · intro c hc
    rw [List.eq_of_mem_replicate hc]
    rfl

/-- Texts that do not begin with a blank are the same if they are the same behind blanks. -/
theorem eq_of_leftpad_eq {w : Nat} {cs ds : List Char} (hcs : cs.head? ≠ some ' ')
    (hds : ds.head? ≠ some ' ') (h : cs.leftpad w ' ' = ds.leftpad w ' ') :
  cs = ds
  := by
  rw [← dropWhile_leftpad w hcs, h, dropWhile_leftpad w hds]

/-- A grid tells numbers apart if they are read from their texts. -/
theorem tellsApart_of_reading {f : Format} {rows cols digits : Nat} (g : Grid (Binary f) rows cols)
    (htext : ∀ (x : Binary f) (cs : List Char), x.isFinite = true →
      Legible.significantText digits x = .ok cs → cs.head? ≠ some ' ' ∧ Binary.reading cs = x) :
  g.TellsApart digits
  := by
  intro text hblock
  rw [blockText_eq] at hblock
  cases hprinted : g.printed digits with
  | error fault =>
      rw [hprinted] at hblock
      cases hblock
  | ok lines =>
      rw [hprinted] at hblock
      cases hblock
      refine ⟨lines, rfl, rfl, ?_⟩
      intro i k j l hx hy hne
      obtain ⟨w, hcell⟩ := cell_printed hprinted
      obtain ⟨cs, hcs, hc⟩ := hcell i j
      obtain ⟨ds, hds, hd⟩ := hcell k l
      obtain ⟨hcsHead, hcsRead⟩ := htext _ _ hx hcs
      obtain ⟨hdsHead, hdsRead⟩ := htext _ _ hy hds
      refine ⟨_, _, hc, hd, fun hsame => ?_⟩
      obtain rfl := eq_of_leftpad_eq hcsHead hdsHead hsame
      exact hne (hcsRead.symm.trans hdsRead)

end Grid

/-! ### Enough digits -/

namespace Binary

variable {digits : Nat} {cs : List Char}

/-- The text of a finite number does not begin with a blank. -/
theorem head?_ne_blank {f : Format} {x : Binary f} (hfinite : x.isFinite = true)
    (h : x.significantText digits = .ok cs) :
  cs.head? ≠ some ' '
  := by
  obtain ⟨numeral, ⟨c, ds, hc, rfl⟩, rfl⟩ := exists_signed hfinite h
  cases x.negative with
  | true => rintro ⟨⟩
  | false =>
      rintro ⟨⟩
      cases hc

theorem double_lossless (h : 17 ≤ digits) :
  2 * Format.double.fractions < 10 ^ (digits - 1)
  := by
  have hpower : 2 * Format.double.fractions < 10 ^ 16 := by decide
  exact hpower.trans_le (Nat.pow_le_pow_right (by decide) (by omega))

theorem single_lossless (h : 9 ≤ digits) :
  2 * Format.single.fractions < 10 ^ (digits - 1)
  := by
  have hpower : 2 * Format.single.fractions < 10 ^ 8 := by decide
  exact hpower.trans_le (Nat.pow_le_pow_right (by decide) (by omega))

/-- With seventeen digits or more, nine for the numbers of 32 bits, a finite number is the one nearest to
what its text denotes, and a grid never shows two different ones alike. -/
theorem shownText_lossless :
  (∀ (x : Binary .double) (digits : Nat) (cs : List Char), x.isFinite = true → 17 ≤ digits →
      x.shownText digits = .ok cs → reading cs = x)
    ∧ (∀ (x : Binary .single) (digits : Nat) (cs : List Char), x.isFinite = true → 9 ≤ digits →
      Legible.significantText digits x = .ok cs → reading cs = x)
    ∧ (∀ (rows cols digits : Nat) (g : Grid (Binary .double) rows cols), 17 ≤ digits →
      g.TellsApart digits)
    ∧ ∀ (rows cols digits : Nat) (g : Grid (Binary .single) rows cols), 9 ≤ digits →
      g.TellsApart digits
  := by
  refine ⟨?_, ?_, ?_, ?_⟩
  · intro x digits cs hfinite hdigits h
    rw [shownText_eq] at h
    exact reading_of_lossless hfinite (double_lossless hdigits) h
  · intro x digits cs hfinite hdigits h
    rw [legible_significantText digits hfinite] at h
    exact reading_of_lossless hfinite (single_lossless hdigits) h
  · intro rows cols digits g hdigits
    apply g.tellsApart_of_reading
    intro x cs hfinite h
    rw [legible_shownText digits hfinite, shownText_eq] at h
    exact ⟨head?_ne_blank hfinite h, reading_of_lossless hfinite (double_lossless hdigits) h⟩
  · intro rows cols digits g hdigits
    apply g.tellsApart_of_reading
    intro x cs hfinite h
    rw [legible_significantText digits hfinite] at h
    exact ⟨head?_ne_blank hfinite h, reading_of_lossless hfinite (single_lossless hdigits) h⟩

/-- The greatest number of 64 bits, the least positive one of 32 bits, and neighbours in a grid. -/
theorem shownText_lossless_extremes :
  let x : Binary .double := ofBits 0x7fefffffffffffff
  let w : Binary .single := ofBits 1
  let g : Grid (Binary .double) 1 2 := ⟨#v[#v[ofBits 0x3ff0000000000000, ofBits 0x3ff0000000000001]]⟩
  x.shownText 17 = .ok "1.7976931348623157e+308".toList
    ∧ reading "1.7976931348623157e+308".toList = x
    ∧ Legible.significantText 9 w = .ok "1.40129846e-45".toList
    ∧ reading "1.40129846e-45".toList = w
    ∧ g.blockText 17 = .ok "[                 1, 1.0000000000000002]".toList
    ∧ g.TellsApart 17
  := by
  intro x w g
  have hx : x.shownText 17 = .ok "1.7976931348623157e+308".toList := by decide +kernel
  have hw : Legible.significantText 9 w = .ok "1.40129846e-45".toList := by decide +kernel
  obtain ⟨hdouble, hsingle, hgrid, -⟩ := shownText_lossless
  exact ⟨hx, hdouble x 17 _ (by decide +kernel) le_rfl hx, hw,
    hsingle w 9 _ (by decide +kernel) le_rfl hw, by decide +kernel, hgrid 1 2 17 g le_rfl⟩

end Binary

end RenderKernel
