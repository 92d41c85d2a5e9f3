import RenderKernel.Json.Components
import RenderKernel.Proofs.Json.Number

/-!
# Lists of components read back

The array of some components is read as the components again if each of them is read from its own
text.  The reader stops at the first fault: one component that is refused makes it refuse the whole
array, as long as all components before it are read.
-/

namespace RenderKernel.Json

variable {V : Type} [Scalar V] {cs rest : List Char}

/-- What stands where a number is expected does not close an array, unless the document is not well
formed. -/
theorem exists_skipBlanks_eq (h : readScalar (V := V) cs ≠ .error .malformed) :
  ∃ c ds, skipBlanks cs = c :: ds ∧ c ≠ ']'
  := by
  cases hskip : skipBlanks cs with
  | nil =>
      rw [readScalar, hskip] at h
      cases h rfl
  | cons c ds =>
      refine ⟨c, ds, rfl, ?_⟩
      rintro rfl
      rw [readScalar, hskip] at h
      cases h rfl

theorem ends_componentsRest (xs : List V) (rest : List Char) :
  Ends (componentsRest xs ++ rest)
  := by
  cases xs with
  | nil => exact ends_cons (by decide)
  | cons x xs => exact ends_cons (by decide)

/-- A number that is read from its text, or whose text is refused. -/
def Decided (x : V) : Prop := ReadsBack x ∨ Refused x

theorem exists_refused_tail {x : V} {xs : List V} (hx : ¬Refused x) (h : ∃ y ∈ x :: xs, Refused y) :
  ∃ y ∈ xs, Refused y
  := by
  obtain ⟨y, hmem, hy⟩ := h
  cases hmem with
  | head => cases hx hy
  | tail _ hmem => exact ⟨y, hmem, hy⟩

/-! ### The components behind the first one -/

section Rest

variable {missing count : Nat} {x : V}

theorem readComponentsRest_comma (h : readScalar (V := V) cs ≠ .error .malformed) :
  readComponentsRest (V := V) missing count (',' :: cs) = do
    let (x, cs) ← readScalar cs
    match missing with
    | 0 => .error (.mismatch (.length count .components))
    | missing + 1 => do
      let (xs, rest) ← readComponentsRest missing (count + 1) cs
      return (x :: xs, rest)
  := by
  obtain ⟨c, ds, hskip, hne⟩ := exists_skipBlanks_eq h
  have hcomma : skipBlanks (',' :: cs) = ',' :: cs := rfl
  have hopen : ¬(skipBlanks cs).head? = some ']' := by
    rw [hskip, List.head?_cons, Option.some_inj]
    apply hne
  rw [readComponentsRest, hcomma]
  apply if_neg hopen

theorem readComponentsRest_of_ok (h : readScalar cs = .ok (x, rest)) :
  readComponentsRest (missing + 1) count (',' :: cs) = do
    let (xs, rest) ← readComponentsRest missing (count + 1) rest
    return (x :: xs, rest)
  := by
  have hresult : readScalar (V := V) cs ≠ .error .malformed := by
    rw [h]
    rintro ⟨⟩
  rw [readComponentsRest_comma hresult, h]
  rfl

theorem readComponentsRest_of_mismatch {cause : Document.Mismatch}
    (h : readScalar (V := V) cs = .error (.mismatch cause)) :
  readComponentsRest (V := V) missing count (',' :: cs) = .error (.mismatch cause)
  := by
  have hresult : readScalar (V := V) cs ≠ .error .malformed := by
    rw [h]
    rintro ⟨⟩
  rw [readComponentsRest_comma hresult, h]
  rfl

/-- The components behind the first one are read, all of them. -/
theorem readComponentsRest_append {xs : List V} (hall : ∀ x ∈ xs, ReadsBack x) (count : Nat)
    (rest : List Char) :
  readComponentsRest xs.length count (componentsRest xs ++ rest) = .ok (xs, rest)
  := by
  induction xs generalizing count with
  | nil => rfl
  | cons x xs ih =>
      have hread := hall x List.mem_cons_self (componentsRest xs ++ rest) (ends_componentsRest xs rest)
      have hrest := ih (fun y hy => hall y (List.mem_cons_of_mem x hy)) (count + 1)
      rw [componentsRest, List.cons_append, List.cons_append, List.append_assoc, List.length_cons,
        readComponentsRest_of_ok hread, hrest]
      rfl

/-- One component that is refused makes the reader refuse all. -/
theorem readComponentsRest_refused {xs : List V} (hall : ∀ x ∈ xs, Decided x)
    (hrefused : ∃ x ∈ xs, Refused x) (count : Nat) (rest : List Char) :
  ∃ cause, readComponentsRest (V := V) xs.length count (componentsRest xs ++ rest)
    = .error (.mismatch cause)
  := by
  induction xs generalizing count with
  | nil =>
      obtain ⟨x, hmem, -⟩ := hrefused
      cases hmem
  | cons x xs ih =>
      rw [componentsRest, List.cons_append, List.cons_append, List.append_assoc, List.length_cons]
      by_cases hx : Refused x
      · obtain ⟨cause, hread⟩ := hx
        exact ⟨cause, readComponentsRest_of_mismatch (hread _)⟩
      · have hback := (hall x List.mem_cons_self).resolve_right hx
        have hread := hback (componentsRest xs ++ rest) (ends_componentsRest xs rest)
        obtain ⟨cause, hrest⟩ := ih (fun y hy => hall y (List.mem_cons_of_mem x hy))
          (exists_refused_tail hx hrefused) (count + 1)
        rw [readComponentsRest_of_ok hread, hrest]
        exact ⟨cause, rfl⟩

end Rest

/-! ### Whole documents -/

section Documents

variable {n : Nat} {x : V}

theorem readComponents_bracket (h : readScalar (V := V) cs ≠ .error .malformed) :
  readComponents (V := V) n ('[' :: cs) = do
    let (x, cs) ← readScalar cs
    match n with
    | 0 => .error (.mismatch (.length 0 .components))
    | n + 1 => do
      let (xs, rest) ← readComponentsRest n 1 cs
      return (x :: xs, rest)
  := by
  obtain ⟨c, ds, hskip, hne⟩ := exists_skipBlanks_eq h
  have hbracket : skipBlanks ('[' :: cs) = '[' :: cs := rfl
  rw [readComponents, hbracket]
  simp only [hskip]
  split
  · rename_i hclose
    cases hclose
    cases hne rfl
  · rfl

theorem readComponents_of_ok (h : readScalar cs = .ok (x, rest)) :
  readComponents (n + 1) ('[' :: cs) = do
    let (xs, rest) ← readComponentsRest n 1 rest
    return (x :: xs, rest)
  := by
  have hresult : readScalar (V := V) cs ≠ .error .malformed := by
    rw [h]
    rintro ⟨⟩
  rw [readComponents_bracket hresult, h]
  rfl

theorem readComponents_of_mismatch {cause : Document.Mismatch}
    (h : readScalar (V := V) cs = .error (.mismatch cause)) :
  readComponents (V := V) n ('[' :: cs) = .error (.mismatch cause)
  := by
  have hresult : readScalar (V := V) cs ≠ .error .malformed := by
    rw [h]
    rintro ⟨⟩
  rw [readComponents_bracket hresult, h]
  rfl

/-- The array of some components is read, with nothing left of it. -/
theorem readComponents_append {xs : List V} (hall : ∀ x ∈ xs, ReadsBack x) (rest : List Char) :
  readComponents xs.length (componentsText xs ++ rest) = .ok (xs, rest)
  := by
  cases xs with
  | nil => rfl
  | cons x xs =>
      have hread := hall x List.mem_cons_self (componentsRest xs ++ rest) (ends_componentsRest xs rest)
      have hrest := readComponentsRest_append
        (fun y hy => hall y (List.mem_cons_of_mem x hy)) 1 rest
      rw [componentsText, List.cons_append, List.cons_append, List.append_assoc, List.length_cons,
        readComponents_of_ok hread, hrest]
      rfl

/-- One component that is refused makes the reader refuse the array. -/
theorem readComponents_refused {xs : List V} (hall : ∀ x ∈ xs, Decided x)
    (hrefused : ∃ x ∈ xs, Refused x) (rest : List Char) :
  ∃ cause, readComponents (V := V) xs.length (componentsText xs ++ rest) = .error (.mismatch cause)
  := by
  cases xs with
  | nil =>
      obtain ⟨x, hmem, -⟩ := hrefused
      cases hmem
  | cons x xs =>
      rw [componentsText, List.cons_append, List.cons_append, List.append_assoc, List.length_cons]
      by_cases hx : Refused x
      · obtain ⟨cause, hread⟩ := hx
        exact ⟨cause, readComponents_of_mismatch (hread _)⟩
      · have hback := (hall x List.mem_cons_self).resolve_right hx
        have hread := hback (componentsRest xs ++ rest) (ends_componentsRest xs rest)
        obtain ⟨cause, hrest⟩ := readComponentsRest_refused
          (fun y hy => hall y (List.mem_cons_of_mem x hy)) (exists_refused_tail hx hrefused) 1 rest
        rw [readComponents_of_ok hread, hrest]
        exact ⟨cause, rfl⟩

/-- The components of a document are read, all of them. -/
theorem componentsOfText_componentsText {xs : List V} (hall : ∀ x ∈ xs, ReadsBack x) :
  componentsOfText xs.length (String.ofList (componentsText xs)) = .ok xs
  := by
  have hread := readComponents_append hall []
  rw [List.append_nil] at hread
  rw [componentsOfText, String.toList_ofList, hread]
  rfl

/-- One component that is refused makes the reader refuse the document. -/
theorem componentsOfText_refused {xs : List V} (hall : ∀ x ∈ xs, Decided x)
    (hrefused : ∃ x ∈ xs, Refused x) :
  ∃ cause, componentsOfText (V := V) xs.length (String.ofList (componentsText xs))
    = .error (.mismatch cause)
  := by
  obtain ⟨cause, hread⟩ := readComponents_refused hall hrefused []
  rw [List.append_nil] at hread
  rw [componentsOfText, String.toList_ofList, hread]
  exact ⟨cause, rfl⟩

end Documents

end RenderKernel.Json
