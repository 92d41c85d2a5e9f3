import RenderKernel.Geometry.Normal
import RenderKernel.Geometry.Point
import RenderKernel.Proofs.Json.Components

/-!
# Geometric quantities read back

A vector, a point or a normal is written as the array of its components.  Reading the array gives the
same quantity, bit for bit, if the format can hold every component: integers always, and
floating-point numbers as long as they are finite.  A quantity with another component is refused when
it is read, not when it is written.
-/

namespace RenderKernel.Primitive

/-- A kind of quantity that consists of its components. -/
class Faithful (P : Type) {S : Type} {n : Nat} [Primitive P S n] : Prop where
  ofComponents_components : ∀ p : P, ofComponents (components p) = p

instance {S : Type} {n : Nat} : Faithful (Vec S n) := ⟨fun _ => rfl⟩

instance {S : Type} {n : Nat} : Faithful (Point S n) := ⟨fun _ => rfl⟩

instance {S : Type} : Faithful (Normal S) := ⟨fun _ => rfl⟩

section RoundTrip

variable {P S : Type} {n : Nat} [Primitive P S n] [Json.Scalar S]

/-- The quantities of a kind are read from the documents that hold them if the data format can hold
every component, and are refused as a value of another type otherwise. -/
def RoundTrips (P : Type) {S : Type} {n : Nat} [Primitive P S n] [Json.Scalar S] (held : S → Bool) :
    Prop :=
  ∀ p : P, if (components p).toList.all held then ofJson (toJson p) = .ok p
    else ∃ cause, ofJson (P := P) (toJson p) = .error (.mismatch cause)

theorem ofJson_toJson [Faithful P] {p : P} (hall : ∀ x ∈ (components p).toList, Json.ReadsBack x) :
  ofJson (toJson p) = .ok p
  := by
  have hread := Json.componentsOfText_componentsText hall
  rw [Vector.length_toList] at hread
  have hsize : (components p).toList.toArray.size = n := by
    rw [List.size_toArray, Vector.length_toList]
  have hsame : (⟨(components p).toList.toArray, hsize⟩ : Vector S n) = components p :=
    Vector.toArray_inj.mp Array.toArray_toList
  rw [ofJson, toJson, hread]
  apply (dif_pos hsize).trans
  rw [hsame, Faithful.ofComponents_components]
  rfl

theorem ofJson_refused {p : P} (hall : ∀ x ∈ (components p).toList, Json.Decided x)
    (hrefused : ∃ x ∈ (components p).toList, Json.Refused x) :
  ∃ cause, ofJson (P := P) (toJson p) = .error (.mismatch cause)
  := by
  obtain ⟨cause, hread⟩ := Json.componentsOfText_refused hall hrefused
  rw [Vector.length_toList] at hread
  use cause
  rw [ofJson, toJson, hread]
  rfl

/-- A kind of quantity round trips if the numbers that the format holds are read back, and all others
are refused. -/
theorem roundTrips_of [Faithful P] {held : S → Bool} (hback : ∀ x, held x = true → Json.ReadsBack x)
    (hrefused : ∀ x, held x = false → Json.Refused x) :
  RoundTrips P held
  := by
  intro p
  split
  · rename_i hall
    apply ofJson_toJson
    intro x hx
    apply hback x (List.all_eq_true.mp hall x hx)
  · rename_i hany
    apply ofJson_refused
    · intro x _
      cases hheld : held x with
      | true => exact .inl (hback x hheld)
      | false => exact .inr (hrefused x hheld)
    · rw [Bool.not_eq_true, List.all_eq_false] at hany
      obtain ⟨x, hmem, hx⟩ := hany
      exact ⟨x, hmem, hrefused x (Bool.eq_false_iff.mpr hx)⟩

end RoundTrip

theorem roundTrips_floats {P : Type} {f : Format} {n : Nat} [Primitive P (Binary f) n] [Faithful P]
    [Json.Scalar (Binary f)] {layout : Decimal.Layout} (h : Json.Written f layout) :
  RoundTrips P Binary.isFinite
  := by
  apply roundTrips_of
  · intro x hx
    apply h.readsBack hx
  · intro x hx
    apply h.refused hx

theorem roundTrips_integers {P : Type} {k : IntegerKind} {n : Nat} [Primitive P (Bounded k) n]
    [Faithful P] (hbits : k.bits ≤ 64) :
  RoundTrips P (fun _ : Bounded k => true)
  := by
  apply roundTrips_of
  · intro x _
    apply Json.readsBack_integer hbits
  · rintro x ⟨⟩

/-- Vectors, points and normals of every kind of numbers are read from the documents that hold them.
Floating-point components come back with the same bits as long as all of them are finite, and are
refused otherwise; integers of at most 64 bits always come back. -/
theorem roundTrips_json (n : Nat) :
  (RoundTrips (Vec (Binary .single) n) Binary.isFinite
      ∧ RoundTrips (Point (Binary .single) n) Binary.isFinite
      ∧ RoundTrips (Normal (Binary .single)) Binary.isFinite)
    ∧ (RoundTrips (Vec (Binary .double) n) Binary.isFinite
      ∧ RoundTrips (Point (Binary .double) n) Binary.isFinite
      ∧ RoundTrips (Normal (Binary .double)) Binary.isFinite)
    ∧ ∀ k : IntegerKind, k.bits ≤ 64 →
      RoundTrips (Vec (Bounded k) n) (fun _ => true)
      ∧ RoundTrips (Point (Bounded k) n) (fun _ => true)
      ∧ RoundTrips (Normal (Bounded k)) (fun _ => true)
  := by
  refine ⟨⟨?_, ?_, ?_⟩, ⟨?_, ?_, ?_⟩, ?_⟩
  · apply roundTrips_floats Json.written_single
  · apply roundTrips_floats Json.written_single
  · apply roundTrips_floats Json.written_single
  · apply roundTrips_floats Json.written_double
  · apply roundTrips_floats Json.written_double
  · apply roundTrips_floats Json.written_double
  · intro k hk
    refine ⟨?_, ?_, ?_⟩
    · apply roundTrips_integers hk
    · apply roundTrips_integers hk
    · apply roundTrips_integers hk

/-- The zero with a minus sign, the least positive number and the greatest finite one come back, and
so do the bounds of the integers of 64 bits; with a pattern that is no number among them components
are refused. -/
theorem roundTrips_json_extremes :
  let v : Vec (Binary .double) 3 := .of₃ (.zero true) (.ofBits 1) (.ofBits 0x7fefffffffffffff)
  let w : Point (Binary .single) 3 := .of₃ (.zero true) .nan (.ofBits 1)
  let i : Normal (Bounded .signed64) := .of₃ Bounded.zero ⟨-2 ^ 63, by decide, by decide⟩
    ⟨2 ^ 63 - 1, by decide, by decide⟩
  ofJson (toJson v) = .ok v
    ∧ (∃ cause, ofJson (P := Point (Binary .single) 3) (toJson w) = .error (.mismatch cause))
    ∧ IntegerKind.signed64.bits ≤ 64 ∧ ofJson (toJson i) = .ok i
  := by
  intro v w i
  have hv := (roundTrips_json 3).2.1.1 v
  have hw := (roundTrips_json 3).1.2.1 w
  have hi := ((roundTrips_json 3).2.2 .signed64 (by decide)).2.2 i
  rw [if_pos (by decide +kernel)] at hv
  rw [if_neg (by decide +kernel)] at hw
  rw [if_pos (by decide +kernel)] at hi
  exact ⟨hv, hw, by decide, hi⟩

end RenderKernel.Primitive
