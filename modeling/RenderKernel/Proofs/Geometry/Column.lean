import Mathlib.Data.List.FinRange
import Mathlib.Tactic.Abel
import RenderKernel.Geometry.Point
import RenderKernel.Proofs.Traversal

/-!
# Columns by their components

A column is determined by its components (`Column.ext_get`), and those of a sum, a difference or a
multiple are computed one by one, for columns and for the vectors and points that they make up.  A
column of computations yields a column of results if every computation has one, and otherwise the
fault of the first one that fails (`Column.sequence_eq_ok_iff`, `Column.sequence_eq_error_iff`).

The sum of the squares of the components is formed in orders of its own for two, three and four
components, and over eight lanes for other numbers of them.  Where addition is associative and
commutative, it is the sum from the first square on, and so the dot product of the column with itself
(`Column.normSquared_eq_dot`).
-/

universe u v w

namespace RenderKernel

variable {S : Type u} {T : Type v} {V : Type w} {n : Nat}

namespace Column

/-! ### Components -/

theorem ext_get {a b : Vector S n} (h : ∀ i, a.get i = b.get i) :
  a = b
  := by
  ext i hi
  apply h ⟨i, hi⟩

theorem toList_eq_map_get (a : Vector S n) :
  a.toList = (List.finRange n).map a.get
  := by
  rw [← List.ofFn_eq_map, ← Vector.toList_ofFn]
  congr 1
  apply ext_get
  intro i
  exact (Vector.getElem_ofFn _).symm

theorem get_map (f : S → T) (a : Vector S n) (i : Fin n) :
  (a.map f).get i = f (a.get i)
  := Vector.getElem_map _ _

theorem get_zipWith (f : S → T → V) (a : Vector S n) (b : Vector T n) (i : Fin n) :
  (a.zipWith f b).get i = f (a.get i) (b.get i)
  := Vector.getElem_zipWith _

theorem get_add [Add S] (a b : Vector S n) (i : Fin n) :
  (add a b).get i = a.get i + b.get i
  := get_zipWith _ a b i

theorem get_sub [Sub S] (a b : Vector S n) (i : Fin n) :
  (sub a b).get i = a.get i - b.get i
  := get_zipWith _ a b i

theorem get_neg [Neg S] (a : Vector S n) (i : Fin n) :
  (neg a).get i = -a.get i
  := get_map _ a i

theorem get_scale [Mul S] (a : Vector S n) (k : S) (i : Fin n) :
  (scale a k).get i = a.get i * k
  := get_map _ a i

theorem get_divide [Div S] (a : Vector S n) (k : S) (i : Fin n) :
  (divide a k).get i = a.get i / k
  := get_map _ a i

theorem get_replicate (x : S) (i : Fin n) :
  (Vector.replicate n x).get i = x
  := Vector.getElem_replicate _

/-- A dot product adds the products of the components in their order. -/
theorem dot_eq_foldl [Add S] [Mul S] [Zero S] (a b : Vector S n) :
  dot a b = (List.finRange n).foldl (fun sum i => sum + a.get i * b.get i) 0
  := by
  have hzip : a.zip b = Vector.ofFn fun i => (a.get i, b.get i) := by
    ext i hi
    all_goals
      rw [Vector.getElem_zip, Vector.getElem_ofFn]
      rfl
  rw [dot, hzip, ← Vector.foldl_toList, Vector.toList_ofFn, List.ofFn_eq_map, List.foldl_map]

/-! ### Computations -/

section Sequence

variable {S ε V : Type} {run : S → Except ε V} {c : Vector S n}

theorem toList_sequence (run : S → Except ε V) (c : Vector S n) :
  (sequence run c).map Vector.toList = c.toList.mapM run
  := by
  have harray : Vector.toArray <$> c.mapM run = c.toArray.mapM run := Vector.toArray_mapM
  have hlist : Array.toList <$> c.toArray.mapM run = c.toList.mapM run := Array.toList_mapM
  rw [← hlist, ← harray, sequence]
  cases c.mapM run with
  | ok d => rfl
  | error fault => rfl

/-- Computations yield the results that they yield one by one. -/
theorem sequence_eq_ok_iff {d : Vector V n} :
  sequence run c = .ok d ↔ ∀ i, run (c.get i) = .ok (d.get i)
  := by
  rw [← map_eq_ok_iff fun _ => Vector.toList_inj, toList_sequence, mapM_eq_ok_iff]
  rw [toList_eq_map_get, toList_eq_map_get, List.forall₂_map_left_iff, List.forall₂_map_right_iff,
    List.forall₂_same]
  exact ⟨fun h i => h i (List.mem_finRange i), fun h i _ => h i⟩

/-- Computations that cannot all be carried out have the fault of the first one that fails. -/
theorem sequence_eq_error_iff {fault : ε} :
  sequence run c = .error fault
    ↔ ∃ i, (∀ j < i, ∃ y, run (c.get j) = .ok y) ∧ run (c.get i) = .error fault
  := by
  rw [← map_eq_error_iff, toList_sequence, mapM_eq_error_iff]
  constructor
  · rintro ⟨i, hi, hbefore, hfault⟩
    rw [Vector.length_toList] at hi
    use ⟨i, hi⟩
    constructor
    · intro j hj
      apply hbefore j hj
    · apply hfault
  · rintro ⟨i, hbefore, hfault⟩
    use i, Vector.length_toList.symm ▸ i.isLt
    constructor
    · intro j hj
      apply hbefore ⟨j, hj.trans i.isLt⟩ hj
    · apply hfault

end Sequence

/-! ### The sum of squares -/

section Squares

/-- Adds the squares of some numbers to a sum, one after another. -/
def addSquares [Add S] [Mul S] (sum : S) (xs : List S) : S :=
  xs.foldl (fun sum x => sum + x * x) sum

/-- The sum of eight lanes, which are added in pairs first. -/
def pairedSum [Add S] [Zero S] (lanes : Vector S 8) : S :=
  (0 : S) + (lanes.get 0 + lanes.get 4) + (lanes.get 1 + lanes.get 5) + (lanes.get 2 + lanes.get 6)
    + (lanes.get 3 + lanes.get 7)

variable [Semiring S]

/-- A block of eight numbers adds their squares to the sum of the lanes. -/
theorem pairedSum_block (lanes xs : Vector S 8) :
  pairedSum (lanes.zipWith (fun lane x => lane + x * x) xs) = addSquares (pairedSum lanes) xs.toList
  := by
  have hfin : List.finRange 8 = [0, 1, 2, 3, 4, 5, 6, 7] := by decide
  rw [toList_eq_map_get, hfin]
  simp only [pairedSum, get_zipWith, addSquares, List.map_cons, List.map_nil, List.foldl_cons,
    List.foldl_nil]
  abel

/-- What the lanes hold and the numbers that are still to be added make up the same sum before and
after every block. -/
theorem addSquares_addLanes (lanes : Vector S 8) (xs : List S) :
  addSquares (pairedSum (addLanes lanes xs).1) (addLanes lanes xs).2 = addSquares (pairedSum lanes) xs
  := by
  induction lanes, xs using addLanes.induct with
  | case1 lanes x₀ x₁ x₂ x₃ x₄ x₅ x₆ x₇ rest ih =>
      rw [addLanes, ih, pairedSum_block]
      rfl
  | case2 lanes rest h =>
      rw [addLanes]
      exact h

theorem laneSum_eq_addSquares (xs : List S) :
  laneSum xs = addSquares 0 xs
  := by
  have hzero : pairedSum (Vector.replicate 8 (0 : S)) = 0 := by
    simp only [pairedSum, get_replicate, add_zero]
  calc
    laneSum xs
      = addSquares (pairedSum (addLanes (Vector.replicate 8 0) xs).1)
          (addLanes (Vector.replicate 8 0) xs).2 := rfl
    _ = addSquares (pairedSum (Vector.replicate 8 0)) xs := addSquares_addLanes _ xs
    _ = addSquares 0 xs := by rw [hzero]

theorem squareSum_eq_addSquares (xs : List S) :
  squareSum xs = addSquares 0 xs
  := by
  fun_cases squareSum xs with
  | case1 x y =>
      simp only [addSquares, List.foldl_cons, List.foldl_nil]
      abel
  | case2 x y z =>
      simp only [addSquares, List.foldl_cons, List.foldl_nil]
      abel
  | case3 x y z w =>
      simp only [addSquares, List.foldl_cons, List.foldl_nil]
      abel
  | case4 => apply laneSum_eq_addSquares

theorem normSquared_eq_dot (a : Vector S n) :
  normSquared a = dot a a
  := by
  rw [normSquared, squareSum_eq_addSquares, toList_eq_map_get, addSquares, List.foldl_map,
    dot_eq_foldl]

end Squares

end Column

/-! ### Vectors and points -/

namespace Vec

theorem ext_get {a b : Vec S n} (h : ∀ i, a.components.get i = b.components.get i) :
  a = b
  := by
  obtain ⟨c⟩ := a
  obtain ⟨d⟩ := b
  congr 1
  apply Column.ext_get h

theorem get_zeros [Zero S] (i : Fin n) :
  (Primitive.zeros : Vec S n).components.get i = 0
  := Column.get_replicate 0 i

theorem get_lift {S V : Type} [Computation S V] (a : Vec V n) (i : Fin n) :
  (a.lift (S := S)).components.get i = Computation.value (a.components.get i)
  := Column.get_map _ _ i

theorem get_add [Add S] (a b : Vec S n) (i : Fin n) :
  (a + b).components.get i = a.components.get i + b.components.get i
  := Column.get_add _ _ i

theorem get_sub [Sub S] (a b : Vec S n) (i : Fin n) :
  (a - b).components.get i = a.components.get i - b.components.get i
  := Column.get_sub _ _ i

theorem get_neg [Neg S] (a : Vec S n) (i : Fin n) :
  (-a).components.get i = -a.components.get i
  := Column.get_neg _ i

theorem get_scale [Mul S] (a : Vec S n) (k : S) (i : Fin n) :
  (a * k).components.get i = a.components.get i * k
  := Column.get_scale _ _ i

theorem get_divide [Div S] (a : Vec S n) (k : S) (i : Fin n) :
  (a / k).components.get i = a.components.get i / k
  := Column.get_divide _ _ i

end Vec

namespace Point

theorem ext_get {p q : Point S n} (h : ∀ i, p.components.get i = q.components.get i) :
  p = q
  := by
  obtain ⟨c⟩ := p
  obtain ⟨d⟩ := q
  congr 1
  apply Column.ext_get h

theorem get_lift {S V : Type} [Computation S V] (p : Point V n) (i : Fin n) :
  (p.lift (S := S)).components.get i = Computation.value (p.components.get i)
  := Column.get_map _ _ i

theorem get_sub [Sub S] (p q : Point S n) (i : Fin n) :
  (p - q : Vec S n).components.get i = p.components.get i - q.components.get i
  := Column.get_sub _ _ i

theorem get_add_vec [Add S] (p : Point S n) (a : Vec S n) (i : Fin n) :
  (p + a).components.get i = p.components.get i + a.components.get i
  := Column.get_add _ _ i

theorem get_sub_vec [Sub S] (p : Point S n) (a : Vec S n) (i : Fin n) :
  (p - a : Point S n).components.get i = p.components.get i - a.components.get i
  := Column.get_sub _ _ i

end Point

end RenderKernel
