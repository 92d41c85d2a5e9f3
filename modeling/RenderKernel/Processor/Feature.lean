/-!
# Processor features

The instruction set extensions that code may rely on.  Features are ordered as `Feature.all`
lists them.  A document may spell some of them in a second way, without the point.
-/

namespace RenderKernel.Processor

/-- An instruction set extension. -/
inductive Feature where
  | sse2
  | sse3
  | ssse3
  | sse41
  | sse42
  | popcnt
  | avx
  | avx2
  | fma
  | f16c
  | bmi1
  | bmi2
  | avx512f
  | avx512vl
  | avx512bw
  | avx512dq
  | avx512cd
  | neon
deriving DecidableEq, Repr

namespace Feature

/-- Every feature, in ascending order. -/
def all : List Feature :=
  [.sse2, .sse3, .ssse3, .sse41, .sse42, .popcnt, .avx, .avx2, .fma, .f16c, .bmi1, .bmi2,
    .avx512f, .avx512vl, .avx512bw, .avx512dq, .avx512cd, .neon]

/-- How many features are smaller. -/
def rank (f : Feature) : Nat := f.ctorIdx

theorem rank_injective {f g : Feature} (h : f.rank = g.rank) :
  f = g
  := by
  cases f <;> cases g <;> first | rfl | exact absurd h (by decide)

instance : LT Feature := ⟨fun f g => f.rank < g.rank⟩

instance : LE Feature := ⟨fun f g => f.rank ≤ g.rank⟩

instance (f g : Feature) : Decidable (f < g) := inferInstanceAs (Decidable (f.rank < g.rank))

instance (f g : Feature) : Decidable (f ≤ g) := inferInstanceAs (Decidable (f.rank ≤ g.rank))

/-- The name of a feature. -/
def name : Feature → String
  | .sse2 => "sse2"
  | .sse3 => "sse3"
  | .ssse3 => "ssse3"
  | .sse41 => "sse4.1"
  | .sse42 => "sse4.2"
  | .popcnt => "popcnt"
  | .avx => "avx"
  | .avx2 => "avx2"
  | .fma => "fma"
  | .f16c => "f16c"
  | .bmi1 => "bmi1"
  | .bmi2 => "bmi2"
  | .avx512f => "avx512f"
  | .avx512vl => "avx512vl"
  | .avx512bw => "avx512bw"
  | .avx512dq => "avx512dq"
  | .avx512cd => "avx512cd"
  | .neon => "neon"

/-- The names under which documents may list a feature, its own name first. -/
def spellings : Feature → List String
  | .sse41 => ["sse4.1", "sse41"]
  | .sse42 => ["sse4.2", "sse42"]
  | f => [f.name]

/-- All spellings, in the order of the features. -/
def knownNames : List String := all.flatMap spellings

/-- The feature with this spelling. -/
def ofName? (s : String) : Option Feature := all.find? fun f => f.spellings.contains s

/-- The name as inspection shows it: with a capital and without the point. -/
def label (f : Feature) : String :=
  match f.name.toList.filter (· ≠ '.') with
  | [] => ""
  | c :: cs => String.ofList (c.toUpper :: cs)

/-- The features that every processor of the platform has, and that the library is built for. -/
def baseline : List Feature := [.sse2]

/-- Whether the library is built for a feature. -/
def isBaseline (f : Feature) : Bool := baseline.contains f

end Feature

end RenderKernel.Processor
