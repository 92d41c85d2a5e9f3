import RenderKernel.Code.State
import RenderKernel.Text.Hexadecimal

/-!
# Code regions

A region is a piece of code in executable memory: its number, the address of its first
instruction, and the bytes that lie there.  A region that has been released is only a name.
The module also holds the reasons for which there may be no region (`Fault`).
-/

namespace RenderKernel.Code

/-- Machine code. -/
abbrev Bytes := List UInt8

/-- The number of a region; a memory numbers its regions in order, from zero on. -/
structure RegionId where
  index : Nat
deriving DecidableEq, Repr

/-- The number of a region, as inspection shows it. -/
def RegionId.full (id : RegionId) : String := "RegionId(" ++ toString id.index ++ ")"

/-- A piece of code in executable memory. -/
structure Region where
  id : RegionId
  /-- The address of the first instruction. -/
  entry : Nat
  /-- The bytes from the entry on. -/
  code : Bytes
deriving DecidableEq, Repr

namespace Region

/-- How many bytes a region has. -/
def length (r : Region) : Nat := r.code.length

/-- Whether a region has no bytes. -/
def isEmpty (r : Region) : Bool := r.length == 0

/-- A region, as inspection shows it. -/
def full (r : Region) : String :=
  "CodeRegion \x7b id: " ++ toString r.id.index ++ ", entry: 0x"
    ++ String.ofList (Text.hexadecimal r.entry) ++ ", len: " ++ toString r.length ++ " \x7d"

end Region

/-! ### Entries as functions -/

/-- The size of an address in bytes. -/
def addressSize : Nat := 8

/-- A function type of another size than an address. -/
structure SizeMismatch where
  size : Nat
deriving DecidableEq, Repr

/-- The text that reports a function type of another size. -/
def SizeMismatch.message (e : SizeMismatch) : String :=
  "assertion \x60left == right\x60 failed: as_fn target must be a function pointer\n  left: "
    ++ toString e.size ++ "\n right: " ++ toString addressSize

/-- The entry of a region as a function of a type with the given size. -/
def Region.asFunction (r : Region) (size : Nat) : Except SizeMismatch Nat :=
  if size = addressSize then .ok r.entry else .error ⟨size⟩

/-! ### Faults -/

/-- Why code cannot be emitted or the runtime not be used. -/
inductive Fault where
  /-- There is no code to emit. -/
  | emptyCode
  /-- As many regions are live as may be. -/
  | regionLimit (limit : Nat)
  /-- The runtime is in this state. -/
  | notReady (state : State)
  /-- The host gives no memory. -/
  | allocation (reason : String)
  /-- The host does not make the memory executable. -/
  | protection (reason : String)
  /-- There is no executable memory on the platform. -/
  | unsupportedPlatform
deriving DecidableEq, Repr

namespace Fault

/-- The text that reports a fault. -/
def message : Fault → String
  | .emptyCode => "Cannot emit an empty code buffer"
  | .regionLimit limit => "Live code region limit of " ++ toString limit ++ " reached"
  | .notReady state => "JIT runtime is not ready (state: " ++ state.text ++ ")"
  | .allocation reason => "Failed to allocate code memory: " ++ reason
  | .protection reason => "Failed to make code memory executable: " ++ reason
  | .unsupportedPlatform => "Executable memory is not supported on this platform"

/-- The reason that the host gave, for the faults that have one. -/
def reason? : Fault → Option String
  | .allocation reason => some reason
  | .protection reason => some reason
  | _ => none

end Fault

end RenderKernel.Code
