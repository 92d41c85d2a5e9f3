import RenderKernel.Code.Region
import RenderKernel.Log

/-!
# Executable memory

Every region has a mapping of its own, which begins at a page and is a whole number of pages
long.  The memory keeps the live regions and numbers new ones; whether the host provides a
mapping is not its own doing, and is given to it for each emission as a `Placement`.

The number of the next region is a natural number here, which never wraps around.  Where it is counted
in 64 bits, this describes every history with fewer than `2 ^ 64` successful emissions, after which
numbers would be given a second time.
-/

namespace RenderKernel.Code

/-- The size of a page in bytes. -/
def pageSize : UInt64 := 4096

/-- How many bytes are mapped for code of a length: the length rounded up to a multiple of the
page size, a power of two, by clearing the bits below it. -/
def reservation (page length : UInt64) : UInt64 := (length + page - 1) &&& ~~~(page - 1)

/-- What the host answers when memory is asked for. -/
inductive Placement where
  /-- The code lies at the start of the page with this number, and can be run. -/
  | granted (page : Nat)
  /-- There is no memory. -/
  | unavailable (reason : String)
  /-- The memory cannot be made executable. -/
  | unprotectable (reason : String)
deriving DecidableEq, Repr

/-- The live regions of an executable memory, the newest first, and the number of the next
one. -/
structure Memory where
  live : List (RegionId × Bytes) := []
  next : Nat := 0
deriving DecidableEq, Repr

namespace Memory

/-- The record of a new mapping. -/
def mappedRecord (length : Nat) : LogRecord :=
  ⟨.trace, "mapped " ++ toString length ++ " bytes of code at ADDR ("
    ++ toString (reservation pageSize (.ofNat length)).toNat ++ " bytes reserved)"⟩

/-- Makes a region of some code.  A failure leaves the memory as it is. -/
def emit (m : Memory) (p : Placement) (code : Bytes) : Logged (Except Fault Region × Memory) :=
  if code.isEmpty then
    ⟨(.error .emptyCode, m), []⟩
  else
    match p with
    | .granted page =>
      let id : RegionId := ⟨m.next⟩
      ⟨(.ok ⟨id, page * pageSize.toNat, code⟩, ⟨(id, code) :: m.live, m.next + 1⟩),
        [mappedRecord code.length]⟩
    | .unavailable reason => ⟨(.error (.allocation reason), m), []⟩
    | .unprotectable reason => ⟨(.error (.protection reason), m), []⟩

/-- Whether a region is live. -/
def isLive (m : Memory) (id : RegionId) : Bool := m.live.any (·.1 = id)

/-- Releases a region, and tells whether it was live. -/
def release (m : Memory) (id : RegionId) : Bool × Memory :=
  (m.isLive id, { m with live := m.live.filter (·.1 ≠ id) })

/-- Releases every region, and tells how many there were. -/
def releaseAll (m : Memory) : Nat × Memory := (m.live.length, { m with live := [] })

/-- How many regions are live. -/
def liveRegions (m : Memory) : Nat := m.live.length

/-- How many bytes the live regions have. -/
def liveBytes (m : Memory) : Nat := m.live.foldl (fun sum region => sum + region.2.length) 0

end Memory

end RenderKernel.Code
