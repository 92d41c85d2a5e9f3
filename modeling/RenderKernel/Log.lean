/-!
# Log records

A `Logged α` is a value together with the log records that were made on the way to it, in
order.  Computations are chained by `bind`, which appends the records of the second one.
-/

namespace RenderKernel

universe u v

/-- The weight of a log record. -/
inductive LogLevel where
  | trace
  | debug
  | info
  | warn
  | error
deriving DecidableEq, Repr

/-- The name of a level. -/
def LogLevel.name : LogLevel → String
  | .trace => "TRACE"
  | .debug => "DEBUG"
  | .info => "INFO"
  | .warn => "WARN"
  | .error => "ERROR"

/-- A log record. -/
structure LogRecord where
  level : LogLevel
  text : String
deriving DecidableEq, Repr

/-- The line of a record: its level and its text. -/
def LogRecord.line (r : LogRecord) : String := r.level.name ++ " " ++ r.text

/-- A value and the records made on the way to it. -/
structure Logged (α : Type u) where
  value : α
  records : List LogRecord

namespace Logged

/-- Makes a record. -/
def log (level : LogLevel) (text : String) : Logged Unit := ⟨(), [⟨level, text⟩]⟩

/-- Makes several records. -/
def logAll (records : List LogRecord) : Logged Unit := ⟨(), records⟩

/-- Continues with a value; the records of the continuation come after those made before. -/
def andThen {α : Type u} {β : Type v} (a : Logged α) (k : α → Logged β) : Logged β :=
  let b := k a.value
  ⟨b.value, a.records ++ b.records⟩

instance : Monad Logged where
  pure x := ⟨x, []⟩
  bind := andThen

@[simp]
theorem value_pure {α : Type u} (a : α) :
  (pure a : Logged α).value = a
  := rfl

@[simp]
theorem value_bind {α β : Type u} (a : Logged α) (k : α → Logged β) :
  (a >>= k).value = (k a.value).value
  := rfl

@[simp]
theorem records_pure {α : Type u} (a : α) :
  (pure a : Logged α).records = []
  := rfl

@[simp]
theorem records_bind {α β : Type u} (a : Logged α) (k : α → Logged β) :
  (a >>= k).records = a.records ++ (k a.value).records
  := rfl

end Logged

end RenderKernel
