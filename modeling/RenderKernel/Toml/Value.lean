import RenderKernel.Number.Binary

/-!
# TOML values

The values of the configuration format.  The entries of a table are in the order in which
their keys were added.  A table knows its origin, since later lines of a document may extend
tables of some origins only.
-/

namespace RenderKernel.Toml

/-- How a table came about. -/
inductive Origin where
  /-- A header of its own opens it. -/
  | header
  /-- It lies on the way to a table with a header. -/
  | passage
  /-- It lies on the way to a key with dots. -/
  | dotted
  /-- It is written between braces. -/
  | inline
deriving DecidableEq, Repr

/-- A value of the configuration format. -/
inductive Value where
  | string (s : String)
  | integer (n : Int)
  | float (x : Binary .double)
  | boolean (b : Bool)
  /-- A date, a time of day, or both, as the document spells it. -/
  | moment (text : String)
  | array (items : List Value)
  | table (origin : Origin) (entries : List (String × Value))
  /-- Tables with one header, of which only the last can still be extended. -/
  | tables (closed : List (List (String × Value))) (last : List (String × Value))

/-- Whether a value is an array or a table that holds nothing. -/
def Value.isEmpty : Value → Bool
  | .array items => items.isEmpty
  | .table _ entries => entries.isEmpty
  | _ => false

/-- The entries of a table. -/
abbrev Entries := List (String × Value)

/-- A key with dots: the tables on the way, and the key in the last one. -/
structure Key where
  path : List String
  last : String
deriving DecidableEq, Repr

/-- A value under a key. -/
structure Assignment where
  key : Key
  value : Value

end RenderKernel.Toml
