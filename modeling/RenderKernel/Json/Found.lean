import RenderKernel.Document.Mismatch
import RenderKernel.Json.Value

/-!
# Values of JSON in messages

What a value of the data format is called when another one was expected, and the members of an
object in the order in which readers go through them: ascending by key, of several members
with one key the last.
-/

namespace RenderKernel.Json

open Document

/-- What a value is called. -/
def Value.found : Value → Found
  | .null => .null
  | .boolean b => .boolean b
  | .number n =>
    match n.asInteger? with
    | some i => .integer i
    | none => .floating n.toBinary
  | .string s => .string s
  | .array _ => .sequence
  | .object _ => .map

/-- Puts a member into its place among members with ascending keys; it takes the place of one
with the same key. -/
def insertMember (member : String × Value) : List (String × Value) → List (String × Value)
  | [] => [member]
  | first :: others =>
    if member.1 < first.1 then member :: first :: others
    else if member.1 = first.1 then member :: others
    else first :: insertMember member others

/-- Members by ascending keys. -/
def sortMembers (members : List (String × Value)) : List (String × Value) :=
  members.foldl (fun sorted member => insertMember member sorted) []

end RenderKernel.Json
