import RenderKernel.Json.Value
import RenderKernel.Text.Quoted

/-!
# Writing JSON

Values in compact form: no blanks, members in the order of the object, strings with quotes,
backslashes and control characters escaped.
-/

namespace RenderKernel.Json

/-- A character inside a string. -/
def escapedChar (c : Char) : List Char :=
  match c with
  | '"' => ['\\', '"']
  | '\\' => ['\\', '\\']
  | '\x08' => ['\\', 'b']
  | '\x0c' => ['\\', 'f']
  | '\n' => ['\\', 'n']
  | '\r' => ['\\', 'r']
  | '\t' => ['\\', 't']
  | c =>
    if c.toNat < 0x20 then
      ['\\', 'u', '0', '0', Nat.digitChar (c.toNat / 16), Nat.digitChar (c.toNat % 16)]
    else
      [c]

/-- A string between quotes. -/
def stringText (s : String) : List Char := '"' :: s.toList.flatMap escapedChar ++ ['"']

/-- A number: integers by their digits, others as a coefficient with an exponent. -/
def Number.text (n : Number) : List Char :=
  let sign := if n.negative then ['-'] else []
  if n.integral then
    sign ++ Decimal.plain n.coefficient
  else
    sign ++ Decimal.plain n.coefficient ++ 'e' :: (toString n.exponent).toList

mutual

/-- The characters of a value. -/
def Value.text : Value → List Char
  | .null => ['n', 'u', 'l', 'l']
  | .boolean true => ['t', 'r', 'u', 'e']
  | .boolean false => ['f', 'a', 'l', 's', 'e']
  | .number n => n.text
  | .string s => stringText s
  | .array [] => ['[', ']']
  | .array (item :: items) => '[' :: item.text ++ itemsText items
  | .object [] => ['\x7b', '\x7d']
  | .object ((key, value) :: members) =>
    '\x7b' :: stringText key ++ ':' :: value.text ++ membersText members

/-- The items after the first one, and the closing bracket. -/
def itemsText : List Value → List Char
  | [] => [']']
  | item :: items => ',' :: item.text ++ itemsText items

/-- The members after the first one, and the closing brace. -/
def membersText : List (String × Value) → List Char
  | [] => ['\x7d']
  | (key, value) :: members => ',' :: stringText key ++ ':' :: value.text ++ membersText members

end

/-- A value in compact form. -/
def Value.write (v : Value) : String := String.ofList v.text

end RenderKernel.Json
