import RenderKernel.Text.Hexadecimal
import RenderKernel.Text.Unprintable

/-!
# Quoted text

A text between double quotes, as messages show it: the quote and the backslash behind a
backslash, tab, line feed, carriage return and the null character by their letters, every
other character that cannot be shown by its code in hexadecimal, all else as it is.
-/

namespace RenderKernel.Text

/-- A character as a quoted text shows it. -/
def quotedChar (c : Char) : List Char :=
  match c with
  | '"' => ['\\', '"']
  | '\\' => ['\\', '\\']
  | '\t' => ['\\', 't']
  | '\n' => ['\\', 'n']
  | '\r' => ['\\', 'r']
  | '\x00' => ['\\', '0']
  | c =>
    if isUnprintable c then
      ['\\', 'u', '\x7b'] ++ hexadecimal c.toNat ++ ['\x7d']
    else
      [c]

/-- A text between double quotes. -/
def quoted (s : String) : String :=
  String.ofList ('"' :: s.toList.flatMap quotedChar ++ ['"'])

end RenderKernel.Text
