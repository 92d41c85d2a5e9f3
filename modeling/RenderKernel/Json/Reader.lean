import RenderKernel.Json.Value
import RenderKernel.Text.Hexadecimal

/-!
# Reading JSON

Strict readers for the tokens and values of the data format.  A reader takes the characters
that are left of the document and gives what it read together with what is left after it, or
nothing if the document is not well formed there.
-/

namespace RenderKernel.Json

open Text

/-- Whether a character may stand between tokens. -/
def isBlank (c : Char) : Bool := c == ' ' || c == '\n' || c == '\t' || c == '\r'

/-- The document from its next token on. -/
def skipBlanks (cs : List Char) : List Char := cs.dropWhile isBlank

/-! ### Numbers -/

/-- The digits at the start of a text; there must be one. -/
def readDigits (cs : List Char) : Option (List Char × List Char) :=
  let ds := cs.takeWhile Char.isDigit
  if ds.isEmpty then none else some (ds, cs.dropWhile Char.isDigit)

/-- The digits before a point: a zero stands alone. -/
def readWhole (cs : List Char) : Option (List Char × List Char) := do
  let (ds, rest) ← readDigits cs
  if ds.head? = some '0' ∧ ds.length ≠ 1 then none else some (ds, rest)

/-- A point and the digits behind it, or nothing. -/
def readFraction : List Char → Option (List Char × List Char)
  | '.' :: cs => readDigits cs
  | cs => some ([], cs)

/-- A sign that may be missing, and digits. -/
def readSignedDigits : List Char → Option (Int × List Char)
  | '+' :: cs => do
    let (ds, rest) ← readDigits cs
    return (Decimal.ofDigits ds, rest)
  | '-' :: cs => do
    let (ds, rest) ← readDigits cs
    return (-(Decimal.ofDigits ds : Int), rest)
  | cs => do
    let (ds, rest) ← readDigits cs
    return (Decimal.ofDigits ds, rest)

/-- The exponent of a number, if it has one. -/
def readExponent : List Char → Option (Option Int × List Char)
  | 'e' :: cs => (readSignedDigits cs).map fun (e, rest) => (some e, rest)
  | 'E' :: cs => (readSignedDigits cs).map fun (e, rest) => (some e, rest)
  | cs => some (none, cs)

/-- Digits without the zeros that end them. -/
def withoutLastZeros (ds : List Char) : List Char := (ds.reverse.dropWhile (· == '0')).reverse

/-- A number without its sign. -/
def readUnsigned (negative : Bool) (cs : List Char) : Option (Number × List Char) := do
  let (whole, cs) ← readWhole cs
  let (fraction, cs) ← readFraction cs
  let (exponent, cs) ← readExponent cs
  let kept := withoutLastZeros fraction
  let literal : Decimal.Literal :=
    ⟨negative, Decimal.ofDigits (whole ++ kept), exponent.getD 0 - kept.length⟩
  return (⟨literal, fraction.isEmpty && exponent.isNone⟩, cs)

/-- A number at the start of a text. -/
def readNumber : List Char → Option (Number × List Char)
  | '-' :: cs => readUnsigned true cs
  | cs => readUnsigned false cs

/-! ### Strings -/

/-- The character that an escape after `\u` stands for, and how many characters the escape
has from there on.  A high surrogate needs the escape of a low one after it. -/
def readUnicodeEscape (cs : List Char) : Option (Char × Nat) := do
  let high ← hexNumber? 4 cs
  if 0xD800 ≤ high ∧ high < 0xDC00 then
    match cs.drop 4 with
    | '\\' :: 'u' :: cs => do
      let low ← hexNumber? 4 cs
      if 0xDC00 ≤ low ∧ low < 0xE000 then
        let c ← scalar? (0x10000 + (high - 0xD800) * 0x400 + (low - 0xDC00))
        return (c, 10)
      else
        none
    | _ => none
  else
    return (← scalar? high, 4)

/-- The character that an escape after the backslash stands for, and how many characters the
escape has from there on. -/
def readEscape : List Char → Option (Char × Nat)
  | [] => none
  | c :: cs =>
    match c with
    | '"' => some ('"', 1)
    | '\\' => some ('\\', 1)
    | '/' => some ('/', 1)
    | 'b' => some ('\x08', 1)
    | 'f' => some ('\x0c', 1)
    | 'n' => some ('\n', 1)
    | 'r' => some ('\r', 1)
    | 't' => some ('\t', 1)
    | 'u' => (readUnicodeEscape cs).map fun (c, used) => (c, used + 1)
    | _ => none

/-- The rest of a string after its opening quote; control characters must be escaped. -/
def readStringRest : List Char → Option (List Char × List Char)
  | [] => none
  | c :: cs =>
    if c = '"' then
      some ([], cs)
    else if c = '\\' then do
      let (d, used) ← readEscape cs
      let (ds, rest) ← readStringRest (cs.drop used)
      return (d :: ds, rest)
    else if c.toNat < 0x20 then
      none
    else do
      let (ds, rest) ← readStringRest cs
      return (c :: ds, rest)
termination_by cs => cs.length
decreasing_by all_goals simp only [List.length_cons, List.length_drop]; omega

/-- The rest of a string after its opening quote, as a string. -/
def readString (cs : List Char) : Option (String × List Char) :=
  (readStringRest cs).map fun (ds, rest) => (String.ofList ds, rest)

/-! ### Values -/

/-- The text after a word, if it starts with the word. -/
def expectWord (word : List Char) (cs : List Char) : Option (List Char) :=
  if word.isPrefixOf cs then some (cs.drop word.length) else none

mutual

/-- A value.  Each nesting level takes one unit of `depth`. -/
def readValueWithin (depth : Nat) (cs : List Char) : Option (Value × List Char) :=
  match depth with
  | 0 => none
  | depth + 1 =>
    match skipBlanks cs with
    | 'n' :: cs => (expectWord ['u', 'l', 'l'] cs).map fun rest => (.null, rest)
    | 't' :: cs => (expectWord ['r', 'u', 'e'] cs).map fun rest => (.boolean true, rest)
    | 'f' :: cs => (expectWord ['a', 'l', 's', 'e'] cs).map fun rest => (.boolean false, rest)
    | '"' :: cs => (readString cs).map fun (s, rest) => (.string s, rest)
    | '[' :: cs =>
      match skipBlanks cs with
      | ']' :: rest => some (.array [], rest)
      | cs => (readItemsWithin depth cs).map fun (items, rest) => (.array items, rest)
    | '\x7b' :: cs =>
      match skipBlanks cs with
      | '\x7d' :: rest => some (.object [], rest)
      | cs => (readMembersWithin depth cs).map fun (members, rest) => (.object members, rest)
    | cs => (readNumber cs).map fun (n, rest) => (.number n, rest)

/-- The items of an array that is not empty, up to its closing bracket.  Each item takes one
unit of `depth`. -/
def readItemsWithin (depth : Nat) (cs : List Char) : Option (List Value × List Char) :=
  match depth with
  | 0 => none
  | depth + 1 => do
    let (item, cs) ← readValueWithin depth cs
    match skipBlanks cs with
    | ',' :: cs => do
      let (items, rest) ← readItemsWithin depth cs
      return (item :: items, rest)
    | ']' :: rest => return ([item], rest)
    | _ => none

/-- The members of an object that is not empty, up to its closing brace.  Each member takes
one unit of `depth`. -/
def readMembersWithin (depth : Nat) (cs : List Char) :
    Option (List (String × Value) × List Char) :=
  match depth with
  | 0 => none
  | depth + 1 =>
    match skipBlanks cs with
    | '"' :: cs => do
      let (key, cs) ← readString cs
      match skipBlanks cs with
      | ':' :: cs => do
        let (value, cs) ← readValueWithin depth cs
        match skipBlanks cs with
        | ',' :: cs => do
          let (members, rest) ← readMembersWithin depth cs
          return ((key, value) :: members, rest)
        | '\x7d' :: rest => return ([(key, value)], rest)
        | _ => none
      | _ => none
    | _ => none

end

/-- The value of a whole document.  Every nesting level, item and member takes a character of
the document, so that the depth given is never used up. -/
def readDocument (text : String) : Option Value := do
  let cs := text.toList
  let (value, rest) ← readValueWithin (2 * cs.length + 2) cs
  if (skipBlanks rest).isEmpty then some value else none

end RenderKernel.Json
