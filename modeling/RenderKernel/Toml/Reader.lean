import RenderKernel.Toml.Moment
import RenderKernel.Toml.Numeral
import RenderKernel.Toml.Quoted
import RenderKernel.Toml.Table

/-!
# Reading TOML

Strict readers for the lines and values of the configuration format.  A reader takes the
characters that are left of the document and gives what it read together with what is left
after it, or nothing if the document is not well formed there.  Keys have fewer than
`nestingLimit` parts, and values nest less deep than that.
-/

namespace RenderKernel.Toml

/-- The number of levels that neither keys nor values may reach. -/
def nestingLimit : Nat := 80

/-! ### Blanks and comments -/

/-- The end of a line: blanks, a comment, and a line break or the end of the document. -/
def afterLine? (cs : List Char) : Option (List Char) :=
  let cs := skipBlanks cs
  let cs := if cs.head? = some '#' then cs.dropWhile (!isControl ·) else cs
  if cs.isEmpty then some [] else afterBreak? cs

/-- The text after the blanks, line breaks and comments that may stand around the items of an
array.  `comment` tells whether a comment has begun. -/
def skipFiller (comment : Bool) : List Char → List Char
  | [] => []
  | '\n' :: cs => skipFiller false cs
  | '\r' :: '\n' :: cs => skipFiller false cs
  | c :: cs =>
    if comment then
      if isControl c then c :: cs else skipFiller true cs
    else if isBlank c then skipFiller false cs
    else if c = '#' then skipFiller true cs
    else c :: cs

/-! ### Keys -/

/-- Whether a character may stand in a key without quotes. -/
def isBare (c : Char) : Bool := c.isAlphanum || c == '_' || c == '-'

/-- A part of a key: a word without quotes, or a string on one line. -/
def readPart (cs : List Char) : Option (String × List Char) :=
  let ds := cs.takeWhile isBare
  if ds.isEmpty then readLineString cs else some (String.ofList ds, cs.dropWhile isBare)

/-- A key of at most `parts` parts, with the blanks around it. -/
def readKeyWithin : Nat → List Char → Option (Key × List Char)
  | 0, _ => none
  | parts + 1, cs => do
    let (part, cs) ← readPart (skipBlanks cs)
    match skipBlanks cs with
    | '.' :: cs => do
      let (key, rest) ← readKeyWithin parts cs
      return (⟨part :: key.path, key.last⟩, rest)
    | rest => return (⟨[], part⟩, rest)

/-- A key with the blanks around it. -/
def readKey (cs : List Char) : Option (Key × List Char) := readKeyWithin (nestingLimit - 1) cs

/-! ### Values -/

/-- A value that has no parts. -/
def readSimple (cs : List Char) : Option (Value × List Char) :=
  match cs with
  | 't' :: 'r' :: 'u' :: 'e' :: rest => some (.boolean true, rest)
  | 'f' :: 'a' :: 'l' :: 's' :: 'e' :: rest => some (.boolean false, rest)
  | cs =>
    match readString cs with
    | some (s, rest) => some (.string s, rest)
    | none =>
      match readMoment cs with
      | some (text, rest) => some (.moment text, rest)
      | none => readNumber cs

mutual

/-- A value that nests at most `levels` deep.  Each value takes one unit of `fuel`. -/
def readValueWithin (fuel levels : Nat) (cs : List Char) : Option (Value × List Char) :=
  match fuel with
  | 0 => none
  | fuel + 1 =>
    match cs, levels with
    | '[' :: cs, levels + 1 =>
      (readItemsWithin fuel levels cs).map fun (items, rest) => (.array items, rest)
    | '\x7b' :: cs, levels + 1 =>
      match skipBlanks cs with
      | '\x7d' :: rest => some (.table .inline [], rest)
      | cs => do
        let (as, rest) ← readAssignmentsWithin fuel levels cs
        let entries ← Entries.assignAll [] as
        return (.table .inline entries, rest)
    | cs, _ => readSimple cs

/-- The items of an array up to its closing bracket.  Each item takes one unit of `fuel`. -/
def readItemsWithin (fuel levels : Nat) (cs : List Char) : Option (List Value × List Char) :=
  match fuel with
  | 0 => none
  | fuel + 1 =>
    match skipFiller false cs with
    | ']' :: rest => some ([], rest)
    | cs => do
      let (item, cs) ← readValueWithin fuel levels cs
      match skipFiller false cs with
      | ',' :: cs => do
        let (items, rest) ← readItemsWithin fuel levels cs
        return (item :: items, rest)
      | ']' :: rest => return ([item], rest)
      | _ => none

/-- The assignments between braces, of which there is at least one, up to the closing brace.
Each assignment takes one unit of `fuel`. -/
def readAssignmentsWithin (fuel levels : Nat) (cs : List Char) :
    Option (List Assignment × List Char) :=
  match fuel with
  | 0 => none
  | fuel + 1 => do
    let (key, cs) ← readKey cs
    let (value, cs) ← readValueWithin fuel levels (skipBlanks (← after? '=' cs))
    match skipBlanks cs with
    | ',' :: cs => do
      let (as, rest) ← readAssignmentsWithin fuel levels cs
      return (⟨key, value⟩ :: as, rest)
    | '\x7d' :: rest => return ([⟨key, value⟩], rest)
    | _ => none

end

/-- A value.  Every value, item and assignment takes a character of the text, so that the fuel
given is never used up. -/
def readValue (cs : List Char) : Option (Value × List Char) :=
  readValueWithin (2 * cs.length + 2) (nestingLimit - 1) cs

/-! ### Documents -/

/-- A line of a document, values on several lines included. -/
inductive Line where
  | blank
  | assignment (a : Assignment)
  | heading (h : Heading)

/-- The header of a section. -/
def readHeading : List Char → Option (Heading × List Char)
  | '[' :: '[' :: cs => do
    let (key, cs) ← readKey cs
    return (.item key, ← after? ']' (← after? ']' cs))
  | '[' :: cs => do
    let (key, cs) ← readKey cs
    return (.table key, ← after? ']' cs)
  | _ => none

/-- A line, up to the start of the next one. -/
def readLine (cs : List Char) : Option (Line × List Char) := do
  let cs := skipBlanks cs
  match afterLine? cs with
  | some rest => return (.blank, rest)
  | none =>
    if cs.head? = some '[' then do
      let (heading, cs) ← readHeading cs
      return (.heading heading, ← afterLine? cs)
    else do
      let (key, cs) ← readKey cs
      let (value, cs) ← readValue (skipBlanks (← after? '=' cs))
      return (.assignment ⟨key, value⟩, ← afterLine? cs)

/-- At most `count` lines. -/
def readLinesWithin : Nat → List Char → Option (List Line)
  | _, [] => some []
  | 0, _ :: _ => none
  | count + 1, c :: cs => do
    let (line, rest) ← readLine (c :: cs)
    return line :: (← readLinesWithin count rest)

/-- The parts that lines make up: assignments belong to the header above them. -/
def Outline.ofLines (lines : List Line) : Outline :=
  lines.foldr addLine ⟨[], []⟩
where
  addLine : Line → Outline → Outline
    | .blank, d => d
    | .assignment a, d => { d with top := a :: d.top }
    | .heading h, d => ⟨[], ⟨h, d.top⟩ :: d.sections⟩

/-- The outermost table of a document.  A byte order mark at its start is skipped.  Every line
has a character, so that the count given is never used up. -/
def readDocument (text : String) : Option Entries := do
  let cs := match text.toList with
    | '\uFEFF' :: cs => cs
    | cs => cs
  (Outline.ofLines (← readLinesWithin cs.length cs)).root?

end RenderKernel.Toml
