import RenderKernel.Text.Hexadecimal

/-!
# Strings of TOML

Strings stand between quotes on one line, or between tripled quotes on several lines.  Between
double quotes a backslash starts an escape; between single quotes it stands for itself.  Line
breaks are read as line feeds, and the first one after a tripled quote is dropped.
-/

namespace RenderKernel.Toml

open Text

/-- Whether a character may stand between the tokens of a line. -/
def isBlank (c : Char) : Bool := c == ' ' || c == '\t'

/-- The text after its blanks. -/
def skipBlanks (cs : List Char) : List Char := cs.dropWhile isBlank

/-- Whether a character is barred from strings and comments. -/
def isControl (c : Char) : Bool := (decide (c.toNat < 0x20) && c != '\t') || c.toNat == 0x7F

/-- The text after a line break, if it starts with one. -/
def afterBreak? : List Char → Option (List Char)
  | '\n' :: cs => some cs
  | '\r' :: '\n' :: cs => some cs
  | _ => none

/-- The text after its blanks and line breaks. -/
def skipBreaks : List Char → List Char
  | [] => []
  | '\r' :: '\n' :: cs => skipBreaks cs
  | c :: cs => if isBlank c || c == '\n' then skipBreaks cs else c :: cs

theorem length_skipBlanks_le (cs : List Char) :
  (skipBlanks cs).length ≤ cs.length
  := (List.dropWhile_sublist isBlank).length_le

theorem length_lt_of_afterBreak? {cs rest : List Char} (h : afterBreak? cs = some rest) :
  rest.length < cs.length
  := by
  unfold afterBreak? at h
  split at h
  · obtain rfl := Option.some.inj h
    simp only [List.length_cons]
    omega
  · obtain rfl := Option.some.inj h
    simp only [List.length_cons]
    omega
  · contradiction

theorem length_skipBreaks_le (cs : List Char) :
  (skipBreaks cs).length ≤ cs.length
  := by
  fun_induction skipBreaks cs with
  | case1 => exact Nat.le_refl _
  | case2 cs ih => exact Nat.le_trans ih (by simp only [List.length_cons]; omega)
  | case3 c cs _ _ ih => exact Nat.le_trans ih (Nat.le_succ _)
  | case4 c cs _ _ => exact Nat.le_refl _

/-- The character that an escape after the backslash stands for, and how many characters the
escape has from there on. -/
def readEscape : List Char → Option (Char × Nat)
  | [] => none
  | c :: cs =>
    match c with
    | '"' => some ('"', 1)
    | '\\' => some ('\\', 1)
    | 'b' => some ('\x08', 1)
    | 't' => some ('\t', 1)
    | 'n' => some ('\n', 1)
    | 'f' => some ('\x0c', 1)
    | 'r' => some ('\r', 1)
    | 'u' => ((hexNumber? 4 cs).bind scalar?).map fun d => (d, 5)
    | 'U' => ((hexNumber? 8 cs).bind scalar?).map fun d => (d, 9)
    | _ => none

/-- The rest of a string on one line, after its opening quote. -/
def readLineRest (quote : Char) : List Char → Option (List Char × List Char)
  | [] => none
  | c :: cs =>
    if c = quote then
      some ([], cs)
    else if c = '\\' ∧ quote = '"' then do
      let (d, used) ← readEscape cs
      let (ds, rest) ← readLineRest quote (cs.drop used)
      return (d :: ds, rest)
    else if isControl c then
      none
    else do
      let (ds, rest) ← readLineRest quote cs
      return (c :: ds, rest)
termination_by cs => cs.length
decreasing_by all_goals simp only [List.length_cons, List.length_drop]; omega

/-- The rest of a string on several lines, after its opening quotes.  Up to two quotes belong
to the string, also right before the three that close it.  A backslash at the end of a line
takes with it all blanks and line breaks that follow. -/
def readLinesRest (quote : Char) : List Char → Option (List Char × List Char)
  | [] => none
  | c :: cs =>
    if c = quote then
      let more := (cs.takeWhile (· == quote)).length
      if more < 2 then do
        let (ds, rest) ← readLinesRest quote (cs.drop more)
        return (List.replicate (more + 1) quote ++ ds, rest)
      else
        let closing := min more 4
        some (List.replicate (closing - 2) quote, cs.drop closing)
    else if c = '\\' ∧ quote = '"' then
      match _h : afterBreak? (skipBlanks cs) with
      | some below => readLinesRest quote (skipBreaks below)
      | none => do
        let (d, used) ← readEscape cs
        let (ds, rest) ← readLinesRest quote (cs.drop used)
        return (d :: ds, rest)
    else
      match _h : afterBreak? (c :: cs) with
      | some below => do
        let (ds, rest) ← readLinesRest quote below
        return ('\n' :: ds, rest)
      | none =>
        if isControl c then
          none
        else do
          let (ds, rest) ← readLinesRest quote cs
          return (c :: ds, rest)
termination_by cs => cs.length
decreasing_by
  all_goals simp only [List.length_cons, List.length_drop]
  · omega
  · have := length_lt_of_afterBreak? _h
    have := length_skipBlanks_le cs
    have := length_skipBreaks_le below
    omega
  · omega
  · have := length_lt_of_afterBreak? _h
    simpa using this
  · omega

/-- A string on one line, if the text starts with a quote. -/
def readLineString : List Char → Option (String × List Char)
  | '"' :: cs => (readLineRest '"' cs).map fun (ds, rest) => (String.ofList ds, rest)
  | '\'' :: cs => (readLineRest '\'' cs).map fun (ds, rest) => (String.ofList ds, rest)
  | _ => none

/-- A string of any form, if the text starts with a quote. -/
def readString : List Char → Option (String × List Char)
  | '"' :: '"' :: '"' :: cs =>
    (readLinesRest '"' ((afterBreak? cs).getD cs)).map fun (ds, rest) => (String.ofList ds, rest)
  | '\'' :: '\'' :: '\'' :: cs =>
    (readLinesRest '\'' ((afterBreak? cs).getD cs)).map fun (ds, rest) => (String.ofList ds, rest)
  | cs => readLineString cs

end RenderKernel.Toml
