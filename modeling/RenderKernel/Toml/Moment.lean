import RenderKernel.Decimal.Digits

/-!
# Dates and times of TOML

A moment is a date, a time of day, or a date with a time and possibly an offset.  Its fields
have fixed widths and must name a day of the calendar and a time of the day, a leap second
included.
-/

namespace RenderKernel.Toml

/-- A field of exactly `width` digits with a value from `least` to `greatest`. -/
def readField (width least greatest : Nat) (cs : List Char) : Option (Nat × List Char) :=
  let ds := cs.take width
  let n := Decimal.ofDigits ds
  if ds.length = width ∧ ds.all Char.isDigit ∧ least ≤ n ∧ n ≤ greatest then
    some (n, cs.drop width)
  else
    none

/-- The text after a character, if it starts with it. -/
def after? (c : Char) : List Char → Option (List Char)
  | [] => none
  | d :: cs => if d = c then some cs else none

/-- Whether February has 29 days. -/
def isLeapYear (year : Nat) : Bool :=
  year % 4 == 0 && (year % 100 != 0 || year % 400 == 0)

/-- How many days a month has. -/
def daysInMonth (year month : Nat) : Nat :=
  if month = 2 then if isLeapYear year then 29 else 28
  else if month = 4 ∨ month = 6 ∨ month = 9 ∨ month = 11 then 30
  else 31

/-- The text after a date. -/
def afterDate? (cs : List Char) : Option (List Char) := do
  let (year, cs) ← readField 4 0 9999 cs
  let (month, cs) ← readField 2 1 12 (← after? '-' cs)
  let (_, cs) ← readField 2 1 (daysInMonth year month) (← after? '-' cs)
  return cs

/-- The text after a point and digits, or all of it if there is no point. -/
def afterFraction? : List Char → Option (List Char)
  | '.' :: cs => if (cs.head?.map Char.isDigit).getD false then some (cs.dropWhile Char.isDigit)
    else none
  | cs => some cs

/-- The text after a time of day. -/
def afterTime? (cs : List Char) : Option (List Char) := do
  let (_, cs) ← readField 2 0 23 cs
  let (_, cs) ← readField 2 0 59 (← after? ':' cs)
  let (_, cs) ← readField 2 0 60 (← after? ':' cs)
  afterFraction? cs

/-- The text after the hours and minutes of an offset. -/
def afterHours? (cs : List Char) : Option (List Char) := do
  let (_, cs) ← readField 2 0 23 cs
  let (_, cs) ← readField 2 0 59 (← after? ':' cs)
  return cs

/-- The text after an offset, or all of it if there is no offset. -/
def afterOffset? : List Char → Option (List Char)
  | 'Z' :: cs => some cs
  | 'z' :: cs => some cs
  | '+' :: cs => afterHours? cs
  | '-' :: cs => afterHours? cs
  | cs => some cs

/-- The text after the time of a date, or all of it if no time follows. -/
def afterTimeOfDate? : List Char → Option (List Char)
  | 'T' :: cs => do afterOffset? (← afterTime? cs)
  | 't' :: cs => do afterOffset? (← afterTime? cs)
  | ' ' :: cs =>
    match cs with
    | d :: _ => if d.isDigit then do afterOffset? (← afterTime? cs) else some (' ' :: cs)
    | [] => some [' ']
  | cs => some cs

/-- The text after a moment. -/
def afterMoment? (cs : List Char) : Option (List Char) :=
  match afterDate? cs with
  | some cs => afterTimeOfDate? cs
  | none => afterTime? cs

/-- A moment at the start of a text, as it is spelled. -/
def readMoment (cs : List Char) : Option (String × List Char) :=
  (afterMoment? cs).map fun rest => (String.ofList (cs.take (cs.length - rest.length)), rest)

end RenderKernel.Toml
