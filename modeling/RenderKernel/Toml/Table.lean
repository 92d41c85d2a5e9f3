import RenderKernel.Toml.Value

/-!
# Tables of a document

A document is a list of assignments followed by sections, each with a header and assignments
of its own.  `Outline.root?` puts them together in document order.  Nothing is ever
overwritten: a key is given a value once, and a table is opened by a header once, though a
header may open a table that earlier headers only passed through.
-/

namespace RenderKernel.Toml

/-- The header of a section. -/
inductive Heading where
  /-- The section is a table. -/
  | table (key : Key)
  /-- The section is one more of the tables with this header. -/
  | item (key : Key)

/-- A header and the assignments below it. -/
structure Section where
  heading : Heading
  assignments : List Assignment

/-- The parts of a document. -/
structure Outline where
  top : List Assignment
  sections : List Section

namespace Entries

/-- The value of a key. -/
def get? (es : Entries) (key : String) : Option Value := List.lookup key es

/-- Changes the value of a key in its place. -/
def replace (es : Entries) (key : String) (v : Value) : Entries :=
  es.map fun e => if e.1 = key then (key, v) else e

/-- The entries with other keys. -/
def erase (es : Entries) (key : String) : Entries := es.filter (·.1 ≠ key)

/-- Adds a value under a key with dots.  Tables on the way are made as needed; those that
have a header or braces of their own are not entered.  The entry itself can only go into the
table that the assignment stands in or one that was made for a key with dots: `receptive`
says whether the entries given are of this sort. -/
def assignWithin (receptive : Bool) : List String → String → Value → Entries → Option Entries
  | [], key, v, es => if receptive && (get? es key).isNone then some (es ++ [(key, v)]) else none
  | step :: path, key, v, es =>
    match get? es step with
    | none =>
      (assignWithin true path key v []).map fun inner => es ++ [(step, .table .dotted inner)]
    | some (.table .dotted inner) =>
      (assignWithin true path key v inner).map fun inner => replace es step (.table .dotted inner)
    | some (.table .passage inner) =>
      (assignWithin false path key v inner).map fun inner =>
        replace es step (.table .passage inner)
    | some (.tables closed last) =>
      (assignWithin false path key v last).map fun last => replace es step (.tables closed last)
    | some _ => none

/-- Carries out an assignment that stands in this table. -/
def assign (es : Entries) (a : Assignment) : Option Entries :=
  assignWithin true a.key.path a.key.last a.value es

/-- Carries out assignments one after another. -/
def assignAll (es : Entries) (as : List Assignment) : Option Entries := as.foldlM assign es

/-- Changes the table at the end of a path of a header.  Tables on the way are made as needed,
and the last of several tables is entered; tables between braces are not. -/
def within (change : Entries → Option Entries) : List String → Entries → Option Entries
  | [], es => change es
  | step :: path, es =>
    match get? es step with
    | none => (within change path []).map fun inner => es ++ [(step, .table .passage inner)]
    | some (.table .inline _) => none
    | some (.table origin inner) =>
      (within change path inner).map fun inner => replace es step (.table origin inner)
    | some (.tables closed last) =>
      (within change path last).map fun last => replace es step (.tables closed last)
    | some _ => none

/-- Opens the table of a section and fills it.  A table that was only passed through so far
keeps its entries and moves to the end. -/
def openTable (key : String) (as : List Assignment) (es : Entries) : Option Entries :=
  match get? es key with
  | none => (assignAll [] as).map fun inner => es ++ [(key, .table .header inner)]
  | some (.table .passage inner) =>
    (assignAll inner as).map fun inner => erase es key ++ [(key, .table .header inner)]
  | some _ => none

/-- Adds the table of a section to those with its header, and fills it. -/
def openItem (key : String) (as : List Assignment) (es : Entries) : Option Entries :=
  match get? es key with
  | none => (assignAll [] as).map fun item => es ++ [(key, .tables [] item)]
  | some (.tables closed last) =>
    (assignAll [] as).map fun item => replace es key (.tables (closed ++ [last]) item)
  | some _ => none

/-- Adds a section to the outermost table. -/
def addSection (root : Entries) (s : Section) : Option Entries :=
  match s.heading with
  | .table key => within (openTable key.last s.assignments) key.path root
  | .item key => within (openItem key.last s.assignments) key.path root

end Entries

/-- The outermost table of a document, unless some part of it is given twice. -/
def Outline.root? (d : Outline) : Option Entries := do
  d.sections.foldlM Entries.addSection (← Entries.assignAll [] d.top)

end RenderKernel.Toml
