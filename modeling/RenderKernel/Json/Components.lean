import RenderKernel.Json.Scalar

/-!
# Lists of components in JSON

A list of a fixed number of components is written as one flat array.  Reading takes an array
of exactly that many numbers: one too few and the array's end, one too many and the number
itself, is a mismatch of length.
-/

namespace RenderKernel.Json

open Document

variable {V : Type} [Scalar V]

/-- The items behind the first one, and the closing bracket. -/
def componentsRest : List V → List Char
  | [] => [']']
  | x :: xs => ',' :: Scalar.text x ++ componentsRest xs

/-- The array of some components. -/
def componentsText : List V → List Char
  | [] => ['[', ']']
  | x :: xs => '[' :: Scalar.text x ++ componentsRest xs

/-- What follows the `count` components read so far, when `missing` more are wanted. -/
def readComponentsRest (missing count : Nat) (cs : List Char) :
    Except ReadFault (List V × List Char) :=
  match skipBlanks cs with
  | ']' :: rest =>
    if missing = 0 then .ok ([], rest) else .error (.mismatch (.length count .components))
  | ',' :: cs =>
    if (skipBlanks cs).head? = some ']' then
      .error .malformed
    else do
      let (x, cs) ← readScalar cs
      match missing with
      | 0 => .error (.mismatch (.length count .components))
      | missing + 1 => do
        let (xs, rest) ← readComponentsRest missing (count + 1) cs
        return (x :: xs, rest)
  | _ => .error .malformed

/-- The array of `n` components at the start of a text. -/
def readComponents (n : Nat) (cs : List Char) : Except ReadFault (List V × List Char) :=
  match skipBlanks cs with
  | [] => .error .malformed
  | '[' :: cs =>
    match skipBlanks cs with
    | ']' :: rest =>
      if n = 0 then .ok ([], rest) else .error (.mismatch (.length 0 .components))
    | _ => do
      let (x, cs) ← readScalar cs
      match n with
      | 0 => .error (.mismatch (.length 0 .components))
      | n + 1 => do
        let (xs, rest) ← readComponentsRest n 1 cs
        return (x :: xs, rest)
  | cs => unexpected .components cs

/-- The `n` components of a whole document. -/
def componentsOfText (n : Nat) (text : String) : Except ReadFault (List V) := do
  let (xs, rest) ← readComponents n text.toList
  if (skipBlanks rest).isEmpty then return xs else throw .malformed

end RenderKernel.Json
