import DetectorBench.Json.Reader

/-!
# Codecs

A codec says how a type is written as JSON and how it is read back. Reading
comes in two forms that must agree on what they accept: `read` works on a
document and faults at the first thing wrong in it, `decode` works on a value
that has been read already. `encode` gives the value that is written.

The codecs of this module are the leaves and the plain combinators; records and
enumerations have modules of their own.
-/

namespace DetectorBench

open Json (Cause Fault Input Reader skipBlanks readString readNumber readWord
  refuseFound)

/-- How values of a type are read and written. The first argument of `read` is
the number of brackets that may still be opened. -/
structure Codec (α : Type) where
  read : Nat → Reader α
  decode : Json → Except Cause α
  encode : α → Json

namespace Codec

/-- A text; `expected` is what a message calls it. -/
def textAs (expected : String) : Codec String where
  read _ input :=
    match skipBlanks input with
    | [] => .error (.ahead [] .endOfValue)
    | .char '"' :: rest => readString rest
    | rest => refuseFound rest expected
  decode
    | .string s => .ok s
    | found => .error (.invalidType found expected)
  encode := .string

/-- A text. -/
def text : Codec String :=
  textAs "a string"

/-- A truth value. -/
def flag : Codec Bool where
  read _ input :=
    match skipBlanks input with
    | [] => .error (.ahead [] .endOfValue)
    | .char 't' :: rest => do return (true, ← readWord ['r', 'u', 'e'] rest)
    | .char 'f' :: rest => do return (false, ← readWord ['a', 'l', 's', 'e'] rest)
    | rest => refuseFound rest "a boolean"
  decode
    | .bool b => .ok b
    | found => .error (.invalidType found "a boolean")
  encode := .bool

/-- A number as a count: an integer that is not negative. -/
def countOf : Number → Except Cause Nat
  | .int (.ofNat n) => .ok n
  | .int (.negSucc n) => .error (.invalidValue (.number (.int (.negSucc n))) "usize")
  | .real x => .error (.invalidType (.number (.real x)) "usize")

/-- A count, of at most 64 bits. -/
def count : Codec Nat where
  read _ input :=
    let ofNumber : Number × Input → Except Fault (Nat × Input) := fun (n, rest) =>
      match countOf n with
      | .ok k => .ok (k, rest)
      | .error cause => .error (.here rest cause)
    match skipBlanks input with
    | [] => .error (.ahead [] .endOfValue)
    | .char '-' :: rest => do ofNumber (← readNumber true rest)
    | s :: rest =>
      if s.digit?.isSome then do ofNumber (← readNumber false (s :: rest))
      else refuseFound (s :: rest) "usize"
  decode
    | .number n => countOf n
    | found => .error (.invalidType found "usize")
  encode := Json.ofNat

/-- Nothing, written `null`. -/
def unit : Codec Unit where
  read _ input :=
    match skipBlanks input with
    | [] => .error (.ahead [] .endOfValue)
    | .char 'n' :: rest => do return ((), ← readWord ['u', 'l', 'l'] rest)
    | rest => refuseFound rest "unit"
  decode
    | .null => .ok ()
    | found => .error (.invalidType found "unit")
  encode _ := .null

/-- Any value. -/
def value : Codec Json where
  read := Json.readValue
  decode j := .ok j.canonical
  encode := id

/-- A value that may be absent, which is written `null`. -/
def optional {α : Type} (c : Codec α) : Codec (Option α) where
  read depth input :=
    match skipBlanks input with
    | .char 'n' :: rest => do return (none, ← readWord ['u', 'l', 'l'] rest)
    | rest => do
      let (x, rest) ← c.read depth rest
      return (some x, rest)
  decode
    | .null => .ok none
    | j => do return some (← c.decode j)
  encode
    | none => .null
    | some x => c.encode x

/-- A list. -/
def list {α : Type} (c : Codec α) : Codec (List α) where
  read depth input :=
    match skipBlanks input with
    | [] => .error (.ahead [] .endOfValue)
    | .char '[' :: rest =>
      match depth with
      | 0 => .error (.ahead (.char '[' :: rest) .tooDeep)
      | depth + 1 => do
        let (xs, rest) ← Json.readItems (c.read depth) rest
        return (xs, ← Json.endList rest)
    | rest => refuseFound rest "a sequence"
  decode
    | .array items => items.mapM c.decode
    | found => .error (.invalidType found "a sequence")
  encode xs := .array (xs.map c.encode)

/-- A codec for a type that is another one in a different shape. -/
def map {α β : Type} (c : Codec α) (wrap : α → β) (unwrap : β → α) :
    Codec β where
  read depth input := do
    let (x, rest) ← c.read depth input
    return (wrap x, rest)
  decode j := do return wrap (← c.decode j)
  encode y := c.encode (unwrap y)

/-- Reads a whole document. -/
def readDocument {α : Type} (c : Codec α) (document : Input) : Except Fault α :=
  Json.readDocument (c.read Json.maxDepth) document

/-- The compact text of a value. -/
def compact {α : Type} (c : Codec α) (x : α) : String :=
  (c.encode x).compact

/-- The text of a value over several lines. -/
def pretty {α : Type} (c : Codec α) (x : α) : String :=
  (c.encode x).pretty

end Codec

end DetectorBench
