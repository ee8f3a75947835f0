import DetectorBench.Record.Codec

/-!
# Enumerations

A value of an enumeration is written as its name. It is also accepted as an
object whose only key is the name and whose value is `null`. The names stand in
a table, in the order in which a message lists them.
-/

namespace DetectorBench

open Json (Cause Fault Input Reader skipBlanks readString readColon refuseFound)

/-- The named values of an enumeration. -/
abbrev Choices (α : Type) := List (String × α)

namespace Choices

/-- The names, in the order of the table. -/
def names {α : Type} (table : Choices α) : List String :=
  table.map (·.1)

/-- The value with a name. -/
def find {α : Type} (table : Choices α) (name : String) : Except Cause α :=
  match table.lookup name with
  | some x => .ok x
  | none => .error (.unknownVariant name table.names)

/-- Reads a name. -/
def readName {α : Type} (table : Choices α) : Reader α := fun input =>
  match skipBlanks input with
  | [] => .error (.ahead [] .endOfValue)
  | .char '"' :: rest => do
    let (name, rest) ← readString rest
    match table.find name with
    | .ok x => .ok (x, rest)
    | .error cause => .error (.here rest cause)
  | rest => refuseFound rest "variant identifier"

/-- Reads the name that opens the object form. It must be a key at least. -/
def readKey {α : Type} (table : Choices α) : Reader α := fun input =>
  match skipBlanks input with
  | [] => .error (.ahead [] .endOfObject)
  | .char '"' :: rest => table.readName (.char '"' :: rest)
  | .char '\x7d' :: rest => .error (.ahead (.char '\x7d' :: rest) .expectedValue)
  | rest => .error (.ahead rest .keyNotString)

/-- Reads a value in either form. -/
def read {α : Type} (table : Choices α) (depth : Nat) : Reader α := fun input =>
  match skipBlanks input with
  | [] => .error (.ahead [] .endOfValue)
  | .char '"' :: rest => table.readName (.char '"' :: rest)
  | .char '\x7b' :: rest =>
    match depth with
    | 0 => .error (.ahead (.char '\x7b' :: rest) .tooDeep)
    | depth + 1 => do
      let (x, rest) ← table.readKey rest
      let rest ← readColon rest
      let ((), rest) ← Codec.unit.read depth rest
      match skipBlanks rest with
      | .char '\x7d' :: rest => .ok (x, rest)
      | [] => .error (.here [] .endOfObject)
      | rest => .error (.here rest .expectedValue)
  | rest => .error (.ahead rest .expectedValue)

/-- Decodes a value in either form. -/
def decode {α : Type} (table : Choices α) : Json → Except Cause α
  | .string name => table.find name
  | .object [(name, content)] => do
    let x ← table.find name
    let () ← Codec.unit.decode content
    return x
  | .object members =>
    .error (.invalidValue (.object members) "map with a single key")
  | found => .error (.invalidType found "string or map")

/-- The codec of an enumeration, given the name of each value. -/
def codec {α : Type} (table : Choices α) (name : α → String) : Codec α where
  read := table.read
  decode := table.decode
  encode x := .string (name x)

end Choices

end DetectorBench
