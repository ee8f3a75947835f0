import DetectorBench.Json.Skip

/-!
# Reading JSON values

The readers of arrays and objects take the reader of their items, so that a
record can be read without building the value first. Brackets may be nested only
so deep: `depth` is the number of brackets that may still be opened, and every
reader of a bracketed form passes one less to what stands inside.

A reader of a bracketed form may refuse what it has read for reasons of its own
(a field is missing, say) after the text itself was fine so far. Such a refusal
is placed after the closing bracket if that is what comes next (`refuseIn`).
-/

namespace DetectorBench.Json

/-- The number of brackets that may be open at once. -/
def maxDepth : Nat := 127

/-- The value found where something else was expected. Brackets are not entered:
their kind is enough. -/
def readFound (input : Input) : Except Fault (Json × Input) :=
  match input with
  | .char 'n' :: rest => do return (.null, ← readWord ['u', 'l', 'l'] rest)
  | .char 't' :: rest => do return (.bool true, ← readWord ['r', 'u', 'e'] rest)
  | .char 'f' :: rest =>
    do return (.bool false, ← readWord ['a', 'l', 's', 'e'] rest)
  | .char '"' :: rest => do
    let (s, rest) ← readString rest
    return (.string s, rest)
  | .char '-' :: rest => do
    let (n, rest) ← readNumber true rest
    return (.number n, rest)
  | .char '[' :: _ => .ok (.array [], input)
  | .char '\x7b' :: _ => .ok (.object [], input)
  | [] => .error (.ahead [] .expectedValue)
  | s :: rest =>
    if s.digit?.isSome then do
      let (n, rest) ← readNumber false (s :: rest)
      return (.number n, rest)
    else .error (.ahead (s :: rest) .expectedValue)

/-- Refuses the value that comes next because something else was expected. -/
def refuseFound {α : Type} (input : Input) (expected : String) :
    Except Fault α := do
  let (found, rest) ← readFound input
  .error (.here rest (.invalidType found expected))

/-- What is left once a bracketed form is abandoned: its closing bracket is
taken along if it comes next. -/
def leaveBracket (close : Char) (input : Input) : Input :=
  match skipBlanks input with
  | .char c :: rest =>
    if c = close then rest
    else if c = ',' ∧ close = ']' then skipBlanks rest
    else .char c :: rest
  | rest => rest

/-- Refuses what stands inside a bracketed form. -/
def refuseIn {α : Type} (close : Char) (input : Input) (cause : Cause) :
    Except Fault α :=
  .error (.here (leaveBracket close input) cause)

/-- Takes the closing bracket of an array after its last item. -/
def endList (input : Input) : Except Fault Input :=
  match skipBlanks input with
  | .char ']' :: rest => .ok rest
  | .char ',' :: rest =>
    match skipBlanks rest with
    | .char ']' :: more => .error (.ahead (.char ']' :: more) .trailingComma)
    | more => .error (.ahead more .trailingCharacters)
  | [] => .error (.ahead [] .endOfList)
  | rest => .error (.ahead rest .trailingCharacters)

/-- Whether another item follows in an array. What is left starts at the item,
or at the closing bracket. -/
def nextItem (first : Bool) (input : Input) : Except Fault (Bool × Input) :=
  match skipBlanks input with
  | [] => .error (.ahead [] .endOfList)
  | .char ']' :: rest => .ok (false, .char ']' :: rest)
  | s :: rest =>
    if first then .ok (true, s :: rest)
    else if s = .char ',' then
      match skipBlanks rest with
      | .char ']' :: more => .error (.ahead (.char ']' :: more) .trailingComma)
      | [] => .error (.ahead [] .endOfValue)
      | more => .ok (true, more)
    else .error (.ahead (s :: rest) .expectedCommaOrBracket)

/-- The next key of an object, or `none` at its closing brace. What is left
starts after the key, or after the brace. -/
def nextKey (first : Bool) (input : Input) :
    Except Fault (Option String × Input) :=
  match skipBlanks input with
  | [] => .error (.ahead [] .endOfObject)
  | .char '\x7d' :: rest => .ok (none, rest)
  | s :: rest =>
    if first then
      if s = .char '"' then do
        let (key, rest) ← readString rest
        return (some key, rest)
      else .error (.ahead (s :: rest) .keyNotString)
    else if s = .char ',' then
      match skipBlanks rest with
      | .char '"' :: more => do
        let (key, more) ← readString more
        return (some key, more)
      | .char '\x7d' :: more => .error (.ahead (.char '\x7d' :: more) .trailingComma)
      | [] => .error (.ahead [] .endOfValue)
      | more => .error (.ahead more .keyNotString)
    else .error (.ahead (s :: rest) .expectedCommaOrBrace)

/-- Takes the colon after a key. -/
def readColon (input : Input) : Except Fault Input :=
  match skipBlanks input with
  | .char ':' :: rest => .ok rest
  | [] => .error (.ahead [] .endOfObject)
  | rest => .error (.ahead rest .expectedColon)

/-- The items of an array, each read by `item`. The fuel bounds the number of
items. -/
def readItemsFrom {α : Type} (item : Reader α) :
    Nat → (first : Bool) → Reader (List α)
  | 0, _, input => .error (.ahead input .endOfList)
  | fuel + 1, first, input => do
    let (more, input) ← nextItem first input
    if more then
      let (x, input) ← item input
      let (xs, input) ← readItemsFrom item fuel false input
      return (x :: xs, input)
    else return ([], input)

/-- The items of an array, up to its closing bracket, which is left; every item
takes a symbol. -/
def readItems {α : Type} (item : Reader α) : Reader (List α) := fun input =>
  readItemsFrom item (input.length + 1) true input

/-- The members of an object, each value read by `value`. The fuel bounds the
number of members. -/
def readMembersFrom {α : Type} (value : Reader α) :
    Nat → (first : Bool) → Reader (List (String × α))
  | 0, _, input => .error (.ahead input .endOfObject)
  | fuel + 1, first, input => do
    match ← nextKey first input with
    | (none, input) => return ([], input)
    | (some key, input) =>
      let input ← readColon input
      let (x, input) ← value input
      let (xs, input) ← readMembersFrom value fuel false input
      return ((key, x) :: xs, input)

/-- The members of an object, with its closing brace; every member takes a
symbol. -/
def readMembers {α : Type} (value : Reader α) :
    Reader (List (String × α)) := fun input =>
  readMembersFrom value (input.length + 1) true input

/-- A value as it is written: the members of objects in their order, repeated
keys kept. -/
def readWritten : (depth : Nat) → Reader Json
  | depth, input =>
    match skipBlanks input with
    | [] => .error (.ahead [] .endOfValue)
    | .char '[' :: rest =>
      match depth with
      | 0 => .error (.ahead (.char '[' :: rest) .tooDeep)
      | depth + 1 => do
        let (items, rest) ← readItems (readWritten depth) rest
        return (.array items, ← endList rest)
    | .char '\x7b' :: rest =>
      match depth with
      | 0 => .error (.ahead (.char '\x7b' :: rest) .tooDeep)
      | depth + 1 => do
        let (members, rest) ← readMembers (readWritten depth) rest
        return (.object members, rest)
    | s :: rest => readFound (s :: rest)

/-- A value to compute with. -/
def readValue (depth : Nat) : Reader Json := fun input => do
  let (j, rest) ← readWritten depth input
  return (j.canonical, rest)

/-- A whole document read by `reader`: only blanks may follow. -/
def readDocument {α : Type} (reader : Reader α) (document : Input) :
    Except Fault α := do
  let (x, rest) ← reader document
  match skipBlanks rest with
  | [] => return x
  | rest => .error (.ahead rest .trailingCharacters)

/-- The value of a text. -/
def parse (text : String) : Except Fault Json :=
  readDocument (readValue maxDepth) (symbolsOfText text)

end DetectorBench.Json
