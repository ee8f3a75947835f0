import DetectorBench.Record.Choice

/-!
# Outputs

What an invocation comes to in the end: a value, or nothing. An output is
written as an object with its kind beside its value. The members may come in
either order; when the value comes first it is read as it is written and decoded
once the kind is known.
-/

namespace DetectorBench

open Json (Cause Fault Input Reader skipBlanks refuseFound refuseIn nextItem
  nextKey readColon)

/-- The result of an invocation. -/
inductive Output where
  | value (v : Json)
  | noValue
  deriving Repr

namespace Output

/-- The value, if there is one. -/
def value? : Output → Option Json
  | value v => some v
  | noValue => none

/-- Whether there is no value. -/
def isNoValue : Output → Bool
  | value _ => false
  | noValue => true

/-- The kinds of outputs. -/
inductive Kind where
  | value
  | noValue
  deriving DecidableEq, Repr

/-- The kinds by name. -/
def kinds : Choices Kind :=
  [("value", .value), ("no_value", .noValue)]

/-- The key of the kind. -/
def kindKey : String := "kind"

/-- The key of the value. -/
def valueKey : String := "value"

/-- What a message says was expected. -/
def expected : String := "adjacently tagged enum DetectorOutput"

/-- What a message says was expected beside the kind that has no value. -/
def nothingExpected : String := "unit variant DetectorOutput::NoValue"

/-- The value that an output is written as. -/
def encode : Output → Json
  | value v => .object [(kindKey, .string "value"), (valueKey, v)]
  | noValue => .object [(kindKey, .string "no_value")]

/-- Decodes what stands beside a kind. -/
def decodeContent (j : Json) : Kind → Except Cause Output
  | .value => .ok (value j.canonical)
  | .noValue =>
    match j with
    | .null => .ok noValue
    | found => .error (.invalidType found nothingExpected)

/-- Reads what stands beside a kind. The value beside the kind that has none
must be `null`; a bracketed form is refused as soon as it is open. -/
def readContent (depth : Nat) (kind : Kind) : Reader Output := fun input =>
  match kind with
  | .value => do
    let (v, rest) ← Json.readValue depth input
    return (value v, rest)
  | .noValue =>
    match skipBlanks input with
    | [] => .error (.ahead [] .endOfValue)
    | .char 'n' :: rest => do return (noValue, ← Json.readWord ['u', 'l', 'l'] rest)
    | .char '[' :: rest =>
      if depth = 0 then .error (.ahead (.char '[' :: rest) .tooDeep)
      else refuseIn ']' rest (.invalidType (.array []) nothingExpected)
    | .char '\x7b' :: rest =>
      if depth = 0 then .error (.ahead (.char '\x7b' :: rest) .tooDeep)
      else refuseIn '\x7d' rest (.invalidType (.object []) nothingExpected)
    | rest => refuseFound rest nothingExpected

/-- The keys that matter. -/
inductive Key where
  | kind
  | value
  deriving DecidableEq, Repr

/-- The name of a key. -/
def Key.name : Key → String
  | kind => kindKey
  | value => valueKey

/-- The next key that matters, others being passed over; `none` after the
closing brace. The fuel bounds the number of members. -/
def nextKeyFrom : Nat → (first : Bool) → Reader (Option Key)
  | 0, _, input => .error (.ahead input .endOfObject)
  | fuel + 1, first, input => do
    match ← nextKey first input with
    | (none, rest) => return (none, rest)
    | (some key, rest) =>
      if key = kindKey then return (some .kind, rest)
      else if key = valueKey then return (some .value, rest)
      else
        let rest ← readColon rest
        let rest ← Json.skipValue rest
        nextKeyFrom fuel false rest

/-- The next key that matters; every member takes a symbol. -/
def nextRelevantKey (first : Bool) : Reader (Option Key) := fun input =>
  nextKeyFrom (input.length + 1) first input

/-- Reads to the closing brace; neither key may come again. -/
def finishMembers (output : Output) : Reader Output := fun input => do
  match ← nextRelevantKey false input with
  | (none, rest) => return (output, rest)
  | (some key, rest) => refuseIn '\x7d' rest (.duplicateField key.name)

/-- Reads the members of an object. -/
def readMembers (depth : Nat) : Reader Output := fun input => do
  match ← nextRelevantKey true input with
  | (none, rest) => .error (.here rest (.missingField kindKey))
  | (some .kind, rest) =>
    let rest ← readColon rest
    let (kind, rest) ← kinds.read depth rest
    match ← nextRelevantKey false rest with
    | (none, rest) =>
      match kind with
      | .noValue => return (noValue, rest)
      | .value => .error (.here rest (.missingField valueKey))
    | (some .kind, rest) => refuseIn '\x7d' rest (.duplicateField kindKey)
    | (some .value, rest) =>
      let rest ← readColon rest
      let (output, rest) ← readContent depth kind rest
      finishMembers output rest
  | (some .value, rest) =>
    let rest ← readColon rest
    let (content, rest) ← Json.readWritten depth rest
    match ← nextRelevantKey false rest with
    | (none, rest) => .error (.here rest (.missingField kindKey))
    | (some .value, rest) => refuseIn '\x7d' rest (.duplicateField valueKey)
    | (some .kind, rest) =>
      let rest ← readColon rest
      let (kind, rest) ← kinds.read depth rest
      match decodeContent content kind with
      | .ok output => finishMembers output rest
      | .error cause => refuseIn '\x7d' rest cause

/-- Reads the items of an array: the kind, which is a plain name there, then the
value. -/
def readItems (depth : Nat) : Reader Output := fun input => do
  match ← nextItem true input with
  | (false, rest) => refuseIn ']' rest (.invalidLength 0 expected)
  | (true, rest) =>
    let (kind, rest) ← kinds.readName rest
    match ← nextItem false rest with
    | (false, rest) => refuseIn ']' rest (.invalidLength 1 expected)
    | (true, rest) =>
      let (output, rest) ← readContent depth kind rest
      return (output, ← Json.endList rest)

/-- Reads an output. -/
def read (depth : Nat) : Reader Output := fun input =>
  match skipBlanks input with
  | [] => .error (.ahead [] .endOfValue)
  | .char '[' :: rest =>
    match depth with
    | 0 => .error (.ahead (.char '[' :: rest) .tooDeep)
    | depth + 1 => readItems depth rest
  | .char '\x7b' :: rest =>
    match depth with
    | 0 => .error (.ahead (.char '\x7b' :: rest) .tooDeep)
    | depth + 1 => readMembers depth rest
  | rest => refuseFound rest expected

end Output

end DetectorBench
