import DetectorBench.Record.Codec

/-!
# Records

A record is written as an object with its fields in order; a field may be left
out when its value says so. It is read from an object whose keys come in any
order, or from an array with one item per field, in order. What an absent field
means is the field's own affair: it has a default, or it is missing. Keys that
no field has are passed over, unless the record is strict.

The fields are a heterogeneous list. While an object is read, each field has a
slot that is empty until its key was met, so that a second occurrence is
noticed; `Fields` is indexed by the type of its slots and by the type of the
finished record, both nested pairs.
-/

namespace DetectorBench

open Json (Cause Fault Input Reader skipBlanks refuseFound refuseIn nextItem
  nextKey readColon)

/-- A field of a record: its key, its codec, what it is when absent, and when it
is not written. -/
structure Field (α : Type) where
  key : String
  codec : Codec α
  default : Option α
  hidden : α → Bool

namespace Field

/-- A field that must be present. -/
def required {α : Type} (key : String) (codec : Codec α) : Field α :=
  ⟨key, codec, none, fun _ => false⟩

/-- A field that has a value even when absent, and is always written. -/
def withDefault {α : Type} (key : String) (codec : Codec α) (default : α) :
    Field α :=
  ⟨key, codec, some default, fun _ => false⟩

/-- A field that may be absent or `null`, and is then not written. -/
def maybe {α : Type} (key : String) (codec : Codec α) : Field (Option α) :=
  ⟨key, codec.optional, some none, Option.isNone⟩

/-- A list that may be absent; an empty one is not written. -/
def listing {α : Type} (key : String) (codec : Codec α) : Field (List α) :=
  ⟨key, codec.list, some [], List.isEmpty⟩

end Field

/-- The fields of a record, with the type of their slots and the type of their
values. -/
inductive Fields : (slots values : Type) → Type 1 where
  | nil : Fields Unit Unit
  | cons {α σ τ : Type} (field : Field α) (rest : Fields σ τ) :
      Fields (Option α × σ) (α × τ)

namespace Fields

/-- The keys of the fields, in order. -/
def keys {σ τ : Type} : Fields σ τ → List String
  | nil => []
  | cons field rest => field.key :: rest.keys

/-- The empty slots. -/
def empty {σ τ : Type} : Fields σ τ → σ
  | nil => ()
  | cons _ rest => (none, rest.empty)

/-- Reads the value under a key into its slot; `none` if no field has the
key. -/
def readInto {σ τ : Type} :
    Fields σ τ → (key : String) → (depth : Nat) → σ → Input →
      Option (Except Fault (σ × Input))
  | nil, _, _, _, _ => none
  | cons field rest, key, depth, (slot, slots), input =>
    if key = field.key then
      match slot with
      | some _ => some (refuseIn '\x7d' input (.duplicateField field.key))
      | none => some do
        let input ← readColon input
        let (x, input) ← field.codec.read depth input
        return ((some x, slots), input)
    else
      (rest.readInto key depth slots input).map fun result => do
        let (slots, input) ← result
        return ((slot, slots), input)

/-- Decodes the value under a key into its slot; `none` if no field has the
key. -/
def decodeInto {σ τ : Type} :
    Fields σ τ → (key : String) → Json → σ → Option (Except Cause σ)
  | nil, _, _, _ => none
  | cons field rest, key, j, (slot, slots) =>
    if key = field.key then
      match slot with
      | some _ => some (.error (.duplicateField field.key))
      | none => some do return (some (← field.codec.decode j), slots)
    else (rest.decodeInto key j slots).map fun result => do return (slot, ← result)

/-- The record that the slots make up, absent fields taking their defaults. -/
def finish {σ τ : Type} : Fields σ τ → σ → Except Cause τ
  | nil, () => .ok ()
  | cons field rest, (slot, slots) => do
    match slot <|> field.default with
    | some x => return (x, ← rest.finish slots)
    | none => .error (.missingField field.key)

/-- Reads the fields from the items of an array. An array may end early if the
fields that are left have defaults; `shape` is what a message calls the record,
`index` the position of the first of these fields. What is left starts at the
closing bracket, or at a surplus item. -/
def readItems {σ τ : Type} (shape : String) (depth : Nat) :
    Fields σ τ → (first : Bool) → (index : Nat) → Reader τ
  | nil, _, _, input => .ok ((), input)
  | cons field rest, first, index, input => do
    let (more, input) ← nextItem first input
    if more then
      let (x, input) ← field.codec.read depth input
      let (xs, input) ← rest.readItems shape depth false (index + 1) input
      return ((x, xs), input)
    else
      match field.default with
      | some x =>
        let (xs, input) ← rest.readItems shape depth first (index + 1) input
        return ((x, xs), input)
      | none => refuseIn ']' input (.invalidLength index shape)

/-- Decodes the fields from the items of an array; the surplus items are
left. -/
def decodeItems {σ τ : Type} (shape : String) :
    Fields σ τ → (index : Nat) → List Json → Except Cause (τ × List Json)
  | nil, _, items => .ok ((), items)
  | cons field rest, index, j :: items => do
    let x ← field.codec.decode j
    let (xs, items) ← rest.decodeItems shape (index + 1) items
    return ((x, xs), items)
  | cons field rest, index, [] =>
    match field.default with
    | some x => do
      let (xs, items) ← rest.decodeItems shape (index + 1) []
      return ((x, xs), items)
    | none => .error (.invalidLength index shape)

/-- The members that a record is written as. -/
def encode {σ τ : Type} : Fields σ τ → τ → List (String × Json)
  | nil, () => []
  | cons field rest, (x, xs) =>
    if field.hidden x then rest.encode xs
    else (field.key, field.codec.encode x) :: rest.encode xs

end Fields

/-- A record: what a message calls it, whether unknown keys are refused, and its
fields. -/
structure Record (σ τ : Type) where
  name : String
  strict : Bool
  fields : Fields σ τ

namespace Record

variable {σ τ : Type}

/-- What a message says was expected. -/
def expected (r : Record σ τ) : String :=
  "struct " ++ r.name

/-- What a message says about the length of an array form. -/
def shape (r : Record σ τ) : String :=
  let n := r.fields.keys.length
  r.expected ++ " with " ++ String.ofList (Text.digits n) ++
    (if n = 1 then " element" else " elements")

/-- Reads the members of an object into the slots. The fuel bounds the number of
members. -/
def readMembersFrom (r : Record σ τ) (depth : Nat) :
    Nat → (first : Bool) → σ → Reader σ
  | 0, _, _, input => .error (.ahead input .endOfObject)
  | fuel + 1, first, slots, input => do
    match ← nextKey first input with
    | (none, input) => return (slots, input)
    | (some key, input) =>
      match r.fields.readInto key depth slots input with
      | some result =>
        let (slots, input) ← result
        r.readMembersFrom depth fuel false slots input
      | none =>
        if r.strict then refuseIn '\x7d' input (.unknownField key r.fields.keys)
        else
          let input ← readColon input
          let input ← Json.skipValue input
          r.readMembersFrom depth fuel false slots input

/-- Reads a record from either form. -/
def read (r : Record σ τ) (depth : Nat) : Reader τ := fun input =>
  match skipBlanks input with
  | [] => .error (.ahead [] .endOfValue)
  | .char '[' :: rest =>
    match depth with
    | 0 => .error (.ahead (.char '[' :: rest) .tooDeep)
    | depth + 1 => do
      let (x, rest) ← r.fields.readItems r.shape depth true 0 rest
      return (x, ← Json.endList rest)
  | .char '\x7b' :: rest =>
    match depth with
    | 0 => .error (.ahead (.char '\x7b' :: rest) .tooDeep)
    | depth + 1 => do
      let (slots, rest) ← r.readMembersFrom depth (rest.length + 1) true
        r.fields.empty rest
      match r.fields.finish slots with
      | .ok x => return (x, rest)
      | .error cause => .error (.here rest cause)
  | rest => refuseFound rest r.expected

/-- Decodes the members of an object into the slots. -/
def decodeMembers (r : Record σ τ) : List (String × Json) → σ → Except Cause σ
  | [], slots => .ok slots
  | (key, j) :: members, slots =>
    match r.fields.decodeInto key j slots with
    | some result => do
      let slots ← result
      r.decodeMembers members slots
    | none =>
      if r.strict then .error (.unknownField key r.fields.keys)
      else r.decodeMembers members slots

/-- What a message says about surplus items. -/
def itemsExpected (n : Nat) : String :=
  String.ofList (Text.digits n) ++
    (if n = 1 then " element" else " elements") ++ " in sequence"

/-- Decodes a record from either form. -/
def decode (r : Record σ τ) : Json → Except Cause τ
  | .array items => do
    match ← r.fields.decodeItems r.shape 0 items with
    | (x, []) => return x
    | (_, surplus) =>
      .error (.invalidLength items.length
        (itemsExpected (items.length - surplus.length)))
  | .object members => do
    r.fields.finish (← r.decodeMembers members r.fields.empty)
  | found => .error (.invalidType found r.expected)

/-- The codec of a record. -/
def codec (r : Record σ τ) : Codec τ where
  read := r.read
  decode := r.decode
  encode x := .object (r.fields.encode x)

end Record

end DetectorBench
