import DetectorBench.Failure
import DetectorBench.Metadata
import DetectorBench.Record.Choice

/-!
# Attributes

An entry point declares its metadata piece by piece, as a list of attributes.
`Metadata.ofAttributes` folds the list: support topics go to the definition,
wherever they stand, and each of the other kinds may be declared once.

An attribute is written as the record it carries, with the kind as a first
member among the fields. Since the kind may come last, the other members are
read as they are written and decoded afterwards; what is wrong with them then
has no place in the document.
-/

namespace DetectorBench

open Json (Cause Fault Input Reader skipBlanks refuseFound refuseIn nextItem
  nextKey readColon)

/-- One declaration on an entry point. -/
inductive Attribute where
  | definition (d : Definition)
  | supportTopic (t : SupportTopic)
  | resourceFilter (f : ResourceFilter)
  | systemFilter (f : SystemFilter)
  deriving DecidableEq, Repr

namespace Attribute

/-- The kinds of attributes. -/
inductive Kind where
  | definition
  | supportTopic
  | resourceFilter
  | systemFilter
  deriving DecidableEq, Repr

/-- The name under which a kind is written. -/
def Kind.tag : Kind → String
  | definition => "definition"
  | supportTopic => "support_topic"
  | resourceFilter => "resource_filter"
  | systemFilter => "system_filter"

/-- The name of a kind in messages. -/
def Kind.title : Kind → String
  | definition => "Definition"
  | supportTopic => "SupportTopic"
  | resourceFilter => "ResourceFilter"
  | systemFilter => "SystemFilter"

/-- The kinds by tag. -/
def kinds : Choices Kind :=
  [.definition, .supportTopic, .resourceFilter, .systemFilter].map fun k =>
    (k.tag, k)

/-- The kind of an attribute. -/
def kind : Attribute → Kind
  | definition _ => .definition
  | supportTopic _ => .supportTopic
  | resourceFilter _ => .resourceFilter
  | systemFilter _ => .systemFilter

/-- Decodes what an attribute of a kind carries. -/
def decodeContent (j : Json) : Kind → Except Cause Attribute
  | .definition => do return definition (← Definition.codec.decode j)
  | .supportTopic => do return supportTopic (← SupportTopic.codec.decode j)
  | .resourceFilter => do return resourceFilter (← ResourceFilter.codec.decode j)
  | .systemFilter => do return systemFilter (← SystemFilter.codec.decode j)

/-- What an attribute carries, as JSON. -/
def encodeContent : Attribute → Json
  | definition d => Definition.codec.encode d
  | supportTopic t => SupportTopic.codec.encode t
  | resourceFilter f => ResourceFilter.codec.encode f
  | systemFilter f => SystemFilter.codec.encode f

/-- The key of the kind. -/
def kindKey : String := "kind"

/-- The value that an attribute is written as. -/
def encode (a : Attribute) : Json :=
  let members :=
    match a.encodeContent with
    | .object members => members
    | _ => []
  .object ((kindKey, .string a.kind.tag) :: members)

/-- What a message says was expected. -/
def expected : String := "internally tagged enum Attribute"

/-- Reads the members of an object: the kind, and the others as they are
written. -/
def readMembersFrom (depth : Nat) :
    Nat → (first : Bool) → Option Kind → Reader (Option Kind × List (String × Json))
  | 0, _, _, input => .error (.ahead input .endOfObject)
  | fuel + 1, first, found, input => do
    match ← nextKey first input with
    | (none, input) => return ((found, []), input)
    | (some key, input) =>
      if key = kindKey then
        match found with
        | some _ => refuseIn '\x7d' input (.duplicateField kindKey)
        | none =>
          let input ← readColon input
          let (kind, input) ← kinds.readName input
          readMembersFrom depth fuel false (some kind) input
      else
        let input ← readColon input
        let (j, input) ← Json.readWritten depth input
        let ((found, members), input) ← readMembersFrom depth fuel false found input
        return ((found, (key, j) :: members), input)

/-- Reads the kind and what belongs to it. -/
def readTagged (depth : Nat) : Reader (Kind × Json) := fun input =>
  match skipBlanks input with
  | [] => .error (.ahead [] .endOfValue)
  | .char '[' :: rest =>
    match depth with
    | 0 => .error (.ahead (.char '[' :: rest) .tooDeep)
    | depth + 1 => do
      match ← nextItem true rest with
      | (false, rest) => refuseIn ']' rest (.missingField kindKey)
      | (true, rest) =>
        let (kind, rest) ← kinds.readName rest
        let (items, rest) ←
          Json.readItemsFrom (Json.readWritten depth) (rest.length + 1) false rest
        return ((kind, .array items), ← Json.endList rest)
  | .char '\x7b' :: rest =>
    match depth with
    | 0 => .error (.ahead (.char '\x7b' :: rest) .tooDeep)
    | depth + 1 => do
      match ← readMembersFrom depth (rest.length + 1) true none rest with
      | ((none, _), rest) => .error (.here rest (.missingField kindKey))
      | ((some kind, members), rest) => return ((kind, .object members), rest)
  | rest => refuseFound rest expected

/-- Reads an attribute. -/
def read (depth : Nat) : Reader Attribute := fun input => do
  let ((kind, content), rest) ← readTagged depth input
  match decodeContent content kind with
  | .ok a => return (a, rest)
  | .error cause => .error (.unplaced cause)

end Attribute

/-- Why no entry point could be had from an image. The unit may be at fault,
which its author has to mend, or the host. -/
inductive ResolveError where
  | compilation (message : String)
  | pipeline (failure : Failure)
  deriving DecidableEq, Repr

/-- A kind was declared a second time on an entry point. -/
def ResolveError.duplicate (entry : String) (kind : Attribute.Kind) :
    ResolveError :=
  .compilation
    ("entry point '" ++ entry ++ "' declares more than one " ++ kind.title ++
      " attribute")

namespace Metadata

/-- Folds attributes into metadata, in order, collecting the support topics
apart. The first attribute whose kind has been declared before is refused,
support topics excepted. -/
def gather (entry : String) :
    List Attribute → Metadata → List SupportTopic →
      Except ResolveError (Metadata × List SupportTopic)
  | [], m, topics => .ok (m, topics)
  | .definition d :: rest, m, topics =>
    if m.definition.isSome then .error (.duplicate entry .definition)
    else gather entry rest { m with definition := some d } topics
  | .supportTopic t :: rest, m, topics => gather entry rest m (topics ++ [t])
  | .resourceFilter f :: rest, m, topics =>
    if m.resourceFilter.isSome then .error (.duplicate entry .resourceFilter)
    else gather entry rest { m with resourceFilter := some f } topics
  | .systemFilter f :: rest, m, topics =>
    if m.systemFilter.isSome then .error (.duplicate entry .systemFilter)
    else gather entry rest { m with systemFilter := some f } topics

/-- The metadata that attributes declare on the entry point of a name. Support
topics follow those that the definition has itself; without a definition they
are dropped. -/
def ofAttributes (entry : String) (attributes : List Attribute) :
    Except ResolveError Metadata := do
  let (m, topics) ← gather entry attributes empty []
  return { m with
    definition :=
      m.definition.map fun d =>
        { d with supportTopics := d.supportTopics ++ topics } }

end Metadata

end DetectorBench
