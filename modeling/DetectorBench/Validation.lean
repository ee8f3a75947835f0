import DetectorBench.Metadata

/-!
# Validation of metadata

The rules a definition has to obey, in the order in which they are checked; the
first one violated is reported. The id, the name and the author are not blank;
the id and the author hold no control character and none of the reserved
characters; every support topic is complete; and the two filters are not both
declared. Metadata without a definition is not checked at all. A detector for
internal operators that lists support topics passes with a warning.
-/

namespace DetectorBench

/-- The fields of a definition that have to be usable as a file name. -/
inductive NameField where
  | id
  | author
  deriving DecidableEq, Repr

/-- What a message calls a field. -/
def NameField.title : NameField → String
  | id => "Id"
  | author => "Author"

/-- The first rule that metadata violates. -/
inductive Violation where
  | emptyId
  | emptyName
  | emptyAuthor
  | reservedCharacter (field : NameField) (value : String) (character : Char)
  | incompleteTopic (index : Nat)
  | conflictingFilters
  deriving DecidableEq, Repr

/-- The wording of a violation. -/
def Violation.message : Violation → String
  | emptyId => "Id cannot be empty in the Definition attribute"
  | emptyName => "Name cannot be empty in the Definition attribute"
  | emptyAuthor => "Author cannot be empty in the Definition attribute"
  | reservedCharacter field value character =>
    field.title ++ " '" ++ value ++ "' contains reserved character "
      ++ Text.quoteChar character
      ++ "; " ++ field.title ++ " must be usable as a file name"
  | incompleteTopic index =>
    "support topic #" ++ String.ofList (Text.digits index) ++
      " must have a non-empty Id and PesId"
  | conflictingFilters =>
    "a detector cannot declare both a ResourceFilter and a SystemFilter"

/-- What can be set about validation. -/
structure Rules where
  reserved : String
  warnInternalTopics : Bool
  deriving DecidableEq, Repr

namespace Rules

/-- The characters that cannot stand in a file name on common hosts. -/
def defaultReserved : String := "<>:\"/\\|?*"

/-- The rules in force unless something else is said. -/
def default : Rules :=
  ⟨defaultReserved, true⟩

/-- How rules are read and written. -/
def codec : Codec Rules :=
  Codec.map
    (Record.codec
      { name := "ValidationRules"
        strict := false
        fields :=
          .cons (.required "reserved_name_chars" .text)
            (.cons (.required "warn_internal_support_topics" .flag) .nil) })
    (fun (reserved, warn, ()) => ⟨reserved, warn⟩)
    (fun r => (r.reserved, r.warnInternalTopics, ()))

/-- Whether a character is refused in an id or an author; control characters
always are. -/
def refuses (r : Rules) (c : Char) : Bool :=
  Text.isControl c || r.reserved.toList.contains c

/-- The first refused character of a text. -/
def refused? (r : Rules) (s : String) : Option Char :=
  s.toList.find? r.refuses

end Rules

/-- The result of a validation that found no violation. -/
structure Verdict where
  ran : Bool
  warnings : List String
  deriving DecidableEq, Repr

/-- The warning about a detector for internal operators that lists support
topics. -/
def internalTopicsWarning : String :=
  "warning: detector is marked internal only "
    ++ "(ResourceFilter.internal_only = true) but declares "
    ++ "support topics, which are customer facing"

/-- Whether a support topic lacks its id or its second id. -/
def SupportTopic.isIncomplete (t : SupportTopic) : Bool :=
  Text.isBlank t.id || Text.isBlank t.pesId

/-- Checks the rules that concern the definition alone. -/
def Definition.check (d : Definition) (rules : Rules) : Except Violation Unit :=
  if Text.isBlank d.id then .error .emptyId
  else if Text.isBlank d.name then .error .emptyName
  else if Text.isBlank d.author then .error .emptyAuthor
  else
    match rules.refused? d.id with
    | some c => .error (.reservedCharacter .id d.id c)
    | none =>
      match rules.refused? d.author with
      | some c => .error (.reservedCharacter .author d.author c)
      | none =>
        match d.supportTopics.findIdx? SupportTopic.isIncomplete with
        | some index => .error (.incompleteTopic index)
        | none => .ok ()

namespace Metadata

/-- Whether the metadata is for internal operators and yet lists support
topics. -/
def exposesInternal (m : Metadata) : Bool :=
  m.hasSupportTopics && m.resourceFilter.any (·.internalOnly)

/-- Checks metadata against the rules. -/
def validate (m : Metadata) (rules : Rules) : Except Violation Verdict :=
  match m.definition with
  | none => .ok ⟨false, []⟩
  | some d =>
    match d.check rules with
    | .error v => .error v
    | .ok () =>
      if m.resourceFilter.isSome && m.systemFilter.isSome then
        .error .conflictingFilters
      else
        .ok ⟨true,
          if rules.warnInternalTopics && m.exposesInternal then
            [internalTopicsWarning] else []⟩

end Metadata

end DetectorBench
