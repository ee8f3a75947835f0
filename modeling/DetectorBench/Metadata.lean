import DetectorBench.Record.Fields

/-!
# Metadata

What a detector declares about itself: who it is (`Definition`), which support
topics it serves, and where it may run (`ResourceFilter`, `SystemFilter`).
`Metadata` holds what was found on one entry point; every part may be absent.
-/

namespace DetectorBench

/-- A link from a detector to an entry of the support taxonomy. -/
structure SupportTopic where
  id : String
  pesId : String
  deriving DecidableEq, Repr

namespace SupportTopic

/-- The fields of a support topic. -/
def record :
    Record (Option String × Option String × Unit) (String × String × Unit) where
  name := "SupportTopic"
  strict := false
  fields := .cons (.required "id" .text) (.cons (.required "pes_id" .text) .nil)

/-- How a support topic is read and written. -/
def codec : Codec SupportTopic :=
  record.codec.map (fun (id, pesId, ()) => ⟨id, pesId⟩)
    (fun t => (t.id, t.pesId, ()))

end SupportTopic

/-- Who a detector is. Its support topics are in the order of their
declaration. -/
structure Definition where
  id : String
  name : String
  author : String
  description : Option String
  category : Option String
  supportTopics : List SupportTopic
  deriving DecidableEq, Repr

namespace Definition

/-- How a definition is read and written. -/
def codec : Codec Definition :=
  Codec.map
    (Record.codec
      { name := "DefinitionMetadata"
        strict := false
        fields :=
          .cons (.required "id" .text) (.cons (.required "name" .text)
            (.cons (.required "author" .text) (.cons (.maybe "description" .text)
              (.cons (.maybe "category" .text)
                (.cons (.withDefault "support_topics" SupportTopic.codec.list
                  []) .nil))))) })
    (fun (id, name, author, description, category, topics, ()) =>
      ⟨id, name, author, description, category, topics⟩)
    (fun d => (d.id, d.name, d.author, d.description, d.category,
      d.supportTopics, ()))

/-- A definition with nothing but its names. -/
def named (id name author : String) : Definition :=
  ⟨id, name, author, none, none, []⟩

/-- A definition with one more support topic. -/
def addTopic (d : Definition) (topic : SupportTopic) : Definition :=
  { d with supportTopics := d.supportTopics ++ [topic] }

end Definition

/-- Restricts a detector to a class of customer resources, possibly to internal
operators. -/
structure ResourceFilter where
  resourceType : String
  internalOnly : Bool
  deriving DecidableEq, Repr

namespace ResourceFilter

/-- The filter that lets every resource pass. -/
def any : ResourceFilter :=
  ⟨"any", false⟩

/-- The filter that is for internal operators only. -/
def internal : ResourceFilter :=
  { any with internalOnly := true }

/-- How a resource filter is read and written. -/
def codec : Codec ResourceFilter :=
  Codec.map
    (Record.codec
      { name := "ResourceFilter"
        strict := false
        fields :=
          .cons (.withDefault "resource_type" .text any.resourceType)
            (.cons (.withDefault "internal_only" .flag any.internalOnly) .nil) })
    (fun (resourceType, internalOnly, ()) => ⟨resourceType, internalOnly⟩)
    (fun f => (f.resourceType, f.internalOnly, ()))

end ResourceFilter

/-- Marks a detector as one for the hosting system. -/
structure SystemFilter where
  deriving DecidableEq, Repr

/-- How a system filter is read and written. -/
def SystemFilter.codec : Codec SystemFilter :=
  Codec.map
    (Record.codec { name := "SystemFilter", strict := false, fields := .nil })
    (fun () => ⟨⟩) (fun _ => ())

/-- What an entry point declares. -/
structure Metadata where
  definition : Option Definition
  resourceFilter : Option ResourceFilter
  systemFilter : Option SystemFilter
  deriving DecidableEq, Repr

namespace Metadata

/-- The metadata of an entry point that declares nothing. -/
def empty : Metadata :=
  ⟨none, none, none⟩

/-- How metadata is read and written. -/
def codec : Codec Metadata :=
  Codec.map
    (Record.codec
      { name := "ExtractedMetadata"
        strict := false
        fields :=
          .cons (.maybe "definition" Definition.codec)
            (.cons (.maybe "resource_filter" ResourceFilter.codec)
              (.cons (.maybe "system_filter" SystemFilter.codec) .nil)) })
    (fun (definition, resourceFilter, systemFilter, ()) =>
      ⟨definition, resourceFilter, systemFilter⟩)
    (fun m => (m.definition, m.resourceFilter, m.systemFilter, ()))

/-- Whether the definition has a support topic. -/
def hasSupportTopics (m : Metadata) : Bool :=
  m.definition.any fun d => !d.supportTopics.isEmpty

end Metadata

end DetectorBench
