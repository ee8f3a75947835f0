import DetectorBench.Attribute
import DetectorBench.Diagnostic
import DetectorBench.EntryPoint

/-!
# Manifests

A detector's source: the entry point and the routine it is bound to, what the
detector declares about itself, and the references and imports it wants to use.
A manifest is a strict record, and so is its entry: a key that does not belong
is an error. What is not understood is reported as one diagnostic at the place
of the fault. The canonical text of a manifest is what an exported unit consists
of.
-/

namespace DetectorBench

/-- The entry point of a manifest and the routine behind it. -/
structure EntryDeclaration where
  name : String
  routine : String
  deriving DecidableEq, Repr

/-- How an entry declaration is read and written. -/
def EntryDeclaration.codec : Codec EntryDeclaration :=
  Codec.map
    (Record.codec
      { name := "EntryDeclaration"
        strict := true
        fields :=
          .cons (.withDefault "name" .text Signature.canonical.name)
            (.cons (.required "routine" .text) .nil) })
    (fun (name, routine, ()) => ⟨name, routine⟩) (fun e => (e.name, e.routine, ()))

/-- A detector as its author writes it. -/
structure Manifest where
  entry : EntryDeclaration
  metadata : Metadata
  references : List String
  imports : List String
  deriving DecidableEq, Repr

namespace Manifest

/-- How a manifest is read and written. -/
def codec : Codec Manifest :=
  Codec.map
    (Record.codec
      { name := "DetectorManifest"
        strict := true
        fields :=
          .cons (.required "entry" EntryDeclaration.codec)
            (.cons (.maybe "definition" Definition.codec)
              (.cons (.maybe "resource_filter" ResourceFilter.codec)
                (.cons (.maybe "system_filter" SystemFilter.codec)
                  (.cons (.listing "references" .text)
                    (.cons (.listing "imports" .text) .nil))))) })
    (fun (entry, definition, resourceFilter, systemFilter, references, imports,
      ()) =>
      ⟨entry, ⟨definition, resourceFilter, systemFilter⟩, references, imports⟩)
    (fun m => (m.entry, m.metadata.definition, m.metadata.resourceFilter,
      m.metadata.systemFilter, m.references, m.imports, ()))

/-- The diagnostic about a source that is no manifest. Lines and columns are at
least one. -/
def diagnose (document : Json.Input) (fault : Json.Fault) : Diagnostic :=
  let place := (fault.position? document).getD ⟨0, 0⟩
  (Diagnostic.error ("invalid detector manifest: " ++
    fault.message document)).placedAt
    (max place.line 1) (max place.column 1)

/-- Reads a manifest as its author wrote it. -/
def parse (source : String) : Except Diagnostic Manifest :=
  let document := Json.symbolsOfText source
  (codec.readDocument document).mapError (diagnose document)

/-- Reads a manifest from the bytes of an exported unit. -/
def ofBytes (bytes : ByteArray) : Except Failure Manifest :=
  let document := Json.symbolsOfBytes bytes
  (codec.readDocument document).mapError fun fault =>
    (Failure.ofMessage (fault.message document)).inContext
      "artifact is not a detector manifest"

/-- The canonical text of a manifest. -/
def text (m : Manifest) : String :=
  codec.pretty m

/-- The bytes of the canonical text. -/
def bytes (m : Manifest) : ByteArray :=
  m.text.toUTF8

/-- The attributes of a definition: its support topics are declared one by
one. -/
def definitionAttributes (d : Definition) : List Attribute :=
  .definition { d with supportTopics := [] } :: d.supportTopics.map .supportTopic

/-- The attributes that the entry point of a manifest has. -/
def attributes (m : Manifest) : List Attribute :=
  (m.metadata.definition.map definitionAttributes).getD []
    ++ (m.metadata.resourceFilter.map Attribute.resourceFilter).toList
    ++ (m.metadata.systemFilter.map Attribute.systemFilter).toList

/-- The id of the definition, if there is one. -/
def definitionId? (m : Manifest) : Option String :=
  m.metadata.definition.map (·.id)

end Manifest

end DetectorBench
