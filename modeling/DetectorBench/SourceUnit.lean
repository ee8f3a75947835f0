import DetectorBench.Record.Choice
import DetectorBench.Record.Fields

/-!
# Source units

What an author hands in: the text, where it was read from, and what kind of unit
it is.
-/

namespace DetectorBench

/-- The kinds of units that a host takes. -/
inductive UnitKind where
  | detector
  | signal
  | analysis
  | gist
  deriving DecidableEq, Repr, Inhabited

namespace UnitKind

/-- The name of a kind. -/
def name : UnitKind → String
  | detector => "detector"
  | signal => "signal"
  | analysis => "analysis"
  | gist => "gist"

/-- The kinds by name. -/
def choices : Choices UnitKind :=
  [detector, signal, analysis, gist].map fun k => (k.name, k)

/-- How a kind is read and written. -/
def codec : Codec UnitKind :=
  choices.codec name

end UnitKind

/-- A source text with its origin. -/
structure SourceUnit where
  script : String
  location : Option String
  kind : UnitKind
  deriving DecidableEq, Repr

namespace SourceUnit

/-- A detector's source that was not read from anywhere. -/
def inline (script : String) : SourceUnit :=
  ⟨script, none, .detector⟩

/-- How a unit is read and written. -/
def codec : Codec SourceUnit :=
  Codec.map
    (Record.codec
      { name := "EntityMetadata"
        strict := false
        fields :=
          .cons (.required "script_text" .text)
            (.cons (.maybe "location" (.textAs "path string"))
              (.cons (.withDefault "entity_type" UnitKind.codec .detector) .nil)) })
    (fun (script, location, kind, ()) => ⟨script, location, kind⟩)
    (fun u => (u.script, u.location, u.kind, ()))

/-- What a report calls the unit: its location, or its kind if it has none. -/
def label (u : SourceUnit) : String :=
  match u.location with
  | some path => path
  | none => "<inline " ++ u.kind.name ++ ">"

end SourceUnit

end DetectorBench
