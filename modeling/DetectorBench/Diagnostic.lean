import DetectorBench.Record.Choice
import DetectorBench.Record.Fields

/-!
# Diagnostics

What a compiler has to say about a source: a severity, a message and, if it has
one, a place. Only errors make a compilation fail. A diagnostic is shown on one
line as `(line,column): severity: message`, without the first part when it has
no place.
-/

namespace DetectorBench

/-- How serious a diagnostic is, from the least to the most. -/
inductive Severity where
  | hidden
  | info
  | warning
  | error
  deriving DecidableEq, Repr

namespace Severity

/-- The name of a severity. -/
def name : Severity → String
  | hidden => "hidden"
  | info => "info"
  | warning => "warning"
  | error => "error"

/-- The severities by name. -/
def choices : Choices Severity :=
  [hidden, info, warning, error].map fun s => (s.name, s)

/-- How a severity is read and written. -/
def codec : Codec Severity :=
  choices.codec name

/-- The rank of a severity; the most serious has the highest. -/
def rank : Severity → Nat
  | hidden => 0
  | info => 1
  | warning => 2
  | error => 3

/-- The more serious of two severities. -/
def max (a b : Severity) : Severity :=
  if a.rank ≤ b.rank then b else a

end Severity

/-- A place in a source, lines and columns from one. -/
structure Location where
  line : Nat
  column : Nat
  deriving DecidableEq, Repr

/-- How a place is read and written. -/
def Location.codec : Codec Location :=
  Codec.map
    (Record.codec
      { name := "SourceLocation"
        strict := false
        fields :=
          .cons (.required "line" .count) (.cons (.required "column" .count) .nil) })
    (fun (line, column, ()) => ⟨line, column⟩)
    (fun l => (l.line, l.column, ()))

/-- One thing that a compiler has to say. -/
structure Diagnostic where
  severity : Severity
  message : String
  location : Option Location
  deriving DecidableEq, Repr

namespace Diagnostic

/-- How a diagnostic is read and written. -/
def codec : Codec Diagnostic :=
  Codec.map
    (Record.codec
      { name := "Diagnostic"
        strict := false
        fields :=
          .cons (.required "severity" Severity.codec)
            (.cons (.required "message" .text)
            (.cons (.maybe "location" Location.codec) .nil)) })
    (fun (severity, message, location, ()) => ⟨severity, message, location⟩)
    (fun d => (d.severity, d.message, d.location, ()))

/-- An error without a place. -/
def error (message : String) : Diagnostic :=
  ⟨.error, message, none⟩

/-- A warning without a place. -/
def warning (message : String) : Diagnostic :=
  ⟨.warning, message, none⟩

/-- A diagnostic put at a place. -/
def placedAt (d : Diagnostic) (line column : Nat) : Diagnostic :=
  { d with location := some ⟨line, column⟩ }

/-- Whether a diagnostic makes the compilation fail. -/
def isError (d : Diagnostic) : Bool :=
  d.severity == .error

/-- The line that shows a diagnostic. -/
def render (d : Diagnostic) : String :=
  let place :=
    match d.location with
    | none => []
    | some l =>
      '(' :: Text.digits l.line ++ ',' :: Text.digits l.column ++ [')', ':', ' ']
  String.ofList (place ++ d.severity.name.toList ++ [':', ' '] ++ d.message.toList)

/-- Whether any of several diagnostics makes the compilation fail. -/
def anyError (ds : List Diagnostic) : Bool :=
  ds.any isError

/-- The highest severity of several diagnostics. -/
def worst? (ds : List Diagnostic) : Option Severity :=
  ds.foldl (fun worst d => some (worst.elim d.severity (·.max d.severity))) none

end Diagnostic

end DetectorBench
