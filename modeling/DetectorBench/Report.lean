import DetectorBench.Artifact
import DetectorBench.Host

/-!
# Reports

What the command line shows: how a pass ended, what an invocation came to, where
an artifact went, and what went wrong. Every report has two forms, one for
readers, in colour, and one in JSON. Neither form ends in a line break of its
own unless its last line is one of a list.
-/

namespace DetectorBench

namespace Paint

/-- A text between a display attribute and its end. -/
def withCode (code text : String) : String :=
  "\x1b[" ++ code ++ "m" ++ text ++ "\x1b[0m"

/-- A text in green. -/
def green (text : String) : String :=
  withCode "32" text

/-- A text in red. -/
def red (text : String) : String :=
  withCode "31" text

/-- A text in bold. -/
def bold (text : String) : String :=
  withCode "1" text

end Paint

/-- How a pass ended, as far as a report tells. -/
structure Report where
  success : Bool
  stage : Stage
  output : List String
  /-- The wording of the violation that ended the pass. -/
  violation : Option String
  metadata : Metadata
  deriving DecidableEq, Repr

namespace Report

/-- What is reported of a host. -/
def ofHost (h : Host) : Report :=
  ⟨h.successful, h.stage, h.output, h.violation.map Violation.message, h.metadata⟩

/-- How a report is read and written. -/
def codec : Codec Report :=
  Codec.map
    (Record.codec
      { name := "Report"
        strict := false
        fields :=
          .cons (.required "success" .flag) (.cons (.required "state" Stage.codec)
            (.cons (.required "output" Codec.text.list)
              (.cons (.maybe "validation_error" .text)
              (.cons (.required "metadata" Metadata.codec) .nil)))) })
    (fun (success, stage, output, violation, metadata, ()) =>
      ⟨success, stage, output, violation, metadata⟩)
    (fun r => (r.success, r.stage, r.output, r.violation, r.metadata, ()))

/-- The lines of a definition. -/
def definitionText (d : Definition) : String :=
  "\n" ++ Paint.bold "Definition:" ++ "\n"
    ++ "  Id:     " ++ d.id ++ "\n"
    ++ "  Name:   " ++ d.name ++ "\n"
    ++ "  Author: " ++ d.author ++ "\n"
    ++ (match d.category with
        | none => ""
        | some category => "  Category: " ++ category ++ "\n")
    ++ String.join (d.supportTopics.map fun t =>
        "  Support topic: " ++ t.id ++ " (PesId " ++ t.pesId ++ ")\n")

/-- The lines of a resource filter. -/
def resourceFilterText (f : ResourceFilter) : String :=
  "\n" ++ Paint.bold "Resource filter:" ++ " " ++ f.resourceType
    ++ (if f.internalOnly then " (internal only)" else "") ++ "\n"

/-- The lines of metadata; what is absent has none. -/
def metadataText (m : Metadata) : String :=
  (m.definition.map definitionText).getD ""
    ++ (m.resourceFilter.map resourceFilterText).getD ""
    ++ (if m.systemFilter.isSome then
      "\n" ++ Paint.bold "System filter" ++ "\n" else "")

/-- The line that says how the pass over a unit ended. -/
def headline (r : Report) (label : String) : String :=
  if r.success then Paint.green ("✓ " ++ label ++ " is ready")
  else Paint.red ("✗ " ++ label ++ " failed (" ++ r.stage.name ++ ")")

/-- The lines of output, set in. -/
def outputText (lines : List String) : String :=
  if lines = [] then ""
  else "\n" ++ String.join (lines.map fun line => "  " ++ line ++ "\n")

/-- A report in colour; `label` is what the unit is called. -/
def text (r : Report) (label : String) : String :=
  r.headline label ++ "\n" ++ outputText r.output ++ metadataText r.metadata

end Report

namespace Host

/-- The report on a host. -/
def report (h : Host) (json : Bool) : String :=
  let r := Report.ofHost h
  if json then Report.codec.pretty r else r.text h.unit.label

end Host

namespace Output

/-- The report on an invocation. -/
def report (o : Output) (json : Bool) : String :=
  if json then
    Json.pretty (.object
      [("success", .bool true), ("has_value", .bool !o.isNoValue),
        ("value", o.value?.getD .null)])
  else
    match o.value? with
    | some v => v.pretty
    | none => "(no value)"

end Output

namespace Artifact

/-- The report on an artifact that is given away as text. -/
def report (a : Artifact) (json : Bool) : String :=
  if json then codec.pretty a else a.name ++ "\n" ++ a.payload

/-- The report on an artifact that was written to a path. -/
def savedReport (path : String) (json : Bool) : String :=
  if json then
    Json.pretty (.object [("path", .string path), ("success", .bool true)])
  else Paint.green ("✓ Saved artifact to " ++ path)

end Artifact

namespace Failure

/-- Causes under their numbers, from one. -/
def numberedCauses : (number : Nat) → List String → String
  | _, [] => ""
  | number, cause :: rest =>
    "  " ++ String.ofList (Text.digits number) ++ ": " ++ cause ++ "\n"
      ++ numberedCauses (number + 1) rest

/-- The report on a failure. In JSON only the nearest cause is told. -/
def report (f : Failure) (json : Bool) : String :=
  if json then
    Json.pretty (.object (("error", .string f.message)
      :: (f.causes.head?.map fun cause => ("cause", Json.string cause)).toList))
  else
    Paint.red "Error:" ++ " " ++ f.message ++ "\n"
      ++ (if f.causes = [] then "" else "Caused by:\n" ++ numberedCauses 1 f.causes)

end Failure

end DetectorBench
