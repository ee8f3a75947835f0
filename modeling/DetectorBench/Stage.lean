import DetectorBench.Record.Choice

/-!
# Stages of a host

Where a host stands with its unit. Only in stage `ready` can the unit be invoked
or exported.
-/

namespace DetectorBench

/-- Where a host stands with its unit. -/
inductive Stage where
  | new
  | compiling
  | compiledFailed
  | ready
  | validationFailed
  deriving DecidableEq, Repr

namespace Stage

/-- The name of a stage in reports. -/
def name : Stage → String
  | new => "new"
  | compiling => "compiling"
  | compiledFailed => "compiled_failed"
  | ready => "ready"
  | validationFailed => "validation_failed"

/-- The name of a stage in the summary of a host. -/
def title : Stage → String
  | new => "New"
  | compiling => "Compiling"
  | compiledFailed => "CompiledFailed"
  | ready => "Ready"
  | validationFailed => "ValidationFailed"

/-- The stages by name. -/
def choices : Choices Stage :=
  [new, compiling, compiledFailed, ready, validationFailed].map fun s => (s.name, s)

/-- How a stage is read and written. -/
def codec : Codec Stage :=
  choices.codec name

end Stage

end DetectorBench
