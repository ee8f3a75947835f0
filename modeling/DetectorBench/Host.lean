import DetectorBench.Compiler
import DetectorBench.Settings
import DetectorBench.SourceUnit
import DetectorBench.Stage

/-!
# Hosts

A host takes one unit through its life. A pass over the source compiles it,
looks at the diagnostics, emits an image, resolves the entry point, folds its
attributes into metadata and validates them; the first of these that fails
decides how the pass ends. A pass over an image that was emitted elsewhere
resolves and folds, and trusts the rest.

When the unit is at fault, the pass ends in `compiledFailed` or
`validationFailed` and the host records why in its output. When something else
broke, the pass ends with that very failure and leaves the host in `compiling`.
Each pass starts by forgetting everything the passes before it found, so that
the last one counts.

A host does not hold its compiler. Every operation that compiles is given the
one that is at hand.

What a host is asked for, to invoke its unit or to export it, is written for
questions to others that are actions (`invokeBy`, `recompileBy`, `exportBy`), so
that it shows whom a host asks and whom not. The host that runs is the same,
with answers that are at hand.
-/

namespace DetectorBench

/-- A unit, what it may use, and what is known of it since the last pass. -/
structure Host where
  unit : SourceUnit
  /-- The references that the unit may use; everything if there is no list. -/
  references : Option (List String)
  /-- The imports that the unit may use; everything if there is no list. -/
  imports : Option (List String)
  settings : Settings
  stage : Stage
  successful : Bool
  /-- What the last pass had to say, one line each. -/
  output : List String
  metadata : Metadata
  violation : Option Violation
  image : Option Image
  entryPoint : Option EntryPoint

namespace Host

/-- A host that has done nothing yet. -/
def ofUnit (unit : SourceUnit) (references imports : Option (List String))
    (settings : Settings) :
    Host where
  unit
  references
  imports
  settings
  stage := .new
  successful := false
  output := []
  metadata := .empty
  violation := none
  image := none
  entryPoint := none

/-- The host at the start of a pass. -/
def reset (h : Host) : Host :=
  { h with
    stage := .compiling
    successful := false
    output := []
    metadata := .empty
    violation := none
    image := none
    entryPoint := none }

/-- The host with more lines of output. -/
def record (h : Host) (lines : List String) : Host :=
  { h with output := h.output ++ lines }

/-- The host after a pass that the unit is the reason for ending. -/
def fail (h : Host) (stage : Stage) : Host :=
  { h with stage, successful := false }

/-- The host after a pass that came to its end. -/
def succeed (h : Host) : Host :=
  { h with stage := .ready, successful := true }

/-- The entry point of an image with the metadata that it declares. -/
def resolve (image : Image) (signature : Signature) :
    Except ResolveError (EntryPoint × Metadata) := do
  let entry ← image.resolve signature
  return (entry, ← entry.metadata)

/-- Takes an image in. The answer is whether the pass goes on. -/
def accept (h : Host) (image : Image) (signature : Signature) :
    Except HostError Bool × Host :=
  match resolve image signature with
  | .ok (entry, metadata) =>
    (.ok true, { h with image := some image, entryPoint := some entry, metadata })
  | .error (.compilation message) =>
    (.ok false, (h.record [message]).fail .compiledFailed)
  | .error (.pipeline failure) => (.error (.pipeline failure), h)

/-- The line that reports a violation. -/
def violationLine (v : Violation) : String :=
  "error: " ++ v.message

/-- Validates the metadata that was found. -/
def validate (h : Host) : Host :=
  match h.metadata.validate h.settings.rules with
  | .ok verdict => (h.record verdict.warnings).succeed
  | .error v =>
    { h.record [violationLine v] with violation := some v }.fail .validationFailed

/-- Compiles the unit. -/
def compile {m : Type → Type} (h : Host) (compiler : Compiler m) :
    Except HostError (Handle m) :=
  (compiler.compile h.unit.script h.references h.imports).mapError .pipeline

/-- Does a pass over the source. -/
def prepare {m : Type → Type} (h : Host) (compiler : Compiler m) :
    Except HostError Unit × Host :=
  let h := h.reset
  match h.compile compiler with
  | .error e => (.error e, h)
  | .ok handle =>
    match handle.diagnostics with
    | .error failure => (.error (.pipeline failure), h)
    | .ok diagnostics =>
      let h := h.record (diagnostics.map Diagnostic.render)
      if Diagnostic.anyError diagnostics then (.ok (), h.fail .compiledFailed)
      else
        match handle.emit with
        | .error failure => (.error (.pipeline failure), h)
        | .ok image =>
          match h.accept image handle.signature with
          | (.error e, h) => (.error e, h)
          | (.ok false, h) => (.ok (), h)
          | (.ok true, h) => (.ok (), h.validate)

/-- Does a pass over an image. Its entry point is looked up by the settings, and
its metadata is not validated. -/
def preload (h : Host) (image : Image) : Except HostError Unit × Host :=
  match h.reset.accept image h.settings.signature with
  | (.error e, h) => (.error e, h)
  | (.ok false, h) => (.ok (), h)
  | (.ok true, h) => (.ok (), h.succeed)

/-- The line that says that the unit is not ready. -/
def stageLine (stage : Stage) : String :=
  "entity is not ready (state: " ++ stage.name ++ ")"

/-- The error of a host that is asked for more than it has: where it stands, and
what the last pass had to say. -/
def notReady (h : Host) : HostError :=
  .ofLines (stageLine h.stage :: h.output)

section Questions

/-! The questions are actions in `n`, which may do anything and keep a record of
being asked. -/

variable {m n : Type → Type} [Monad n] {α : Type}

/-- Invokes the unit, the call to its entry point being the action `call`. -/
def invokeBy (h : Host)
    (call : EntryPoint → List Json → n (Except HostError Output))
    (arguments : List Json) : n (Except HostError Output) :=
  match h.stage, h.entryPoint with
  | .ready, some entry => call entry arguments
  | _, _ => pure (.error h.notReady)

/-- Invokes the unit. -/
def invoke (h : Host) (arguments : List Json) : Except HostError Output :=
  h.invokeBy (n := Id) EntryPoint.invoke arguments

/-- Compiles the unit anew, for export; errors in the source end it. The stage
is asked for first, but nothing that an earlier pass found is used. -/
def recompileBy (h : Host) (asking : Asking m n) (compiler : Compiler m) :
    n (Except HostError (Handle m)) := do
  if h.stage ≠ .ready then return .error h.notReady
  match ← asking.compile compiler h.unit.script h.references h.imports with
  | .error failure => return .error (.pipeline failure)
  | .ok handle =>
    match ← asking.diagnostics handle with
    | .error failure => return .error (.pipeline failure)
    | .ok diagnostics =>
      if Diagnostic.anyError diagnostics then
        return .error (.ofLines (diagnostics.map Diagnostic.render))
      return .ok handle

/-- Compiles the unit anew and takes from the handle what it is asked to
`give`. -/
def exportBy (h : Host) (asking : Asking m n) (compiler : Compiler m)
    (give : Handle m → n (Except Failure α)) : n (Except HostError α) := do
  match ← h.recompileBy asking compiler with
  | .error error => return .error error
  | .ok handle => return (← give handle).mapError .pipeline

end Questions

/-- What compiling the unit anew comes to. -/
def recompile {m : Type → Type} (h : Host) (compiler : Compiler m) :
    Except HostError (Handle m) :=
  h.recompileBy (n := Id) .atHand compiler

/-- The unit as an artifact. -/
def artifact {m : Type → Type} (h : Host) (compiler : Compiler m) :
    Except HostError Artifact :=
  h.exportBy (n := Id) .atHand compiler fun handle => pure handle.artifact

/-- Writes the unit to a path and tells where it went. -/
def save {m : Type → Type} [Monad m] (h : Host) (compiler : Compiler m)
    (path : String) :
    m (Except HostError String) :=
  h.exportBy .atHand compiler fun handle => handle.save path

section AtHand

variable {m : Type → Type}

/-- The entry point answers if the host is ready and has one, and else the
host. -/
theorem invoke_eq (h : Host) (arguments : List Json) :
    h.invoke arguments =
      match h.stage, h.entryPoint with
      | .ready, some entry => entry.invoke arguments
      | _, _ => .error h.notReady :=
  rfl

/-- Where every answer is at hand, compiling anew is no action. -/
theorem recompileBy_atHand {n : Type → Type} [Monad n] [LawfulMonad n]
    (h : Host) (compiler : Compiler m) :
    h.recompileBy (n := n) .atHand compiler = pure (h.recompile compiler) := by
  unfold recompile recompileBy Asking.atHand
  split
  · rfl
  · simp only [pure_bind]
    split
    · rfl
    · split
      · rfl
      · split <;> rfl

/-- What a fresh compilation is answered with, question by question. -/
theorem recompile_eq (h : Host) (compiler : Compiler m) :
    h.recompile compiler =
      if h.stage ≠ .ready then .error h.notReady
      else
        match compiler.compile h.unit.script h.references h.imports with
        | .error failure => .error (.pipeline failure)
        | .ok handle =>
          match handle.diagnostics with
          | .error failure => .error (.pipeline failure)
          | .ok diagnostics =>
            if Diagnostic.anyError diagnostics then
              .error (.ofLines (diagnostics.map Diagnostic.render))
            else .ok handle :=
  rfl

/-- An export is what the fresh compilation can be packed as. -/
theorem artifact_eq (h : Host) (compiler : Compiler m) :
    h.artifact compiler =
      match h.recompile compiler with
      | .error error => .error error
      | .ok handle => handle.artifact.mapError .pipeline := by
  unfold artifact exportBy
  rw [recompileBy_atHand]
  cases h.recompile compiler <;> rfl

/-- Saving is what the fresh compilation does, if there is one. -/
theorem save_eq [Monad m] [LawfulMonad m] (h : Host) (compiler : Compiler m)
    (path : String) :
    h.save compiler path =
      match h.recompile compiler with
      | .error error => pure (.error error)
      | .ok handle => (·.mapError .pipeline) <$> handle.save path := by
  unfold save exportBy
  rw [recompileBy_atHand, pure_bind]
  cases h.recompile compiler with
  | error error => rfl
  | ok handle => exact bind_pure_comp _ _

end AtHand

/-- Lets go of the image and the entry point. What the last pass found out stays
on record. -/
def dispose (h : Host) : Host :=
  { h with stage := .new, successful := false, image := none, entryPoint := none }

/-- A one-line summary of the host. -/
def inspect (h : Host) (compilerName : String) : String :=
  let image :=
    match h.image with
    | none => "None"
    | some image => "Some(" ++ Text.quote image.name ++ ")"
  "EntityInvoker \x7b entity: " ++ Text.quote h.unit.label ++ ", compiler: "
    ++ Text.quote compilerName ++ ", image: " ++ image ++ ", state: "
    ++ h.stage.title
    ++ ", successful: " ++ (if h.successful then "true" else "false")
    ++ ", output_lines: "
    ++ String.ofList (Text.digits h.output.length) ++ " \x7d"

end Host

end DetectorBench
