import DetectorBench.Report
import DetectorBench.Session

/-!
# Commands

What can be asked for on the command line. A command leaves a transcript: what
it wrote, and whether it failed. A report goes to the output even when it tells
of a unit that is not ready; a failure is reported beside it.
-/

namespace DetectorBench

/-- What can be asked for. -/
inductive Command where
  /-- Tells whether a manifest can be hosted. -/
  | check (manifest : String)
  /-- Invokes a manifest with arguments as they were written. -/
  | run (manifest : String) (arguments : List String)
  /-- Writes the artifact of a manifest to a path. -/
  | exportFile (manifest path : String)
  /-- Shows the artifact of a manifest as text. -/
  | exportText (manifest : String)
  /-- Tells what an artifact declares. -/
  | inspect (artifact : String)
  deriving DecidableEq, Repr

/-- What a command wrote and how it ended. What it writes to the error stream is
what it has to say there itself; the log lines of a run are left out. -/
structure Transcript where
  stdout : String
  stderr : String
  result : Except Failure Unit

namespace Transcript

/-- A command that succeeded with a report. -/
def success (report : String) : Transcript :=
  ⟨report ++ "\n", "", .ok ()⟩

/-- A command that had a report and failed all the same. -/
def refusal (report : String) (failure : Failure) : Transcript :=
  ⟨report ++ "\n", "", .error failure⟩

/-- A command that failed and reports that. -/
def failure (failure : Failure) (json : Bool) : Transcript :=
  ⟨"", failure.report json ++ "\n", .error failure⟩

/-- A command that either has a report or failed. -/
def ofResult (result : Except Failure String) (json : Bool) : Transcript :=
  match result with
  | .ok report => success report
  | .error f => failure f json

end Transcript

namespace Command

/-- An argument of an invocation: the JSON value that it is the text of, or else
the text itself. -/
def readArgument (raw : String) : Json :=
  match Json.parse raw with
  | .ok j => j
  | .error _ => .string raw

/-- The transcript of a pass; `complaint` says what a unit that is not ready
failed at. -/
def ofPass (pass : Except Failure Host) (complaint : Host → String)
    (json : Bool) : Transcript :=
  match pass with
  | .error f => .failure f json
  | .ok h =>
    if h.successful then .success (h.report json)
    else .refusal (h.report json) (.ofMessage (complaint h))

/-- The stage of a host in parentheses. -/
def stageSuffix (h : Host) : String :=
  " (state: " ++ h.stage.name ++ ")"

variable {m : Type → Type} [Monad m]

/-- Invokes a manifest. -/
def invoke (s : Session) (disk : Disk m) (manifest : String)
    (arguments : List String) (json : Bool) : m (Except Failure String) := do
  match ← s.openManifest disk manifest with
  | .error f => return .error f
  | .ok h =>
    return ((h.invoke (arguments.map readArgument)).mapError
      HostError.failure).map (·.report json)

/-- Writes the artifact of a manifest to a path. -/
def writeArtifact (s : Session) (disk : Disk m) (manifest path : String)
    (json : Bool) :
    m (Except Failure String) := do
  match ← s.openManifest disk manifest with
  | .error f => return .error f
  | .ok h =>
    return ((← h.save (s.compiler disk) path).mapError HostError.failure).map
      (Artifact.savedReport · json)

/-- Shows the artifact of a manifest. -/
def showArtifact (s : Session) (disk : Disk m) (manifest : String)
    (json : Bool) :
    m (Except Failure String) := do
  match ← s.openManifest disk manifest with
  | .error f => return .error f
  | .ok h => return ((h.artifact (s.compiler disk)).mapError
      HostError.failure).map (·.report json)

/-- Does what is asked for. -/
def execute (s : Session) (disk : Disk m) (json : Bool) : Command → m Transcript
  | check manifest => do
    return ofPass (← s.openManifest disk manifest)
      (fun h => manifest ++ " is not ready" ++ stageSuffix h) json
  | run manifest arguments => do
    return .ofResult (← invoke s disk manifest arguments json) json
  | exportFile manifest path => do
    return .ofResult (← writeArtifact s disk manifest path json) json
  | exportText manifest => do
    return .ofResult (← showArtifact s disk manifest json) json
  | inspect artifact => do
    return ofPass (← s.openArtifact disk artifact)
      (fun h => artifact ++ " could not be loaded" ++ stageSuffix h) json

end Command

end DetectorBench
