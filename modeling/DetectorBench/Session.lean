import DetectorBench.Host
import DetectorBench.Manifest.Compiler
import DetectorBench.Routine.Builtin

/-!
# Sessions

What all commands of one run share: the routines, the extension of artifacts,
the lists of what a unit may use, and the settings of its host. A list that is
given on the command line wins over the one in the environment, and an empty
list restricts nothing.
-/

namespace DetectorBench

/-- What all commands share. -/
structure Session where
  registry : Registry
  extension : String
  references : Option (List String)
  imports : Option (List String)
  settings : Settings

namespace Session

/-- The list of what may be used: the one that was given, else the one in the
environment. -/
def allowed (given : List String) (env : Environment) (name : String) :
    Option (List String) :=
  let names := if given = [] then env.names name else given
  if names = [] then none else some names

/-- The session with the lists that were given, in an environment. -/
def ofEnvironment (env : Environment) (references imports : List String) :
    Session where
  registry := Routine.builtin
  extension := Manifest.extensionOf env
  references := allowed references env "DETECTOR_REFERENCES"
  imports := allowed imports env "DETECTOR_IMPORTS"
  settings := .ofEnvironment env

variable {m : Type → Type} [Monad m]

/-- The compiler of a session. -/
def compiler (s : Session) (disk : Disk m) : Compiler m :=
  Manifest.compiler disk s.registry s.extension

/-- A host for a unit. -/
def host (s : Session) (unit : SourceUnit) : Host :=
  .ofUnit unit s.references s.imports s.settings

/-- The failure to read a file. -/
def unreadable (what path reason : String) : Failure :=
  (Failure.ofMessage reason).inContext ("failed to read " ++ what ++ " " ++ path)

/-- Reads a manifest and takes a host through a pass over it. -/
def openManifest (s : Session) (disk : Disk m) (path : String) :
    m (Except Failure Host) := do
  match ← disk.read path with
  | .error e => return .error (unreadable "manifest" path e.message)
  | .ok bytes =>
    match String.fromUTF8? bytes with
    | none =>
      return .error (unreadable "manifest" path "stream did not contain valid UTF-8")
    | some script =>
      match (s.host ⟨script, some path, .detector⟩).prepare (s.compiler disk) with
      | (.ok (), h) => return .ok h
      | (.error e, _) => return .error e.failure

/-- Reads an artifact and takes a host through a pass over its image. -/
def openArtifact (s : Session) (disk : Disk m) (path : String) :
    m (Except Failure Host) := do
  match ← disk.read path with
  | .error e => return .error (unreadable "artifact" path e.message)
  | .ok bytes =>
    match Manifest.loadImage s.registry ((Path.fileName? path).getD "") bytes with
    | .error failure => return .error failure
    | .ok image =>
      match (s.host ⟨"", some path, .detector⟩).preload image with
      | (.ok (), h) => return .ok h
      | (.error e, _) => return .error e.failure

end Session

end DetectorBench
