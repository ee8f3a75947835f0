import DetectorBench.Compiler
import DetectorBench.Disk.Path
import DetectorBench.Disk
import DetectorBench.Environment
import DetectorBench.Manifest.Check
import DetectorBench.Manifest.Image

/-!
# The compiler of manifests

A compilation is a plain value: the manifest, if the source is one, and what
there is to say about it. It gives an image away only when it has no error to
report. The exported unit is the canonical text of the manifest, under a file
name made from the id of its definition.
-/

namespace DetectorBench.Manifest

/-- What the compilation of a source found. -/
structure Compilation where
  /-- The file name of the unit. -/
  name : String
  manifest : Option Manifest
  diagnostics : List Diagnostic
  registry : Registry

namespace Compilation

/-- Compiles a source. -/
def ofSource (registry : Registry) (extension source : String)
    (references imports : Option (List String)) : Compilation :=
  match parse source with
  | .error diagnostic =>
    ⟨Artifact.fileName none source extension, none, [diagnostic], registry⟩
  | .ok m =>
    ⟨Artifact.fileName m.definitionId? source extension, some m,
      m.check registry references imports, registry⟩

/-- The manifest and its routine, when there is nothing wrong with them. -/
def unit (c : Compilation) : Except Failure (Manifest × Routine) :=
  if Diagnostic.anyError c.diagnostics then
    .error (.ofMessage ("cannot emit '" ++ c.name ++
      "': the unit has compilation errors"))
  else
    match c.manifest with
    | none =>
      .error (.ofMessage ("cannot emit '" ++ c.name ++ "': no manifest was parsed"))
    | some m =>
      match c.registry.get? m.entry.routine with
      | none =>
        .error (.ofMessage ("routine '" ++ m.entry.routine ++ "' disappeared"))
      | some r => .ok (m, r)

/-- The image of the unit. -/
def emit (c : Compilation) : Except Failure Image :=
  c.unit.map fun (m, r) => m.image c.name r

/-- The unit as an artifact. -/
def artifact (c : Compilation) : Except Failure Artifact :=
  c.unit.map fun (m, _) => .pack c.name m.bytes.data.toList

/-- The directory that has to be there before a path can be written to. -/
def directoryOf? (path : String) : Option String :=
  (Path.parent? path).filter (· ≠ "")

/-- Makes sure that the directory of a path is there. -/
def makeDirectoryOf {m : Type → Type} [Monad m] (disk : Disk m)
    (path : String) :
    m (Except Failure Unit) :=
  match directoryOf? path with
  | none => pure (.ok ())
  | some directory => do
    return (← disk.makeDirectories directory).mapError fun e =>
      (Failure.ofMessage e.message).inContext ("failed to create " ++ directory)

/-- Writes the bytes of the unit to a path. -/
def save {m : Type → Type} [Monad m] (disk : Disk m) (c : Compilation)
    (path : String) :
    m (Except Failure String) :=
  match c.unit with
  | .error failure => pure (.error failure)
  | .ok (manifest, _) => do
    match ← makeDirectoryOf disk path with
    | .error failure => return .error failure
    | .ok () =>
      match ← disk.write path manifest.bytes with
      | .error e =>
        return .error ((Failure.ofMessage e.message).inContext
          ("failed to write artifact to " ++ path))
      | .ok () => return .ok path

/-- What a host sees of a compilation. -/
def handle {m : Type → Type} [Monad m] (disk : Disk m) (c : Compilation) :
    Handle m where
  diagnostics := .ok c.diagnostics
  signature := .canonical
  emit := c.emit
  save := c.save disk
  artifact := c.artifact

end Compilation

/-- The extension of exported files that an environment asks for, without blanks
around it and dots before it. -/
def extensionOf (env : Environment) : String :=
  match env.text? "DETECTOR_ARTIFACT_EXTENSION" with
  | none => Artifact.defaultExtension
  | some extension =>
    String.ofList ((Text.trimChars extension.toList).dropWhile (· = '.'))

/-- The compiler of manifests over some routines. -/
def compiler {m : Type → Type} [Monad m] (disk : Disk m) (registry : Registry)
    (extension : String) : Compiler m where
  name := "manifest"
  compile source references imports :=
    .ok ((Compilation.ofSource registry extension source references
      imports).handle disk)

end DetectorBench.Manifest
