import DetectorBench.Program

/-!
# The executable

Runs the program on the files and the variables of the process.
-/

namespace DetectorBench

/-- A disk error of the system, with the number that it has there. -/
def DiskError.ofSystem (code : UInt32) (message : String) : DiskError :=
  if code = 2 then .notFound
  else if code = 17 then .alreadyExists
  else if code = 20 then .notDirectory
  else if code = 21 then .isDirectory
  else if code = 36 then .nameTooLong
  else .other message

/-- A disk error from an error of an action. -/
def DiskError.ofAction : IO.Error → DiskError
  | .noFileOrDirectory _ _ _ => .notFound
  | .alreadyExists _ _ _ => .alreadyExists
  | .inappropriateType _ code details => .ofSystem code details
  | .invalidArgument _ code details => .ofSystem code details
  | e => .other (toString e)

/-- Does an action on the disk of the process. -/
def onDisk {α : Type} (action : IO α) : IO (Except DiskError α) := do
  match ← action.toBaseIO with
  | .ok x => return .ok x
  | .error e => return .error (.ofAction e)

/-- The disk of the process. -/
def systemDisk : Disk IO where
  read path := onDisk (IO.FS.readBinFile path)
  makeDirectories path := onDisk (IO.FS.createDirAll path)
  write path content := onDisk (IO.FS.writeBinFile path content)

/-- The variables that the program looks at. -/
def knownVariables : List String :=
  ["DETECTOR_ENTRY_POINT", "DETECTOR_RESERVED_CHARS",
    "DETECTOR_WARN_INTERNAL_TOPICS",
    "DETECTOR_ARTIFACT_EXTENSION", "DETECTOR_REFERENCES", "DETECTOR_IMPORTS"]

/-- The variables of the process. -/
def systemEnvironment : IO Environment := do
  let values ← knownVariables.mapM fun name => do
    return (name, (← IO.getEnv name).map String.toUTF8)
  return ⟨fun name => (values.lookup name).join⟩

end DetectorBench

/-- Runs the program on the words of the command line. -/
def main (arguments : List String) : IO UInt32 := do
  let ending ← DetectorBench.Program.run (← DetectorBench.systemEnvironment)
    DetectorBench.systemDisk arguments
  IO.print ending.stdout
  IO.eprint ending.stderr
  return UInt32.ofNat ending.code
