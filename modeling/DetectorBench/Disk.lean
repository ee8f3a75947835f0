/-!
# Disks

Files are reached through a `Disk`, three operations that run in `m`. What can
go wrong is listed in `DiskError`, in the words and with the numbers that the
operating system has for it.
-/

namespace DetectorBench

/-- Why a disk refused an operation. -/
inductive DiskError where
  | notFound
  | alreadyExists
  | notDirectory
  | isDirectory
  | nameTooLong
  | nulInPath
  | other (message : String)
  deriving DecidableEq, Repr

/-- The wording of a disk error. -/
def DiskError.message : DiskError → String
  | notFound => "No such file or directory (os error 2)"
  | alreadyExists => "File exists (os error 17)"
  | notDirectory => "Not a directory (os error 20)"
  | isDirectory => "Is a directory (os error 21)"
  | nameTooLong => "File name too long (os error 36)"
  | nulInPath => "file name contained an unexpected NUL byte"
  | other message => message

/-- Access to files. -/
structure Disk (m : Type → Type) where
  /-- The content of a file. -/
  read : (path : String) → m (Except DiskError ByteArray)
  /-- Makes a directory, and those above it that are missing. -/
  makeDirectories : (path : String) → m (Except DiskError Unit)
  /-- Writes a file, over what was there before. -/
  write : (path : String) → ByteArray → m (Except DiskError Unit)

end DetectorBench
