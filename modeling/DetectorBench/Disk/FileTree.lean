import DetectorBench.Disk
import DetectorBench.Disk.Path

/-!
# File trees

A disk as a value. Files and directories are listed by their places, a place
being the names on the way from the top. A path is followed name by name: each
name leads out of a directory, an empty name or a single dot stays where it is,
and a double dot leads up, but never above the top. The last name need not
exist. A path that ends in a slash ends in an empty name, so it has to come to a
directory.
-/

namespace DetectorBench

/-- What stands at a place. -/
inductive FileNode where
  | file (content : ByteArray)
  | directory

/-- Where something stands: the names on the way from the top. -/
abbrev Place := List String

/-- Files and directories by place. -/
structure FileTree where
  nodes : List (Place × FileNode)

namespace FileTree

/-- The tree that holds nothing. -/
def empty : FileTree :=
  ⟨[]⟩

/-- What stands at a place. The top is always a directory. -/
def node? (t : FileTree) (place : Place) : Option FileNode :=
  if place = [] then some .directory else t.nodes.lookup place

/-- Whether there is a directory at a place. -/
def isDirectory (t : FileTree) (place : Place) : Bool :=
  match t.node? place with
  | some .directory => true
  | _ => false

/-- Puts something at a place, instead of what was there. -/
def put (t : FileTree) (place : Place) (node : FileNode) : FileTree :=
  ⟨t.nodes.filter (·.1 ≠ place) ++ [(place, node)]⟩

/-- The greatest number of bytes of a name. -/
def maxNameBytes : Nat := 255

/-- The greatest number of bytes of a path. -/
def maxPathBytes : Nat := 4095

/-- Follows names from a place. -/
def walk (t : FileTree) : Place → List String → Except DiskError Place
  | place, [] => .ok place
  | place, name :: rest =>
    match t.node? place with
    | none => .error .notFound
    | some (.file _) => .error .notDirectory
    | some .directory =>
      if name = "" ∨ name = "." then t.walk place rest
      else if name = ".." then t.walk place.dropLast rest
      else if maxNameBytes < name.utf8ByteSize then .error .nameTooLong
      else t.walk (place ++ [name]) rest

/-- The names of a path, unless no path has that form. -/
def names (path : String) : Except DiskError (List String) :=
  if path.toList.contains '\x00' then .error .nulInPath
  else if path = "" then .error .notFound
  else if maxPathBytes < path.utf8ByteSize then .error .nameTooLong
  else .ok (Path.pieces path)

/-- The content of the file at a path. -/
def read (t : FileTree) (path : String) : Except DiskError ByteArray := do
  let place ← t.walk [] (← names path)
  match t.node? place with
  | some (.file content) => return content
  | some .directory => throw .isDirectory
  | none => throw .notFound

/-- Makes a directory where nothing stands. The last of the names is one of its
own, not a dot or a double dot. -/
def makeDirectory (t : FileTree) (names : List String) :
    Except DiskError FileTree := do
  let place ← t.walk [] names
  match t.node? place with
  | some _ => throw .alreadyExists
  | none => return t.put place .directory

/-- Whether some names lead to a directory. -/
def leadsToDirectory (t : FileTree) (names : List String) : Bool :=
  match t.walk [] names with
  | .ok place => t.isDirectory place
  | .error _ => false

/-- Makes a directory, unless there is one already. -/
def ensureDirectory (t : FileTree) (names : List String) :
    Except DiskError FileTree :=
  match t.makeDirectory names with
  | .ok t => .ok t
  | .error e =>
    if e = .alreadyExists ∧ t.leadsToDirectory names then .ok t else .error e

/-- Makes a directory, given by its names in reverse, and those above it that
are missing. What was made stays when a later step fails. -/
def makeDirectoriesFrom (t : FileTree) :
    List String → Except DiskError Unit × FileTree
  | [] => (.ok (), t)
  | name :: above =>
    match t.ensureDirectory (name :: above).reverse with
    | .ok t => (.ok (), t)
    | .error .notFound =>
      match t.makeDirectoriesFrom above with
      | (.error e, t) => (.error e, t)
      | (.ok (), t) =>
        match t.ensureDirectory (name :: above).reverse with
        | .ok t => (.ok (), t)
        | .error e => (.error e, t)
    | .error e => (.error e, t)

/-- Makes the directory at a path, and those above it that are missing. -/
def makeDirectories (t : FileTree) (path : String) :
    Except DiskError Unit × FileTree :=
  match names path with
  | .error e => (.error e, t)
  | .ok names =>
    t.makeDirectoriesFrom ((names.filter fun n => n ≠ "" ∧ n ≠ ".").reverse)

/-- The names above the last one that is not empty. -/
def namesAbove (names : List String) : List String :=
  ((names.reverse.dropWhile (· = "")).drop 1).reverse

/-- Writes a file. A path that ends in a slash is refused as a directory,
whatever it leads to, once the way up to its last name has been followed. -/
def write (t : FileTree) (path : String) (content : ByteArray) :
    Except DiskError FileTree := do
  let names ← names path
  if names.getLast? = some "" then
    let _ ← t.walk [] (namesAbove names ++ ["."])
    throw .isDirectory
  let place ← t.walk [] names
  if t.isDirectory place then throw .isDirectory
  else return t.put place (.file content)

/-- A file tree as a disk. -/
def disk : Disk (StateM FileTree) where
  read path := do return (← get).read path
  makeDirectories path := modifyGet fun t => t.makeDirectories path
  write path content := modifyGet fun t =>
    match t.write path content with
    | .ok t => (.ok (), t)
    | .error e => (.error e, t)

/-- The path of a place. -/
def pathOf (place : Place) : String :=
  "/".intercalate place

/-- Everything in a tree with its path, in the order of the paths. -/
def listing (t : FileTree) : List (String × FileNode) :=
  (t.nodes.map fun (place, node) => (pathOf place, node)).mergeSort fun a b =>
    decide (a.1 ≤ b.1)

end FileTree

end DetectorBench
