import DetectorBench.Text.Class

/-!
# Paths

Paths as texts: names with slashes between them. A slash at the end, and a `.`
that is not the first name, say nothing about which file is meant when a parent
or a file name is asked for.
-/

namespace DetectorBench.Path

/-- Drops slashes and single dots from the end of a path, which is given in
reverse. -/
def trimReversed : List Char → List Char
  | ['/'] => ['/']
  | '/' :: rest => trimReversed rest
  | '.' :: '/' :: rest => trimReversed ('/' :: rest)
  | cs => cs
termination_by cs => cs.length

/-- The part of a path before its last name; `none` when there is no name. -/
def parent? (path : String) : Option String :=
  match trimReversed path.toList.reverse with
  | [] => none
  | ['/'] => none
  | cs => some (String.ofList (trimReversed (cs.dropWhile (· ≠ '/'))).reverse)

/-- The last name of a path; `none` when it is not the name of a file or
directory. -/
def fileName? (path : String) : Option String :=
  let name := ((trimReversed path.toList.reverse).takeWhile (· ≠ '/')).reverse
  if name = [] ∨ name = ['.'] ∨ name = ['.', '.'] then
    none else some (String.ofList name)

/-- The names of a path, with an empty one for each surplus slash. -/
def pieces (path : String) : List String :=
  (Text.piecesAt '/' path.toList).map String.ofList

end DetectorBench.Path
