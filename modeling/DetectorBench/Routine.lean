import DetectorBench.EntryPoint

/-!
# Routines

The bodies that entry points are bound to. A routine states how many arguments
it takes, and its body cannot be run with fewer: it is given the proof that
there are enough. A registry holds routines by name, in the order of their
names.
-/

namespace DetectorBench

/-- A named body. -/
structure Routine where
  name : String
  arity : Nat
  run : (arguments : List Json) → arity ≤ arguments.length → Outcome

namespace Routine

/-- A one-line summary of a routine. -/
def inspect (r : Routine) : String :=
  "Routine \x7b name: " ++ Text.quote r.name ++ ", arity: "
    ++ String.ofList (Text.digits r.arity)
    ++ " \x7d"

/-- Calls a routine as the body of an entry point of some name. -/
def call (r : Routine) (entry : String) (arguments : List Json) :
    Except BindingError Outcome :=
  if h : r.arity ≤ arguments.length then .ok (r.run arguments h)
  else .error ⟨entry, r.arity, arguments.length⟩

/-- Puts a routine into a list sorted by name; one with the same name is
replaced. -/
def insertSorted (r : Routine) : List Routine → List Routine
  | [] => [r]
  | s :: rest =>
    if r.name < s.name then r :: s :: rest
    else if r.name = s.name then r :: rest
    else s :: insertSorted r rest

end Routine

/-- Routines by name. -/
structure Registry where
  routines : List Routine

namespace Registry

/-- The registry without routines. -/
def empty : Registry :=
  ⟨[]⟩

/-- The registry with one more routine, which replaces the one of the same
name. -/
def insert (g : Registry) (r : Routine) : Registry :=
  ⟨r.insertSorted g.routines⟩

/-- The registry with more routines, later ones replacing earlier ones. -/
def insertAll (g : Registry) (rs : List Routine) : Registry :=
  rs.foldl insert g

/-- The routine of a name. -/
def get? (g : Registry) (name : String) : Option Routine :=
  g.routines.find? (·.name == name)

/-- Whether there is a routine of a name. -/
def contains (g : Registry) (name : String) : Bool :=
  (g.get? name).isSome

/-- The names of the routines, sorted. -/
def names (g : Registry) : List String :=
  g.routines.map (·.name)

/-- The number of routines. -/
def size (g : Registry) : Nat :=
  g.routines.length

/-- Whether there are no routines. -/
def isEmpty (g : Registry) : Bool :=
  g.routines.isEmpty

end Registry

end DetectorBench
