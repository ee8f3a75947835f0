import DetectorBench.Manifest
import DetectorBench.Routine

/-!
# Checking manifests

What there is to say about a manifest that was read: first about its references,
then about its imports, each in the order of declaration, and last about its
routine. A name that was declared before gets a warning and nothing else; a name
outside the list of those allowed, if there is such a list, is an error, and so
is a routine that is not registered.
-/

namespace DetectorBench.Manifest

/-- A name was declared before. -/
def duplicateWarning (what name : String) : Diagnostic :=
  .warning ("duplicate " ++ what ++ " '" ++ name ++ "'")

/-- A name is not among those allowed. -/
def forbiddenError (what name : String) : Diagnostic :=
  .error (what ++ " '" ++ name ++ "' is not permitted for this detector")

/-- Whether a name may be used; every name may if there is no list. -/
def permits (allowed : Option (List String)) (name : String) : Bool :=
  allowed.all (·.contains name)

/-- What there is to say about declared names, `seen` being those declared
before. -/
def checkNames (what : String) (allowed : Option (List String)) :
    (seen declared : List String) → List Diagnostic
  | _, [] => []
  | seen, name :: rest =>
    if seen.contains name then duplicateWarning what name ::
      checkNames what allowed seen rest
    else if permits allowed name then checkNames what allowed (name :: seen) rest
    else forbiddenError what name :: checkNames what allowed (name :: seen) rest

/-- The routine of an entry point is not registered. -/
def unknownRoutine (entry : EntryDeclaration) : Diagnostic :=
  .error
    ("entry point '" ++ entry.name ++ "' is bound to unknown routine '" ++
      entry.routine ++ "'")

/-- What there is to say about a manifest. -/
def check (m : Manifest) (registry : Registry)
    (references imports : Option (List String)) :
    List Diagnostic :=
  checkNames "reference" references [] m.references
    ++ checkNames "import" imports [] m.imports
    ++ (if registry.contains m.entry.routine then [] else [unknownRoutine m.entry])

end DetectorBench.Manifest
