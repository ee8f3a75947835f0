import DetectorBench.Manifest
import DetectorBench.Routine

/-!
# Images of manifests

A manifest bound to its routine. It offers the one entry point that it declares.
-/

namespace DetectorBench.Manifest

/-- The entry point of a manifest, with a routine as its body. -/
def entryPoint (m : Manifest) (r : Routine) : EntryPoint where
  name := m.entry.name
  arity := r.arity
  attributes := m.attributes
  call := r.call m.entry.name

/-- The error of a look-up by the wrong signature. -/
def noEntryPoint (m : Manifest) (signature : Signature) : ResolveError :=
  .compilation
    ("no entry point matching " ++ signature.render
      ++ " found; the unit declares '" ++ m.entry.name ++ "'")

/-- The image of a manifest, with a routine as the body of its entry point. -/
def image (m : Manifest) (name : String) (r : Routine) : Image where
  name := name
  resolve signature :=
    if m.entry.name = signature.name then .ok (m.entryPoint r)
    else .error (m.noEntryPoint signature)

/-- The image of an exported unit. -/
def loadImage (registry : Registry) (name : String) (bytes : ByteArray) :
    Except Failure Image := do
  let m ← ofBytes bytes
  match registry.get? m.entry.routine with
  | some r => return m.image name r
  | none =>
    throw (.ofMessage ("artifact '" ++ name ++ "' needs routine '" ++ m.entry.routine
      ++ "', which is not registered"))

end DetectorBench.Manifest
