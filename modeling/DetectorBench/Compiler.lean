import DetectorBench.Artifact
import DetectorBench.Diagnostic
import DetectorBench.EntryPoint

/-!
# Compilers

A host compiles nothing itself. What it needs of a compiler is written down
here: a source is compiled to a handle, and the handle tells what the compiler
has to say about the source, emits an image, and gives the unit away as an
artifact. All of it may fail, and a compiler may answer differently each time it
is asked. `m` is what saving runs in; everything else is a plain value.
-/

namespace DetectorBench

/-- What one compilation left behind. -/
structure Handle (m : Type → Type) where
  diagnostics : Except Failure (List Diagnostic)
  /-- What the entry point of the image is looked up by. -/
  signature : Signature
  emit : Except Failure Image
  /-- Writes the unit to a path and tells where it went. -/
  save : String → m (Except Failure String)
  artifact : Except Failure Artifact

/-- Compiles sources. A source with mistakes compiles too: the handle reports
them. -/
structure Compiler (m : Type → Type) where
  name : String
  compile : (source : String) → (references imports : Option (List String)) →
    Except Failure (Handle m)

/-- How compilers and their handles are asked: each question is an action in
`n`. -/
structure Asking (m n : Type → Type) where
  compile : Compiler m → (source : String) →
    (references imports : Option (List String)) →
    n (Except Failure (Handle m))
  diagnostics : Handle m → n (Except Failure (List Diagnostic))

/-- Asking for answers that are at hand. -/
def Asking.atHand {m n : Type → Type} [Pure n] : Asking m n where
  compile compiler source references imports :=
    pure (compiler.compile source references imports)
  diagnostics handle := pure handle.diagnostics

end DetectorBench
