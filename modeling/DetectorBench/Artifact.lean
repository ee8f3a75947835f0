import DetectorBench.Artifact.Base64
import DetectorBench.Artifact.Sha256
import DetectorBench.Failure
import DetectorBench.Validation

/-!
# Artifacts

An exported unit that travels as text: a file name and the base64 text of its
bytes. The file name is made from the id of the definition, characters that no
file name may hold being replaced, or else from the digest of the source. The
extension is taken as it comes.
-/

namespace DetectorBench

/-- A named payload. -/
structure Artifact where
  name : String
  payload : String
  deriving DecidableEq, Repr

namespace Artifact

/-- How an artifact is read and written. -/
def codec : Codec Artifact :=
  Codec.map
    (Record.codec
      { name := "ArtifactBytes"
        strict := false
        fields :=
          .cons (.required "name" .text) (.cons (.required "payload" .text) .nil) })
    (fun (name, payload, ()) => ⟨name, payload⟩)
    (fun a => (a.name, a.payload, ()))

/-- The artifact of some bytes. -/
def pack (name : String) (bytes : List UInt8) : Artifact :=
  ⟨name, String.ofList (Base64.encode bytes)⟩

/-- The bytes of an artifact. -/
def unpack (a : Artifact) : Except Failure (List UInt8) :=
  (Base64.decode a.payload.toUTF8.data.toList).mapError fun fault =>
    (Failure.ofMessage fault.message).inContext
      ("artifact '" ++ a.name ++ "' has a malformed payload")

/-- The extension of exported files unless another one is set. -/
def defaultExtension : String := "detector"

/-- The hexadecimal digest of a source. -/
def sourceDigest (source : String) : String :=
  String.ofList (Sha256.hexDigest source.toUTF8.data.toList)

/-- How many digits of the digest make a file name. -/
def stemDigits : Nat := 16

/-- A text with every character replaced that no file name may hold, whatever
rules a host validates by. -/
def sanitize (cs : List Char) : List Char :=
  cs.map fun c => if Rules.default.refuses c then '_' else c

/-- The file name without its extension. -/
def stem (id : Option String) (source : String) : String :=
  let digest :=
    String.ofList ((Sha256.hexDigest source.toUTF8.data.toList).take stemDigits)
  match id with
  | none => digest
  | some id =>
    let id := Text.trimChars id.toList
    if id = [] then digest else String.ofList (sanitize id)

/-- The file name of an exported unit. -/
def fileName (id : Option String) (source extension : String) : String :=
  stem id source ++ "." ++ extension

end Artifact

end DetectorBench
