import DetectorBench.Proofs.Manifest.Checking
import DetectorBench.Proofs.Manifest.Grammar
import DetectorBench.Proofs.Manifest.Reload
import DetectorBench.Proofs.Record.Form

/-!
# The two readers of manifests

A manifest is read from the text of a source and from the bytes of an exported
unit. Of bytes that are the bytes of a text both readers make the same. Other
bytes are not all refused: inside a value that nobody asked for, a byte that is
part of no character is passed over like any other (`stray_byte_passes`).

`LaidOut` says where such a byte may stand. It follows the records of a manifest
from the outside in: whatever belongs to one of them is a text of the JSON
grammar, and a value under a key that a record does not know is loose
(`Json.Loose`), where a byte between quotation marks may be part of no
character.

> `readers_agree`: bytes are read as the text that they are shown as, if and
> only if they are laid out so.
-/

namespace DetectorBench

open Json

/-! ## The form of a manifest -/

/-- A support topic may hold keys that nobody asked for. -/
def SupportTopic.form : Form :=
  .record false [("id", .text), ("pes_id", .text)]

/-- So may a definition. -/
def Definition.form : Form :=
  .record false
    [("id", .text), ("name", .text), ("author", .text),
      ("description", .nullable .text),
      ("category", .nullable .text), ("support_topics", .list SupportTopic.form)]

/-- So may a resource filter. -/
def ResourceFilter.form : Form :=
  .record false [("resource_type", .text), ("internal_only", .flag)]

/-- In a system filter nobody asks for anything. -/
def SystemFilter.form : Form :=
  .record false []

/-- An entry has no other keys. -/
def EntryDeclaration.form : Form :=
  .record true [("name", .text), ("routine", .text)]

/-- Nor has a manifest. -/
def Manifest.form : Form :=
  .record true
    [("entry", EntryDeclaration.form), ("definition", .nullable Definition.form),
      ("resource_filter", .nullable ResourceFilter.form),
      ("system_filter", .nullable SystemFilter.form), ("references", .list .text),
      ("imports", .list .text)]

theorem SupportTopic.codec_keepsTo : SupportTopic.codec.KeepsTo form := by
  have text := Codec.textAs_keepsTo "a string"
  exact (Record.codec_keepsTo (.cons text (.cons text .nil))).map _ _

theorem Definition.codec_keepsTo : Definition.codec.KeepsTo form := by
  have text := Codec.textAs_keepsTo "a string"
  have maybe := text.optional fun _ => Form.text_ne_null
  have topics := SupportTopic.codec_keepsTo.list
  exact (Record.codec_keepsTo
    (.cons text (.cons text (.cons text (.cons maybe (.cons maybe
    (.cons topics .nil))))))).map _ _

theorem ResourceFilter.codec_keepsTo : ResourceFilter.codec.KeepsTo form := by
  have text := Codec.textAs_keepsTo "a string"
  exact (Record.codec_keepsTo (.cons text (.cons Codec.flag_keepsTo .nil))).map _ _

theorem SystemFilter.codec_keepsTo : SystemFilter.codec.KeepsTo form :=
  (Record.codec_keepsTo .nil).map _ _

theorem EntryDeclaration.codec_keepsTo :
    EntryDeclaration.codec.KeepsTo form := by
  have text := Codec.textAs_keepsTo "a string"
  exact (Record.codec_keepsTo (.cons text (.cons text .nil))).map _ _

namespace Manifest

/-- **A manifest is read from texts of its form.** -/
theorem codec_keepsTo : codec.KeepsTo form := by
  have names := (Codec.textAs_keepsTo "a string").list
  have definition := Definition.codec_keepsTo.optional fun _ => Form.record_ne_null
  have resourceFilter :=
    ResourceFilter.codec_keepsTo.optional fun _ => Form.record_ne_null
  have systemFilter :=
    SystemFilter.codec_keepsTo.optional fun _ => Form.record_ne_null
  exact (Record.codec_keepsTo (.cons EntryDeclaration.codec_keepsTo (.cons definition
    (.cons resourceFilter
      (.cons systemFilter (.cons names (.cons names .nil))))))).map _ _

theorem codec_mirrored : codec.Mirrored :=
  codec_of_carried Codec.carried_mirrored

/-- Bytes are laid out as a manifest: there may be a byte that is part of no
character, but only between the quotation marks of a text or a key inside a
value that nobody asked for. -/
def LaidOut (bytes : ByteArray) : Prop :=
  form.Document (symbolsOfBytes bytes)

/-- A text that is laid out as a manifest might as well be passed over. -/
theorem form_isLoose : form.IsLoose := by
  have topic : SupportTopic.form.IsLoose :=
    Form.record_isLoose (by simp [Form.text_isLoose])
  have entry : EntryDeclaration.form.IsLoose :=
    Form.record_isLoose (by simp [Form.text_isLoose])
  have definition : Definition.form.IsLoose :=
    Form.record_isLoose
      (by simp [Form.text_isLoose, Form.text_isLoose.nullable, topic.list])
  have resourceFilter : ResourceFilter.form.IsLoose :=
    Form.record_isLoose (by simp [Form.text_isLoose, Form.flag_isLoose])
  have systemFilter : SystemFilter.form.IsLoose :=
    Form.record_isLoose (List.forall_mem_nil _)
  exact Form.record_isLoose (by simp [entry, definition.nullable,
    resourceFilter.nullable, systemFilter.nullable, Form.text_isLoose.list])

/-- Where bytes are laid out as a manifest, those that are part of no character
stand between quotation marks. -/
theorem LaidOut.straysIn {bytes : ByteArray} (h : LaidOut bytes) :
    StraysIn LooseString (symbolsOfBytes bytes) :=
  form_isLoose.straysIn h

/-! ## Reading -/

/-- Bytes that are laid out are read as the text that they are shown as. -/
theorem ofBytes_eq_ok_iff_shown {bytes : ByteArray} {m : Manifest} :
    ofBytes bytes = .ok m ↔ LaidOut bytes ∧ parse (textOfBytes bytes) = .ok m := by
  rw [ofBytes_eq_ok_iff, parse_eq_ok_iff, symbolsOfText_textOfBytes]
  exact codec_keepsTo.readDocument_eq_ok_iff codec_mirrored

/-- The answer of the reader of bytes where a byte that is part of no character
is at fault; `left` bytes stood behind the place of the fault. -/
def spoiledFailure (bytes : ByteArray) (left : Option Nat) : Failure :=
  let fault : Fault := ⟨.invalidCodePoint, left⟩
  (Failure.ofMessage (fault.message (symbolsOfBytes bytes))).inContext
    "artifact is not a detector manifest"

/-- Bytes that are not laid out are refused, though the text may be a
manifest. -/
theorem ofBytes_of_not_laidOut {bytes : ByteArray} {m : Manifest}
    (h : parse (textOfBytes bytes) = .ok m) (hlaid : ¬LaidOut bytes) :
    ∃ left, ofBytes bytes = .error (spoiledFailure bytes left) := by
  rw [parse_eq_ok_iff, symbolsOfText_textOfBytes] at h
  obtain ⟨left, hread⟩ := codec_keepsTo.spoiled codec_mirrored h hlaid
  refine ⟨left, ?_⟩
  unfold ofBytes
  dsimp only
  rw [hread]
  rfl

/-- The bytes of a text are shown as the text. -/
theorem textOfBytes_toUTF8 (source : String) :
    textOfBytes source.toUTF8 = source :=
  textOfBytes_eq (symbolsOfBytes_toUTF8 source)

/-- Of the bytes of a text both readers make the same. -/
theorem ofBytes_toUTF8_eq_ok_iff {source : String} {m : Manifest} :
    ofBytes source.toUTF8 = .ok m ↔ parse source = .ok m := by
  rw [ofBytes_eq_ok_iff, parse_eq_ok_iff, symbolsOfBytes_toUTF8]

/-- The bytes of a manifest are laid out. -/
theorem laidOut_toUTF8 {source : String} {m : Manifest}
    (h : parse source = .ok m) :
    LaidOut source.toUTF8 :=
  (ofBytes_eq_ok_iff_shown.mp (ofBytes_toUTF8_eq_ok_iff.mpr h)).1

/-! ## Loading -/

/-- Compiling a source gives bytes away, unless an error is found; if everything
is allowed, none is. -/
structure Emits (registry : Registry) (source : String) (bytes : ByteArray) :
    Prop where
  packed : ∀ extension references imports,
    let c := Compilation.ofSource registry extension source references imports
    Diagnostic.anyError c.diagnostics = false →
    c.artifact = .ok (.pack c.name bytes.data.toList)
  clean : ∀ extension, Diagnostic.anyError
    (Compilation.ofSource registry extension source none none).diagnostics = false

/-- A source that is a manifest with a registered routine is given away as its
canonical bytes. -/
theorem emits_of_parse {registry : Registry} {source : String} {m : Manifest}
    {r : Routine} (h : parse source = .ok m)
    (hr : registry.get? m.entry.routine = some r) :
    Emits registry source m.bytes := by
  constructor
  · intro extension references imports c hclean
    have hcheck : Diagnostic.anyError (m.check registry references imports) =
        false := by
      rw [← hclean]
      exact congrArg _ (congrArg Compilation.diagnostics
        (Compilation.ofSource_of_parse h ..)).symm
    exact Compilation.artifact_of_unit
      (Compilation.unit_of_parse h hcheck hr extension)
  · intro extension
    rw [Compilation.ofSource_of_parse h]
    refine check_clean_iff.mpr ⟨nofun, nofun, ?_⟩
    unfold Registry.contains
    rw [hr]
    rfl

/-- **The two readers agree** on every byte sequence that is laid out as a
manifest, the text being what it is shown as. Bytes that are part of no
character then stand between quotation marks only, as `LaidOut` says in values
that nobody asked for. The reader of bytes makes a manifest of the bytes exactly
if they are laid out so and the reader of sources makes it of the text. If only
the latter does, the bytes are refused for a byte that is part of no character.
An image can be loaded exactly if, besides, the routine is registered; it is the
image of that manifest, and the canonical bytes of it, of which it can be loaded
as well, are what the text is compiled to. The bytes of a text are shown as that
text, and laid out if it is a manifest, so both readers make the same of
them. -/
theorem readers_agree (registry : Registry) (name : String)
    (bytes : ByteArray) :
    (LaidOut bytes → StraysIn LooseString (symbolsOfBytes bytes)) ∧
    (∀ m, ofBytes bytes = .ok m ↔
      LaidOut bytes ∧ parse (textOfBytes bytes) = .ok m) ∧
    (∀ m, parse (textOfBytes bytes) = .ok m → ¬LaidOut bytes →
      ∃ left, ofBytes bytes = .error (spoiledFailure bytes left)) ∧
    (∀ image, loadImage registry name bytes = .ok image ↔
      LaidOut bytes ∧ ∃ m r, parse (textOfBytes bytes) = .ok m ∧
        registry.get? m.entry.routine = some r ∧ image = m.image name r ∧
        Emits registry (textOfBytes bytes) m.bytes ∧
        loadImage registry name m.bytes = .ok image) ∧
    ∀ source : String, textOfBytes source.toUTF8 = source ∧
      ∀ m, (parse source = .ok m → LaidOut source.toUTF8) ∧
        (ofBytes source.toUTF8 = .ok m ↔ parse source = .ok m) := by
  refine ⟨LaidOut.straysIn, fun m => ofBytes_eq_ok_iff_shown,
    fun m => ofBytes_of_not_laidOut, fun image => ?_, fun source =>
      ⟨textOfBytes_toUTF8 source, fun m => ⟨laidOut_toUTF8, ofBytes_toUTF8_eq_ok_iff⟩⟩⟩
  rw [loadImage_eq_ok_iff]
  constructor
  · rintro ⟨m, r, hm, hr, rfl⟩
    obtain ⟨hlaid, hparse⟩ := ofBytes_eq_ok_iff_shown.mp hm
    exact ⟨hlaid, m, r, hparse, hr, rfl, emits_of_parse hparse hr,
      loadImage_bytes hr name⟩
  · rintro ⟨hlaid, m, r, hparse, hr, himage, -⟩
    exact ⟨m, r, ofBytes_eq_ok_iff_shown.mpr ⟨hlaid, hparse⟩, hr, himage⟩

/-- A manifest with a byte that is part of no character, in a value that nobody
asked for. -/
def strayNote : ByteArray :=
  "\x7b\"entry\":\x7b\"routine\":\"echo\"\x7d,\"system_filter\":\x7b\"note\":\"".toUTF8.push 0xff
    ++ "\"\x7d\x7d".toUTF8

/-- Not all bytes that are read as a manifest are the bytes of a text. -/
theorem stray_byte_passes :
    ¬∀ m, ofBytes strayNote = .ok m ↔
      ∃ source, String.fromUTF8? strayNote = some source ∧ parse source = .ok m := by
  intro h
  have hnone : String.fromUTF8? strayNote = none := by decide +kernel
  have hsome : (ofBytes strayNote).toOption =
      some ⟨⟨Signature.canonical.name, "echo"⟩, ⟨none, none, some ⟨⟩⟩, [], []⟩ := by
    decide +kernel
  cases hread : ofBytes strayNote with
  | error failure =>
    rw [hread] at hsome
    cases hsome
  | ok m =>
    obtain ⟨source, hsource, -⟩ := (h m).mp hread
    rw [hnone] at hsource
    cases hsource

end Manifest

end DetectorBench
