import DetectorBench.Proofs.Manifest.Compilation
import DetectorBench.Proofs.Record.RoundTrip
import DetectorBench.Routine.Builtin

/-!
# The canonical text of a manifest

A manifest is written as its canonical text and read back from it, as text and
as bytes. So compiling the canonical text of a manifest finds what compiling any
other source of the manifest finds, and gives away the same bytes: normalization
is a fixpoint.
-/

namespace DetectorBench

open Json

/-! ## The records that a manifest is made of -/

theorem Codec.text_follows {height : Nat} : Codec.text.Follows height :=
  (Codec.textAs_follows _).mono (Nat.zero_le height)

/-- A text is decoded as the text it is encoded as. -/
theorem Codec.text_lawful : Codec.text.Lawful :=
  Codec.textAs_lawful _

open Codec (text_follows text_lawful)

/-- A support topic is a flat record. -/
theorem SupportTopic.codec_follows : SupportTopic.codec.Follows 1 := by
  refine Codec.Follows.map (Record.codec_follows ?_) _ _
  exact ⟨text_follows, text_follows, trivial⟩

theorem SupportTopic.codec_lawful : SupportTopic.codec.Lawful := by
  refine Codec.Lawful.map (Record.codec_lawful ?_ (by decide)) fun _ => rfl
  exact ⟨Field.required_lawful _ text_lawful,
    Field.required_lawful _ text_lawful, trivial⟩

/-- The support topics are a list in a definition. -/
theorem Definition.codec_follows : Definition.codec.Follows 3 := by
  refine Codec.Follows.map (Record.codec_follows ?_) _ _
  exact ⟨text_follows, text_follows, text_follows,
    Codec.optional_follows text_follows,
    Codec.optional_follows text_follows,
    Codec.list_follows SupportTopic.codec_follows, trivial⟩

theorem Definition.codec_lawful : Definition.codec.Lawful := by
  have hnull : ∀ s, Codec.text.encode s ≠ .null := fun _ => nofun
  refine Codec.Lawful.map (Record.codec_lawful ?_ (by decide)) fun _ => rfl
  exact ⟨Field.required_lawful _ text_lawful, Field.required_lawful _ text_lawful,
    Field.required_lawful _ text_lawful, Field.maybe_lawful _ text_lawful hnull,
    Field.maybe_lawful _ text_lawful hnull,
    Field.withDefault_lawful _ SupportTopic.codec_lawful.list _, trivial⟩

/-- A resource filter is a flat record. -/
theorem ResourceFilter.codec_follows : ResourceFilter.codec.Follows 1 := by
  refine Codec.Follows.map (Record.codec_follows ?_) _ _
  exact ⟨text_follows, Codec.flag_follows, trivial⟩

theorem ResourceFilter.codec_lawful : ResourceFilter.codec.Lawful := by
  refine Codec.Lawful.map (Record.codec_lawful ?_ (by decide)) fun _ => rfl
  exact ⟨Field.withDefault_lawful _ text_lawful _,
    Field.withDefault_lawful _ Codec.flag_lawful _,
    trivial⟩

/-- A system filter is a flat record without fields. -/
theorem SystemFilter.codec_follows : SystemFilter.codec.Follows 1 := by
  refine Codec.Follows.map (Record.codec_follows ?_) _ _
  exact trivial

theorem SystemFilter.codec_lawful : SystemFilter.codec.Lawful := by
  refine Codec.Lawful.map (Record.codec_lawful ?_ (by decide)) fun _ => rfl
  exact trivial

/-- An entry is a flat record. -/
theorem EntryDeclaration.codec_follows : EntryDeclaration.codec.Follows 1 := by
  refine Codec.Follows.map (Record.codec_follows ?_) _ _
  exact ⟨text_follows, text_follows, trivial⟩

/-- A name that is left out is the canonical one again. -/
theorem EntryDeclaration.codec_lawful : EntryDeclaration.codec.Lawful := by
  refine Codec.Lawful.map (Record.codec_lawful ?_ (by decide)) fun _ => rfl
  exact ⟨Field.withDefault_lawful _ text_lawful _,
    Field.required_lawful _ text_lawful, trivial⟩

namespace Manifest

/-- A definition is one bracket more in a manifest. -/
theorem codec_follows : codec.Follows 4 := by
  have hentry := EntryDeclaration.codec_follows.mono (show 1 ≤ 3 by omega)
  have hresource := ResourceFilter.codec_follows.mono (show 1 ≤ 3 by omega)
  have hsystem := SystemFilter.codec_follows.mono (show 1 ≤ 3 by omega)
  refine Codec.Follows.map (Record.codec_follows ?_) _ _
  exact ⟨hentry, Codec.optional_follows Definition.codec_follows,
    Codec.optional_follows hresource,
    Codec.optional_follows hsystem, Codec.list_follows text_follows,
    Codec.list_follows text_follows, trivial⟩

/-- **Decoding undoes encoding for every manifest.** -/
theorem codec_lawful : codec.Lawful := by
  refine Codec.Lawful.map (Record.codec_lawful ?_ (by decide)) fun _ => rfl
  exact ⟨Field.required_lawful _ EntryDeclaration.codec_lawful,
    Field.maybe_lawful _ Definition.codec_lawful fun _ => nofun,
    Field.maybe_lawful _ ResourceFilter.codec_lawful fun _ => nofun,
    Field.maybe_lawful _ SystemFilter.codec_lawful fun _ => nofun,
    Field.listing_lawful _ text_lawful, Field.listing_lawful _ text_lawful, trivial⟩

/-! ## The text and the bytes -/

/-- The canonical text is the printed form of the encoded manifest. -/
theorem symbolsOfText_text (m : Manifest) :
    symbolsOfText m.text = symbols ((codec.encode m).write (.pretty 0)) := by
  show (String.ofList _).toList.map Symbol.char = _
  rw [String.toList_ofList]
  rfl

/-- A manifest is read back from the symbols of its canonical text. -/
theorem readDocument_text (m : Manifest) :
    codec.readDocument (symbolsOfText m.text) = .ok m := by
  rw [symbolsOfText_text]
  exact Codec.readDocument_write codec_follows (by decide) codec_lawful (.pretty 0) m

/-- Another wording of the fault does not change what is read. -/
theorem mapError_eq_ok_iff {ε ε' α : Type} (f : ε → ε') {x : Except ε α}
    {a : α} :
    x.mapError f = .ok a ↔ x = .ok a := by
  cases x with
  | error => exact ⟨nofun, nofun⟩
  | ok b =>
    constructor
    · intro h
      cases h
      rfl
    · intro h
      cases h
      rfl

/-- A source is accepted exactly if its symbols are read as a document. -/
theorem parse_eq_ok_iff {source : String} {m : Manifest} :
    parse source = .ok m ↔ codec.readDocument (symbolsOfText source) = .ok m :=
  mapError_eq_ok_iff _

/-- Bytes are accepted exactly if their symbols are. -/
theorem ofBytes_eq_ok_iff {bytes : ByteArray} {m : Manifest} :
    ofBytes bytes = .ok m ↔ codec.readDocument (symbolsOfBytes bytes) = .ok m :=
  mapError_eq_ok_iff _

/-- **A manifest is read back from its canonical text.** -/
theorem parse_text (m : Manifest) : parse m.text = .ok m :=
  parse_eq_ok_iff.mpr (readDocument_text m)

theorem fromUTF8?_toUTF8 (s : String) : String.fromUTF8? s.toUTF8 = some s := by
  show (if h : s.toByteArray.IsValidUTF8 then
    some (String.fromUTF8 s.toByteArray h) else none) = _
  rw [dif_pos s.isValidUTF8]
  rfl

/-- Bytes that are the bytes of a text are read as the text. -/
theorem symbolsOfBytes_toUTF8 (s : String) :
    symbolsOfBytes s.toUTF8 = symbolsOfText s := by
  unfold symbolsOfBytes
  rw [fromUTF8?_toUTF8]

/-- **A manifest is read back from the bytes of its canonical text.** -/
theorem ofBytes_bytes (m : Manifest) : ofBytes m.bytes = .ok m := by
  unfold bytes
  rw [ofBytes_eq_ok_iff, symbolsOfBytes_toUTF8]
  exact readDocument_text m

/-! ## Normalization -/

/-- **Normalization is a fixpoint**: a manifest is read back from its canonical
text and from the bytes of it. And wherever a source of the manifest compiles,
its canonical text compiles with the same diagnostics, and if these hold no
error, to the same bytes, packed or saved. -/
theorem text_round_trip (m : Manifest) :
    ofBytes m.bytes = .ok m ∧ parse m.text = .ok m ∧
      ∀ source, parse source = .ok m → ∀ registry extension references imports,
        let c := Compilation.ofSource registry extension source references imports
        let c' := Compilation.ofSource registry extension m.text references imports
        c'.diagnostics = c.diagnostics ∧
          (Diagnostic.anyError c.diagnostics = false →
            c.artifact = .ok (.pack c.name m.bytes.data.toList) ∧
              c'.artifact = .ok (.pack c'.name m.bytes.data.toList) ∧
              ∀ {f : Type → Type} [Monad f] (disk : Disk f) (path : String),
                c'.save disk path = c.save disk path) := by
  refine ⟨ofBytes_bytes m, parse_text m, ?_⟩
  intro source hsource registry extension references imports c c'
  have hc : c.diagnostics = m.check registry references imports :=
    congrArg Compilation.diagnostics (Compilation.ofSource_of_parse hsource ..)
  have hc' : c'.diagnostics = m.check registry references imports :=
    congrArg Compilation.diagnostics
      (Compilation.ofSource_of_parse (parse_text m) ..)
  refine ⟨hc'.trans hc.symm, ?_⟩
  intro hclean
  rw [hc] at hclean
  obtain ⟨r, hr⟩ := routine_of_clean hclean
  have hunit : c.unit = .ok (m, r) :=
    Compilation.unit_of_parse hsource hclean hr extension
  have hunit' : c'.unit = .ok (m, r) :=
    Compilation.unit_of_parse (parse_text m) hclean hr extension
  refine ⟨Compilation.artifact_of_unit hunit,
    Compilation.artifact_of_unit hunit', ?_⟩
  intro f _ disk path
  exact Compilation.save_congr (hunit'.trans hunit.symm) disk path

/-- There is a source other than the canonical text for which this says
something: it has an escape in it, and is spaced and ordered differently. -/
theorem text_round_trip_escaped_routine :
    ∃ m source, parse source = .ok m ∧
      let c :=
        Compilation.ofSource Routine.builtin "unit" source none (some ["time"])
      let c' :=
        Compilation.ofSource Routine.builtin "unit" m.text none (some ["time"])
      c'.diagnostics = c.diagnostics ∧ Diagnostic.anyError c.diagnostics = false ∧
        c'.artifact = .ok (.pack c'.name m.bytes.data.toList) := by
  have hsource :
      parse
        "\x7b \"imports\":[ \"time\" ],\"entry\":\x7b\"routine\":\"ech\\u006f\"\x7d\x7d" =
        .ok ⟨⟨"run", "echo"⟩, .empty, [], ["time"]⟩ := rfl
  have h :=
    (text_round_trip _).2.2 _ hsource Routine.builtin "unit" none (some ["time"])
  exact ⟨_, _, hsource, h.1, rfl, (h.2 rfl).2.1⟩

end Manifest

end DetectorBench
