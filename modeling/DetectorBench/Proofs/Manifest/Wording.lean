import DetectorBench.Proofs.Manifest.Remarks
import DetectorBench.Proofs.Metadata.Precedence
import DetectorBench.Proofs.Record.Causes

/-!
# How messages about manifests are worded

What is said of a manifest quotes names from it as they are written, and a name
may hold a line break like any other text. Nothing else in a message can: where
the names that are quoted are of one line (`PlainNames`), every diagnostic and
every violation is. A source that is no manifest has no names, but it may have a
key that no record knows, which is quoted in the same way (`PlainSource`).
-/

namespace DetectorBench

open Json
open Text (OneLine oneLine_append oneLine_ofList oneLine_digits
  oneLine_quoteChar newline_notMem_digits)

/-! ## Faults and diagnostics -/

/-- The place of a fault adds no line. -/
theorem Json.Fault.oneLine_message {fault : Fault}
    (h : OneLine fault.cause.message) (document : Input) :
    OneLine (fault.message document) := by
  unfold Fault.message
  split
  next => exact h
  next place _ =>
    simp only [oneLine_append]
    exact ⟨⟨⟨⟨h, by decide⟩, oneLine_digits _⟩, by decide⟩, oneLine_digits _⟩

/-- Nor do the place and the severity of a diagnostic. -/
theorem Diagnostic.oneLine_render {d : Diagnostic} (h : OneLine d.message) :
    OneLine d.render := by
  obtain ⟨severity, message, location⟩ := d
  have hmessage : '\n' ∉ message.toList := h
  have hseverity : '\n' ∉ severity.name.toList := by cases severity <;> decide
  unfold Diagnostic.render
  rw [oneLine_ofList]
  cases location with
  | none => simp [hmessage, hseverity]
  | some place => simp [hmessage, hseverity, newline_notMem_digits]

/-! ## The records of a manifest -/

open Codec (text_plain flag_plain)

theorem SupportTopic.codec_plain : SupportTopic.codec.Plain := by
  refine Codec.Plain.map (Record.codec_plain (by decide) ?_) _ _
  exact ⟨by decide, text_plain, by decide, text_plain, trivial⟩

/-- No fault of a definition breaks the line. -/
theorem Definition.codec_plain : Definition.codec.Plain := by
  refine Codec.Plain.map (Record.codec_plain (by decide) ?_) _ _
  exact ⟨by decide, text_plain, by decide, text_plain, by decide, text_plain,
    by decide, text_plain.optional, by decide, text_plain.optional,
    by decide, SupportTopic.codec_plain.list, trivial⟩

/-- No fault of a resource filter breaks the line. -/
theorem ResourceFilter.codec_plain : ResourceFilter.codec.Plain := by
  refine Codec.Plain.map (Record.codec_plain (by decide) ?_) _ _
  exact ⟨by decide, text_plain, by decide, flag_plain, trivial⟩

theorem SystemFilter.codec_plain : SystemFilter.codec.Plain := by
  refine Codec.Plain.map (Record.codec_plain (by decide) ?_) _ _
  exact trivial

/-- No fault of an entry breaks the line, unless an unknown key does. -/
theorem EntryDeclaration.codec_plain : EntryDeclaration.codec.Plain := by
  refine Codec.Plain.map (Record.codec_plain (by decide) ?_) _ _
  exact ⟨by decide, text_plain, by decide, text_plain, trivial⟩

namespace Manifest

/-- **Reading a manifest faults plainly.** -/
theorem codec_plain : codec.Plain := by
  refine Codec.Plain.map (Record.codec_plain (by decide) ?_) _ _
  exact ⟨by decide, EntryDeclaration.codec_plain,
    by decide, Definition.codec_plain.optional,
    by decide, ResourceFilter.codec_plain.optional,
    by decide, SystemFilter.codec_plain.optional,
    by decide, text_plain.list, by decide, text_plain.list, trivial⟩

/-! ## Plain sources -/

/-- The names in a manifest that a message may quote are of one line. -/
structure PlainNames (m : Manifest) : Prop where
  entry : OneLine m.entry.name
  routine : OneLine m.entry.routine
  references : ∀ name ∈ m.references, OneLine name
  imports : ∀ name ∈ m.imports, OneLine name
  id : ∀ d, m.metadata.definition = some d → OneLine d.id
  author : ∀ d, m.metadata.definition = some d → OneLine d.author

/-- Whatever a message may quote from a source is of one line. -/
structure PlainSource (source : String) : Prop where
  names : ∀ m, parse source = .ok m → PlainNames m
  key : ∀ fault name known, codec.readDocument (symbolsOfText source) =
    .error fault → fault.cause = .unknownField name known → OneLine name

/-- What is said of a source that is no manifest. -/
theorem oneLine_of_parse_error {source : String} {d : Diagnostic}
    (h : PlainSource source) (hparse : parse source = .error d) :
    OneLine d.message := by
  obtain ⟨fault, hread, rfl⟩ := fault_of_parse_error hparse
  have hcause : OneLine fault.cause.message :=
    codec_plain.readDocument _ fault hread fun name known =>
      h.key fault name known hread
  exact oneLine_append.mpr ⟨by decide, Fault.oneLine_message hcause _⟩

/-! ## Diagnostics -/

/-- A remark on a name is one line if the name is. -/
theorem oneLine_remark {what name : String} (hwhat : OneLine what)
    (hname : OneLine name) (allowed : Option (List String))
    (earlier : List String) :
    ∀ d ∈ remark what allowed earlier name, OneLine d.message := by
  unfold remark
  intro d hd
  split at hd
  next =>
    cases List.mem_singleton.mp hd
    simp only [Diagnostic.warning, oneLine_append]
    exact ⟨⟨⟨⟨by decide, hwhat⟩, by decide⟩, hname⟩, by decide⟩
  next =>
    split at hd
    next =>
      cases List.mem_singleton.mp hd
      simp only [Diagnostic.error, oneLine_append]
      exact ⟨⟨⟨hwhat, by decide⟩, hname⟩, by decide⟩
    next => cases hd

/-- So are all remarks on names. -/
theorem oneLine_remarks {what : String} (hwhat : OneLine what)
    (allowed : Option (List String)) {declared : List String}
    (h : ∀ name ∈ declared, OneLine name) :
    ∀ d ∈ remarks what allowed declared, OneLine d.message := by
  intro d hd
  obtain ⟨⟨name, i⟩, hmem, hremark⟩ := List.mem_flatMap.mp hd
  exact oneLine_remark hwhat (h name (List.fst_mem_of_mem_zipIdx hmem)) _ _ d hremark

/-- What is said of a manifest with plain names. -/
theorem oneLine_check {m : Manifest} (h : PlainNames m) (registry : Registry)
    (references imports : Option (List String)) :
    ∀ d ∈ m.check registry references imports, OneLine d.message := by
  intro d hd
  rw [check_eq_remarks, List.mem_append, List.mem_append] at hd
  rcases hd with (hd | hd) | hd
  · exact oneLine_remarks (by decide) _ h.references d hd
  · exact oneLine_remarks (by decide) _ h.imports d hd
  · split at hd
    next => cases hd
    next =>
      cases List.mem_singleton.mp hd
      simp only [unknownRoutine, Diagnostic.error, oneLine_append]
      exact ⟨⟨⟨⟨by decide, h.entry⟩, by decide⟩, h.routine⟩, by decide⟩

/-- Every diagnostic about a plain source is shown in one line. -/
theorem oneLine_diagnostics {source : String} (h : PlainSource source)
    (registry : Registry) (extension : String)
    (references imports : Option (List String)) :
    ∀ d ∈ (Compilation.ofSource registry extension source references
      imports).diagnostics, OneLine d.render := by
  intro d hd
  unfold Compilation.ofSource at hd
  split at hd
  next diagnostic hparse =>
    cases List.mem_singleton.mp hd
    exact d.oneLine_render (oneLine_of_parse_error h hparse)
  next m hparse =>
    exact d.oneLine_render (oneLine_check (h.names m hparse) _ _ _ d hd)

/-! ## Verdicts and missing entry points -/

/-- The warning of a validation quotes nothing. -/
theorem oneLine_warnings {metadata : Metadata} {rules : Rules}
    {verdict : Verdict} (h : metadata.validate rules = .ok verdict) :
    ∀ line ∈ verdict.warnings, OneLine line := by
  intro line hline
  rw [(Metadata.validate_eq_ok_iff.mp h).2] at hline
  rcases Metadata.warnings_eq_iff.mp rfl with ⟨-, -, heq⟩ | ⟨-, heq⟩
  · rw [heq] at hline
    cases List.mem_singleton.mp hline
    decide +kernel
  · rw [heq] at hline
    cases hline

/-- A violation is one line if the texts that it quotes are. -/
theorem oneLine_violation {m : Manifest} (h : PlainNames m) {rules : Rules}
    {v : Violation} (hv : m.metadata.validate rules = .error v) :
    OneLine v.message := by
  have hvalue : ∀ field d, m.metadata.definition = some d →
      OneLine (NameField.text d field) := by
    intro field d hd
    cases field with
    | id => exact h.id d hd
    | author => exact h.author d hd
  have htitle : ∀ field : NameField, OneLine field.title := by
    intro field
    cases field <;> decide
  cases Metadata.validate_eq_error_iff.mp hv with
  | conflictingFilters => decide
  | definition declared first =>
    cases first with
    | emptyId | emptyName | emptyAuthor => decide
    | @reservedCharacter field c =>
      unfold Violation.message
      simp only [oneLine_append]
      exact ⟨⟨⟨⟨⟨⟨⟨htitle field, by decide⟩, hvalue field _ declared⟩, by decide⟩,
        oneLine_quoteChar c⟩, by decide⟩, htitle field⟩, by decide⟩
    | incompleteTopic =>
      unfold Violation.message
      simp only [oneLine_append]
      exact ⟨⟨by decide, oneLine_digits _⟩, by decide⟩

/-- The image of a manifest is asked for an entry point that it does not
have. -/
theorem oneLine_of_resolve {m : Manifest} (hentry : OneLine m.entry.name)
    {signature : Signature} (hsignature : OneLine signature.name)
    {name message : String} {r : Routine}
    (h : (m.image name r).resolve signature = .error (.compilation message)) :
    OneLine message := by
  have hresolve : (if m.entry.name = signature.name then .ok (m.entryPoint r)
      else .error (m.noEntryPoint signature)) =
        (Except.error (.compilation message) : Except ResolveError EntryPoint) := h
  split at hresolve
  next => cases hresolve
  next =>
    cases hresolve
    simp only [Signature.render, oneLine_append]
    exact ⟨⟨⟨⟨by decide, hsignature, by decide⟩, by decide⟩, hentry⟩, by decide⟩

end Manifest

end DetectorBench
