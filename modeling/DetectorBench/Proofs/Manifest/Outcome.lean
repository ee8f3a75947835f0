import DetectorBench.Proofs.Host.Run
import DetectorBench.Proofs.Manifest.Checking

/-!
# Hosts over the compiler of manifests

A compiler in general may break at any time, and a pass then ends in the middle.
The compiler of manifests never breaks: whether there is a unit to give away
depends on the diagnostics alone, because whatever else the unit needs — a
manifest, its routine — is missing only where an error says so
(`Compilation.Steady`). So a pass over the source ends in one of three ways,
told apart by what the source is: `Accepted` says that there is a unit with the
canonical entry point, and validation decides the rest (`Ending`,
`prepare_ending`).
-/

namespace DetectorBench.Manifest

/-! ## Compilations -/

/-- The failure of whoever wants more than diagnostics of a compilation with
errors. -/
def Compilation.errorsFailure (c : Compilation) : Failure :=
  .ofMessage ("cannot emit '" ++ c.name ++ "': the unit has compilation errors")

/-- What a compilation reports and what it gives away go together. A handle
shows the diagnostics, the image and the artifact as they are here. -/
structure Compilation.Steady (c : Compilation) : Prop where
  emits_iff : (∃ image, c.emit = .ok image) ↔
    ¬∃ d ∈ c.diagnostics, d.severity = .error
  packs_iff : (∃ artifact, c.artifact = .ok artifact) ↔
    ¬∃ d ∈ c.diagnostics, d.severity = .error
  /-- There is only one thing that emitting and packing fail for. -/
  failure : ∀ failure, c.emit = .error failure ∨ c.artifact = .error failure →
    failure = c.errorsFailure
  /-- Where there is no error, a manifest was parsed and its routine is
  there. -/
  unit : (¬∃ d ∈ c.diagnostics, d.severity = .error) →
    ∃ manifest r, c.manifest = some manifest ∧
    c.registry.get? manifest.entry.routine = some r
  /-- The attributes of an entry point that was emitted can be folded. -/
  folds : ∀ image signature entry, c.emit = .ok image →
    image.resolve signature = .ok entry →
    ∃ metadata, entry.metadata = .ok metadata

/-- The image of a manifest has one entry point, under the name that is
declared. -/
theorem eq_entryPoint_of_resolve {m : Manifest} {name : String} {r : Routine}
    {signature : Signature} {entry : EntryPoint}
    (h : (m.image name r).resolve signature = .ok entry) :
    entry = m.entryPoint r := by
  have hresolve : (if m.entry.name = signature.name then .ok (m.entryPoint r)
      else .error (m.noEntryPoint signature)) = Except.ok entry := h
  by_cases hname : m.entry.name = signature.name
  · rw [if_pos hname] at hresolve
    cases hresolve
    rfl
  · rw [if_neg hname] at hresolve
    cases hresolve

namespace Compilation

/-- A source with an error is compiled to nothing. -/
theorem unit_of_anyError {c : Compilation}
    (h : Diagnostic.anyError c.diagnostics = true) :
    c.unit = .error c.errorsFailure := by
  unfold unit
  rw [if_pos h]
  rfl

/-- A compilation whose diagnostics have an error gives nothing away. -/
theorem steady_of_error {c : Compilation}
    (herror : ∃ d ∈ c.diagnostics, d.severity = .error) :
    c.Steady := by
  have hunit := unit_of_anyError (Diagnostic.anyError_iff.mpr herror)
  have hemit : c.emit = .error c.errorsFailure := by
    unfold emit
    rw [hunit]
    rfl
  have hartifact : c.artifact = .error c.errorsFailure := by
    unfold artifact
    rw [hunit]
    rfl
  constructor
  · rw [hemit]
    exact ⟨nofun, absurd herror⟩
  · rw [hartifact]
    exact ⟨nofun, absurd herror⟩
  · rintro failure (h | h)
    · rw [hemit] at h
      cases h
      rfl
    · rw [hartifact] at h
      cases h
      rfl
  · exact absurd herror
  · intro image signature entry h
    rw [hemit] at h
    cases h

/-- A compilation that has a unit gives it away. -/
theorem steady_of_unit {c : Compilation} {m : Manifest} {r : Routine}
    (hunit : c.unit = .ok (m, r)) :
    c.Steady := by
  obtain ⟨hclean, hmanifest, hr⟩ := unit_eq_ok_iff.mp hunit
  have hnone : ¬∃ d ∈ c.diagnostics, d.severity = .error := by
    rw [← Diagnostic.anyError_iff, hclean]
    exact nofun
  have hemit : c.emit = .ok (m.image c.name r) :=
    emit_eq_ok_iff.mpr ⟨m, r, hunit, rfl⟩
  have hartifact := artifact_of_unit hunit
  constructor
  · exact ⟨fun _ => hnone, fun _ => ⟨_, hemit⟩⟩
  · exact ⟨fun _ => hnone, fun _ => ⟨_, hartifact⟩⟩
  · rintro failure (h | h)
    · rw [hemit] at h
      cases h
    · rw [hartifact] at h
      cases h
  · exact fun _ => ⟨m, r, hmanifest, hr⟩
  · intro image signature entry h hresolve
    rw [hemit] at h
    cases h
    rw [eq_entryPoint_of_resolve hresolve]
    exact ⟨_, metadata_entryPoint m r⟩

/-- What is found of a source is an error, or the unit of the manifest that it
is. -/
theorem ofSource_error_or_unit (registry : Registry) (extension source : String)
    (references imports : Option (List String)) :
    let c := ofSource registry extension source references imports
    (∃ d ∈ c.diagnostics, d.severity = .error) ∨
      ∃ m r, parse source = .ok m ∧ c.unit = .ok (m, r) ∧
        Diagnostic.anyError (m.check registry references imports) = false := by
  cases hparse : parse source with
  | error d =>
    -- a source that is no manifest has one diagnostic, which is an error
    refine Or.inl ⟨d, ?_, severity_of_parse_error hparse⟩
    unfold ofSource
    rw [hparse]
    exact List.mem_singleton_self d
  | ok m =>
    cases hcheck : Diagnostic.anyError (m.check registry references imports) with
    | true =>
      refine Or.inl ?_
      rw [ofSource_of_parse hparse]
      exact Diagnostic.anyError_iff.mp hcheck
    | false =>
      obtain ⟨r, hr⟩ := routine_of_clean hcheck
      exact Or.inr ⟨m, r, rfl, unit_of_parse hparse hcheck hr extension, hcheck⟩

/-- A source is compiled to something exactly where no error is reported. -/
theorem ofSource_steady (registry : Registry) (extension source : String)
    (references imports : Option (List String)) :
    (ofSource registry extension source references imports).Steady := by
  rcases ofSource_error_or_unit registry extension source references imports with
    herror | ⟨m, r, -, hunit, -⟩
  · exact steady_of_error herror
  · exact steady_of_unit hunit

end Compilation

/-! ## Passes -/

/-- A source is a manifest that a host has no reason to turn down before it
validates: everything that is declared is permitted, the routine is registered,
and the entry point has the canonical name. -/
structure Accepted (registry : Registry) (source : String)
    (references imports : Option (List String))
    (m : Manifest) : Prop where
  parsed : parse source = .ok m
  references : Permitted references m.references
  imports : Permitted imports m.imports
  routine : registry.contains m.entry.routine = true
  entry : m.entry.name = "run"

/-- The three ways in which a pass over a source ends. -/
inductive Ending (registry : Registry) (source : String)
    (references imports : Option (List String))
    (rules : Rules) : Stage → Prop where
  | ready {m : Manifest} {verdict : Verdict}
    (accepted : Accepted registry source references imports m)
    (validate : m.metadata.validate rules = .ok verdict) :
    Ending registry source references imports rules .ready
  | refused {m : Manifest} {v : Violation}
    (accepted : Accepted registry source references imports m)
    (validate : m.metadata.validate rules = .error v) :
    Ending registry source references imports rules .validationFailed
  | rejected
    (unaccepted : ¬∃ m, Accepted registry source references imports m) :
    Ending registry source references imports rules .compiledFailed

section Ending

variable {registry : Registry} {source : String}
  {references imports : Option (List String)}
  {rules : Rules} {stage stage' : Stage} {m m' : Manifest}

/-- A source is one manifest at most. -/
theorem Accepted.unique (h : Accepted registry source references imports m)
    (h' : Accepted registry source references imports m') : m = m' := by
  have heq := h.parsed.symm.trans h'.parsed
  cases heq
  rfl

/-- What is accepted has no error to report. -/
theorem Accepted.clean (h : Accepted registry source references imports m)
    (extension : String) :
    ¬∃ d ∈ (Compilation.ofSource registry extension source references
      imports).diagnostics, d.severity = .error := by
  rw [Compilation.ofSource_of_parse h.parsed, ← Diagnostic.anyError_iff,
    check_clean_iff.mpr ⟨h.references, h.imports, h.routine⟩]
  exact Bool.false_ne_true

/-- The three ways exclude each other. -/
theorem Ending.unique
    (e : Ending registry source references imports rules stage)
    (e' : Ending registry source references imports rules stage') :
    stage = stage' := by
  cases e with
  | ready accepted validate =>
    cases e' with
    | ready => rfl
    | refused accepted' validate' =>
      cases accepted.unique accepted'
      rw [validate] at validate'
      cases validate'
    | rejected unaccepted => exact absurd ⟨_, accepted⟩ unaccepted
  | refused accepted validate =>
    cases e' with
    | ready accepted' validate' =>
      cases accepted.unique accepted'
      rw [validate] at validate'
      cases validate'
    | refused => rfl
    | rejected unaccepted => exact absurd ⟨_, accepted⟩ unaccepted
  | rejected unaccepted =>
    cases e' with
    | ready accepted | refused accepted => exact absurd ⟨_, accepted⟩ unaccepted
    | rejected => rfl

/-- A host is ready exactly if a manifest was accepted and validated. -/
theorem Ending.ready_iff
    (e : Ending registry source references imports rules stage) :
    stage = .ready ↔ ∃ m, Accepted registry source references imports m ∧
      ∃ verdict, m.metadata.validate rules = .ok verdict := by
  constructor
  · rintro rfl
    cases e with
    | ready accepted validate => exact ⟨_, accepted, _, validate⟩
  · rintro ⟨m, accepted, verdict, validate⟩
    exact e.unique (.ready accepted validate)

/-- Validation has failed exactly if a manifest was accepted and breaks a
rule. -/
theorem Ending.refused_iff
    (e : Ending registry source references imports rules stage) :
    stage = .validationFailed ↔ ∃ m, Accepted registry source references imports m ∧
      ∃ v, m.metadata.validate rules = .error v := by
  constructor
  · rintro rfl
    cases e with
    | refused accepted validate => exact ⟨_, accepted, _, validate⟩
  · rintro ⟨m, accepted, v, validate⟩
    exact e.unique (.refused accepted validate)

/-- Compilation has failed exactly if no manifest was accepted. -/
theorem Ending.rejected_iff
    (e : Ending registry source references imports rules stage) :
    stage = .compiledFailed ↔
      ¬∃ m, Accepted registry source references imports m := by
  constructor
  · rintro rfl
    cases e with
    | rejected unaccepted => exact unaccepted
  · exact fun unaccepted => e.unique (.rejected unaccepted)

/-- A pass over a source never stops at compiling. -/
theorem Ending.ne_compiling
    (e : Ending registry source references imports rules stage) :
    stage ≠ .compiling := by
  cases e <;> exact nofun

end Ending

variable {f : Type → Type} [Monad f]

/-- The first four stages of a pass go well when the compilation has a unit:
compiling never breaks, and what it leaves is the handle of the compilation. -/
theorem checked_of_unit (disk : Disk f) {registry : Registry}
    {extension : String} {h : Host} {m : Manifest} {r : Routine}
    (hunit : (Compilation.ofSource registry extension h.unit.script h.references
      h.imports).unit = .ok (m, r)) :
    let c := Compilation.ofSource registry extension h.unit.script h.references
      h.imports
    Host.Checked h (compiler disk registry extension) (c.handle disk) c.diagnostics ∧
      (c.handle disk).emit = .ok (m.image c.name r) := by
  intro c
  have hclean : ¬∃ d ∈ c.diagnostics, d.severity = .error := by
    rw [← Diagnostic.anyError_iff, (Compilation.unit_eq_ok_iff.mp hunit).1]
    exact Bool.false_ne_true
  exact ⟨⟨rfl, rfl, hclean⟩, Compilation.emit_eq_ok_iff.mpr ⟨m, r, hunit, rfl⟩⟩

/-- A pass over the source is answered without failure, and ends in one of the
three ways. -/
theorem prepare_ending (disk : Disk f) (registry : Registry)
    (extension : String) (h : Host) :
    ∃ after, h.prepare (compiler disk registry extension) = (.ok (), after) ∧
      Ending registry h.unit.script h.references h.imports h.settings.rules
        after.stage := by
  let c := Compilation.ofSource registry extension h.unit.script h.references
    h.imports
  have hcompile : (compiler disk registry extension).compile h.unit.script
      h.references h.imports = .ok (c.handle disk) := rfl
  by_cases herror : ∃ d ∈ c.diagnostics, d.severity = .error
  · refine ⟨_, (Host.Pass.erroneous hcompile rfl herror).prepare_eq, .rejected ?_⟩
    rintro ⟨m, accepted⟩
    exact accepted.clean extension herror
  · obtain ⟨m, r, hparse, hunit, hcheck⟩ :=
      (Compilation.ofSource_error_or_unit registry extension h.unit.script
        h.references h.imports).resolve_left herror
    obtain ⟨checked, hemit⟩ := checked_of_unit disk hunit
    obtain ⟨hreferences, himports, hroutine⟩ := check_clean_iff.mp hcheck
    by_cases hname : m.entry.name = "run"
    · have accepted : Accepted registry h.unit.script h.references h.imports m :=
        ⟨hparse, hreferences, himports, hroutine, hname⟩
      have hresolve : (m.image c.name r).resolve (c.handle disk).signature =
          .ok (m.entryPoint r) :=
        if_pos hname
      have hextract := metadata_entryPoint m r
      cases hvalidate : m.metadata.validate h.settings.rules with
      | error v =>
        exact ⟨_, (Host.Pass.refused checked hemit hresolve hextract
          hvalidate).prepare_eq, .refused accepted hvalidate⟩
      | ok verdict =>
        exact ⟨_, (Host.Pass.ready checked hemit hresolve hextract
          hvalidate).prepare_eq, .ready accepted hvalidate⟩
    · have hresolve : (m.image c.name r).resolve (c.handle disk).signature =
          .error (m.noEntryPoint .canonical) := if_neg hname
      refine ⟨_, (Host.Pass.absent checked hemit hresolve).prepare_eq, .rejected ?_⟩
      rintro ⟨m', accepted⟩
      -- the manifest is the one that was parsed
      have heq := accepted.parsed.symm.trans hparse
      cases heq
      exact hname accepted.entry

/-- **A pass with the compiler of manifests.** Whatever was done with a host
before, the pass is answered without failure and does not stop in the middle.
The host becomes ready if the source is a manifest that is accepted and whose
metadata break no rule, fails at validation if they break one, and fails at
compilation if the source is not accepted. It never comes to more, because a
compilation of any source fails to give away its unit for nothing else than an
error among its diagnostics. -/
theorem prepare_stage_iff (disk : Disk f) (registry : Registry)
    (extension : String) (unit : SourceUnit)
    (references imports : Option (List String)) (settings : Settings)
    (ops : List (Operation f)) :
    (∃ after, ((Host.ofUnit unit references imports settings).run ops).prepare
          (compiler disk registry extension) = (.ok (), after) ∧
        after.stage ≠ .compiling ∧
        (after.stage = .ready ↔
          ∃ m, Accepted registry unit.script references imports m ∧
          ∃ verdict, m.metadata.validate settings.rules = .ok verdict) ∧
        (after.stage = .validationFailed ↔
          ∃ m, Accepted registry unit.script references imports m ∧
          ∃ v, m.metadata.validate settings.rules = .error v) ∧
        (after.stage = .compiledFailed ↔
          ¬∃ m, Accepted registry unit.script references imports m)) ∧
      ∀ source references imports,
        ∃ c : Compilation,
          (compiler disk registry extension).compile source references imports =
            .ok (c.handle disk) ∧ c.registry = registry ∧ c.Steady := by
  refine ⟨?_, ?_⟩
  · have hsame := Host.run_sameSetup (.ofUnit unit references imports settings) ops
    obtain ⟨after, heq, ending⟩ := prepare_ending disk registry extension
      ((Host.ofUnit unit references imports settings).run ops)
    rw [hsame.unit, hsame.references, hsame.imports, hsame.settings] at ending
    exact ⟨after, heq, ending.ne_compiling, ending.ready_iff, ending.refused_iff,
      ending.rejected_iff⟩
  · intro source references imports
    exact ⟨_, rfl, Compilation.ofSource_registry registry extension source
      references imports, Compilation.ofSource_steady registry extension source
        references imports⟩

end DetectorBench.Manifest
