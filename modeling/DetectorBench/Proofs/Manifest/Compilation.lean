import DetectorBench.Manifest.Compiler
import DetectorBench.Proofs.Host.Pass

/-!
# What a compilation gives away

The image, the artifact and the file of a compilation are all made of its unit,
and there is a unit exactly when nothing that was found is an error, there is a
manifest, and its routine is registered (`unit_eq_ok_iff`). For a compilation of
a source the first of these implies the others.
-/

namespace DetectorBench.Manifest

/-- A manifest with nothing wrong about it has a routine. -/
theorem routine_of_clean {m : Manifest} {registry : Registry}
    {references imports : Option (List String)}
    (h : Diagnostic.anyError (m.check registry references imports) = false) :
    ∃ r, registry.get? m.entry.routine = some r := by
  cases hr : registry.get? m.entry.routine with
  | some r => exact ⟨r, rfl⟩
  | none =>
    have hcontains : registry.contains m.entry.routine = false := by
      rw [Registry.contains, hr]
      rfl
    -- without a routine the last diagnostic is an error
    have hunknown :
        unknownRoutine m.entry ∈ m.check registry references imports := by
      unfold check
      rw [hcontains]
      exact List.mem_append_right _ List.mem_cons_self
    have herror := Diagnostic.anyError_iff.mpr ⟨_, hunknown, rfl⟩
    rw [herror] at h
    cases h

namespace Compilation

/-- A source that is a manifest compiles to that manifest and what there is to
say about it. -/
theorem ofSource_of_parse {source : String} {m : Manifest}
    (h : parse source = .ok m) (registry : Registry) (extension : String)
    (references imports : Option (List String)) :
    ofSource registry extension source references imports =
      ⟨Artifact.fileName m.definitionId? source extension, some m,
        m.check registry references imports, registry⟩ := by
  unfold ofSource
  rw [h]

theorem ofSource_registry (registry : Registry) (extension source : String)
    (references imports : Option (List String)) :
    (ofSource registry extension source references imports).registry = registry := by
  unfold ofSource
  split <;> rfl

theorem unit_eq_ok_iff {c : Compilation} {m : Manifest} {r : Routine} :
    c.unit = .ok (m, r) ↔
      Diagnostic.anyError c.diagnostics = false ∧ c.manifest = some m ∧
        c.registry.get? m.entry.routine = some r := by
  constructor
  · intro h
    unfold unit at h
    split at h
    next => cases h
    next hclean =>
      split at h
      next => cases h
      next m' hm =>
        split at h
        next => cases h
        next r' hr =>
          cases h
          exact ⟨Bool.eq_false_iff.mpr hclean, hm, hr⟩
  · rintro ⟨hclean, hm, hr⟩
    unfold unit
    simp only [hclean, hm, hr, Bool.false_eq_true, if_false]

/-- The image is made of the unit. -/
theorem emit_eq_ok_iff {c : Compilation} {image : Image} :
    c.emit = .ok image ↔ ∃ m r, c.unit = .ok (m, r) ∧ image = m.image c.name r := by
  unfold emit
  cases hu : c.unit with
  | error failure => simp [Except.map]
  | ok unit =>
    obtain ⟨m, r⟩ := unit
    constructor
    · intro h
      cases h
      exact ⟨m, r, rfl, rfl⟩
    · rintro ⟨m', r', heq, rfl⟩
      cases heq
      rfl

/-- What is packed of a compilation are the bytes of its manifest. -/
theorem artifact_of_unit {c : Compilation} {m : Manifest} {r : Routine}
    (h : c.unit = .ok (m, r)) :
    c.artifact = .ok (.pack c.name m.bytes.data.toList) := by
  unfold artifact
  rw [h]
  rfl

/-- What is written of a compilation does not depend on anything else than the
unit. -/
theorem save_congr {f : Type → Type} [Monad f] {c c' : Compilation}
    (h : c.unit = c'.unit) (disk : Disk f) (path : String) :
    c.save disk path = c'.save disk path := by
  unfold save
  rw [h]

/-- A source that is a manifest with nothing wrong about it is given away, with
its routine. -/
theorem unit_of_parse {source : String} {m : Manifest} {r : Routine}
    {registry : Registry} {references imports : Option (List String)}
    (h : parse source = .ok m)
    (hclean : Diagnostic.anyError (m.check registry references imports) = false)
    (hr : registry.get? m.entry.routine = some r) (extension : String) :
    (ofSource registry extension source references imports).unit = .ok (m, r) := by
  rw [ofSource_of_parse h, unit_eq_ok_iff]
  exact ⟨hclean, rfl, hr⟩

end Compilation

end DetectorBench.Manifest
