import DetectorBench.Proofs.Host.Run
import DetectorBench.Proofs.Metadata.Validation

/-!
# What readiness promises

A host can become ready in two ways, and only the one over the source validates.
So what the rules ask for can be relied on exactly when the last pass was one
over the source (`vouched_of_ready`): the metadata is sound under the settings
that the host was set up with, and behind the diagnostics stands the warning
about exposed topics if it is called for, and else nothing.

Nothing is assumed of compilers and images. A pass over the source has one rule
that ends in readiness, and validation is one of its premises (`Pass.vouched`);
what was done before that pass is forgotten, and what is done after it changes
nothing or ends readiness (`run_of_lastPass`).
-/

namespace DetectorBench

namespace Host

variable {m : Type → Type}

/-- What a pass over the source vouches for when it leaves a host ready; `ds`
are the diagnostics that it found. -/
structure Vouched (h : Host) (settings : Settings) (ds : List Diagnostic) :
    Prop where
  sound : h.metadata.Sound settings.rules
  /-- What validation added to the diagnostics is the warning or nothing. -/
  warned : ∃ added, h.output = linesOf ds ++ added ∧
    ((added = [internalTopicsWarning] ∧ settings.warnInternalTopics = true ∧
      h.metadata.Exposes) ∨ (added = [] ∧
      ¬(settings.warnInternalTopics = true ∧ h.metadata.Exposes)))

/-- The warning is given when it is switched on and called for. -/
theorem warnings_cases (metadata : Metadata) (rules : Rules) :
    (metadata.warnings rules = [internalTopicsWarning] ∧
      rules.warnInternalTopics = true ∧
        metadata.Exposes) ∨
      (metadata.warnings rules = [] ∧
        ¬(rules.warnInternalTopics = true ∧ metadata.Exposes)) := by
  unfold Metadata.warnings
  rw [← Metadata.exposesInternal_iff, ← Bool.and_eq_true]
  by_cases hwarn : (rules.warnInternalTopics && metadata.exposesInternal) = true
  · rw [if_pos hwarn]
    exact Or.inl ⟨rfl, hwarn⟩
  · rw [if_neg hwarn]
    exact Or.inr ⟨rfl, hwarn⟩

/-- Only one rule of a pass over the source ends in readiness, and it has
validated. -/
theorem Pass.vouched {h after : Host} {compiler : Compiler m}
    {result : Except HostError Unit} (p : Pass h compiler result after)
    (hready : after.stage = .ready) :
    ∃ handle ds, Checked h compiler handle ds ∧ after.Vouched h.settings ds := by
  cases p with
  | uncompiled | unreported | erroneous | unemitted | unresolved | absent
  | repeated | refused =>
    cases hready
  | @ready handle ds image entry metadata verdict checked emit resolve extract
      validate =>
    obtain ⟨hsound, rfl⟩ := Metadata.validate_eq_ok_iff.mp validate
    exact ⟨handle, ds, checked, hsound, _, rfl,
      warnings_cases metadata h.settings.rules⟩

/-- **A ready host has been validated**, if its last pass was one over the
source: whatever compilers and images answered before and since, the metadata
that it holds is sound under its settings, and the warning about exposed topics
was added to the diagnostics of that pass if and only if it is switched on and
called for. -/
theorem vouched_of_ready [Monad m] (unit : SourceUnit)
    (references imports : Option (List String)) (settings : Settings)
    (ops : List (Operation m)) (compiler : Compiler m)
    (hlast : lastPass? ops = some (.prepare compiler))
    (hready : ((ofUnit unit references imports settings).run ops).stage = .ready) :
    ∃ handle ds, compiler.compile unit.script references imports = .ok handle ∧
      handle.diagnostics = .ok ds ∧
      ((ofUnit unit references imports settings).run ops).Vouched settings ds := by
  obtain ⟨before, hsame, hafter⟩ :=
    run_of_lastPass hlast (ofUnit unit references imports settings)
  have pass := Pass.prepare before compiler
  rcases hafter with heq | heq
  · rw [heq] at hready ⊢
    obtain ⟨handle, ds, checked, hvouched⟩ := pass.vouched hready
    have hcompiled := checked.compiled
    rw [hsame.unit, hsame.references, hsame.imports] at hcompiled
    rw [hsame.settings] at hvouched
    exact ⟨handle, ds, hcompiled, checked.reported, hvouched⟩
  · -- a host that was disposed of is not ready
    rw [heq] at hready
    cases hready

/-- A detector for internal operators that lists a support topic becomes ready
with the warning behind the diagnostics, and an export and an invocation later
it is still vouched for. -/
theorem vouched_of_ready_exposed :
    ∃ (compiler : Compiler Id) (ds : List Diagnostic),
      let ops := [.prepare compiler, .artifact compiler, .invoke [.null]]
      let h := (ofUnit (.inline "") none none .default).run ops
      lastPass? ops = some (.prepare compiler) ∧ h.stage = .ready ∧
        h.metadata.definition.isSome = true ∧
        h.output = ["hidden: seen", internalTopicsWarning] ∧
        h.Vouched .default ds := by
  let entry : EntryPoint :=
    { name := "run"
      arity := 0
      attributes :=
        [.supportTopic ⟨"1", "2"⟩, .definition (.named "cpu" "CPU?" "ops"),
          .resourceFilter .internal]
      call := fun _ => .ok (.value .null) }
  let handle : Handle Id :=
    { diagnostics := .ok [⟨.hidden, "seen", none⟩]
      signature := .canonical
      emit := .ok ⟨"unit", fun _ => .ok entry⟩
      save := fun path => .ok path
      artifact := .ok ⟨"unit", ""⟩ }
  let compiler : Compiler Id := ⟨"constant", fun _ _ _ => .ok handle⟩
  let ops : List (Operation Id) :=
    [.prepare compiler, .artifact compiler, .invoke [.null]]
  have hready : ((ofUnit (.inline "") none none .default).run ops).stage =
      .ready := by
    decide +kernel
  obtain ⟨-, ds, -, -, hvouched⟩ :=
    vouched_of_ready (.inline "") none none .default ops compiler rfl hready
  exact ⟨compiler, ds, rfl, hready, by decide +kernel, by decide +kernel, hvouched⟩

end Host

end DetectorBench
