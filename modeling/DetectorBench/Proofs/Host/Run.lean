import DetectorBench.Proofs.Host.Pass

/-!
# Runs of a host

A host is used by doing one thing after another with it: passes over the source,
passes over images, invocations, exports, disposal. Every operation that
compiles is given the compiler that is at hand, so a compiler may answer
differently each time, and so may the images it emits.

The fields of a host are written piece by piece, and a pass can break between
any two of them. What holds in spite of that is `Coherent`: which fields go with
which stage, and what they say about each other. `perform_coherent` keeps it
over one operation, whichever way it ends, and `run_coherent` over a run of any
length.

What an operation answers stands beside the host it leaves (`perform`), for laws
about answers. What cannot change at all is `SameSetup`. Since a pass forgets
everything, a run is known by its last pass (`run_of_lastPass`).
-/

namespace DetectorBench

/-- One thing that is done with a host. -/
inductive Operation (m : Type → Type) where
  | prepare (compiler : Compiler m)
  | preload (image : Image)
  | invoke (arguments : List Json)
  | artifact (compiler : Compiler m)
  | save (compiler : Compiler m) (path : String)
  | dispose

/-- What an operation answers. Saving is still to be run. -/
inductive Answer (m : Type → Type) where
  | pass (result : Except HostError Unit)
  | output (result : Except HostError Output)
  | artifact (result : Except HostError Artifact)
  | saving (action : m (Except HostError String))
  | done

/-- Whether an operation is a pass over the unit. -/
def Operation.isPass {m : Type → Type} : Operation m → Bool
  | prepare _ => true
  | preload _ => true
  | _ => false

namespace Host

variable {m : Type → Type}

/-! ## What no pass changes -/

/-- The unit, what it may use, and the settings are those of another host. -/
structure SameSetup (h h' : Host) : Prop where
  unit : h'.unit = h.unit
  references : h'.references = h.references
  imports : h'.imports = h.imports
  settings : h'.settings = h.settings

theorem SameSetup.refl (h : Host) : SameSetup h h :=
  ⟨rfl, rfl, rfl, rfl⟩

theorem SameSetup.trans {a b c : Host} (h₁ : SameSetup a b)
    (h₂ : SameSetup b c) : SameSetup a c :=
  ⟨h₂.unit.trans h₁.unit, h₂.references.trans h₁.references,
    h₂.imports.trans h₁.imports, h₂.settings.trans h₁.settings⟩

/-- A pass over the source leaves the setup alone, wherever it breaks off. -/
theorem Pass.sameSetup {h : Host} {compiler : Compiler m}
    {result : Except HostError Unit} {after : Host}
    (p : Pass h compiler result after) : SameSetup h after := by
  cases p <;> exact ⟨rfl, rfl, rfl, rfl⟩

/-- So does a pass over an image. -/
theorem Intake.sameSetup {h : Host} {image : Image}
    {result : Except HostError Unit} {after : Host}
    (p : Intake h image result after) : SameSetup h after := by
  cases p <;> exact ⟨rfl, rfl, rfl, rfl⟩

/-! ## The invariant -/

/-- What the fields of a host say about each other, at every moment of its
life. -/
structure Coherent (h : Host) : Prop where
  successful_iff : h.successful = true ↔ h.stage = .ready
  image_iff : h.image.isSome = true ↔ h.entryPoint.isSome = true
  entry_iff :
    h.entryPoint.isSome = true ↔ h.stage = .ready ∨ h.stage = .validationFailed
  /-- The metadata is what the entry point declares, as long as there is one. -/
  extracted : ∀ e, h.entryPoint = some e → e.metadata = .ok h.metadata
  ready : h.stage = .ready → h.violation = none
  /-- A violation on record is one of the metadata on record, and is the last
  thing that was said. -/
  violated : ∀ v, h.violation = some v →
    h.metadata.validate h.settings.rules = .error v ∧
    h.metadata.definition.isSome = true ∧
      h.output.getLast? = some ("error: " ++ v.message)
  refused : h.stage = .validationFailed → h.violation.isSome = true
  /-- Only disposal keeps a violation on record past the stage that it led
  to. -/
  violation_stage :
    h.violation.isSome = true → h.stage = .validationFailed ∨ h.stage = .new
  compiledFailed : h.stage = .compiledFailed →
    h.metadata = .empty ∧ h.violation = none ∧ h.output ≠ []
  compiling : h.stage = .compiling → h.metadata = .empty ∧ h.violation = none

/-- A host that was made of a unit and not used yet is coherent. -/
theorem ofUnit_coherent (unit : SourceUnit)
    (references imports : Option (List String)) (settings : Settings) :
    (ofUnit unit references imports settings).Coherent := by
  constructor <;> simp [ofUnit]

/-- A pass that took no image in leaves a coherent host, if it is clear why. -/
theorem endedIn_coherent (h : Host) {stage : Stage} {lines : List String}
    (hs : stage = .compiling ∨ stage = .compiledFailed ∧ lines ≠ []) :
    (h.endedIn stage lines).Coherent := by
  rcases hs with rfl | ⟨rfl, hl⟩
  · constructor <;> simp [endedIn]
  · constructor <;> simp [endedIn, hl]

/-- A host is coherent when a rule is broken: the violation is on record and was
the last line. -/
theorem refusedWith_coherent (h : Host) {image : Image} {entry : EntryPoint}
    {metadata : Metadata} {v : Violation} {lines : List String}
    (extract : entry.metadata = .ok metadata)
    (validate : metadata.validate h.settings.rules = .error v) :
    (h.refusedWith image entry metadata v
      (lines ++ ["error: " ++ v.message])).Coherent := by
  have hd := Metadata.definition_of_validate_error validate
  constructor <;> simp [refusedWith, extract, validate, hd]

/-- A host is coherent when it becomes ready. -/
theorem readyWith_coherent (h : Host) {image : Image} {entry : EntryPoint}
    {metadata : Metadata} {lines : List String}
    (extract : entry.metadata = .ok metadata) :
    (h.readyWith image entry metadata lines).Coherent := by
  constructor <;> simp [readyWith, extract]

/-- Where there is an error there is a line. -/
theorem linesOf_ne_nil {ds : List Diagnostic}
    (h : ∃ d ∈ ds, d.severity = .error) :
    linesOf ds ≠ [] := by
  obtain ⟨d, hd, -⟩ := h
  exact List.ne_nil_of_mem (List.mem_map_of_mem hd)

/-- Every pass over the source leaves a coherent host, wherever it starts. -/
theorem Pass.coherent {h : Host} {compiler : Compiler m}
    {result : Except HostError Unit} {after : Host}
    (p : Pass h compiler result after) : after.Coherent := by
  cases p with
  | uncompiled | unreported | unemitted | unresolved =>
    exact endedIn_coherent h (Or.inl rfl)
  | erroneous _ _ error =>
    exact endedIn_coherent h (Or.inr ⟨rfl, linesOf_ne_nil error⟩)
  | absent | repeated => exact endedIn_coherent h (Or.inr ⟨rfl, by simp⟩)
  | refused _ _ _ extract validate => exact refusedWith_coherent h extract validate
  | ready _ _ _ extract => exact readyWith_coherent h extract

/-- So does every pass over an image. -/
theorem Intake.coherent {h : Host} {image : Image}
    {result : Except HostError Unit} {after : Host}
    (p : Intake h image result after) : after.Coherent := by
  cases p with
  | unresolved => exact endedIn_coherent h (Or.inl rfl)
  | absent | repeated => exact endedIn_coherent h (Or.inr ⟨rfl, by simp⟩)
  | ready _ extract => exact readyWith_coherent h extract

/-- Disposal drops the image and the entry point together, and keeps what is on
record. -/
theorem dispose_coherent {h : Host} (hc : h.Coherent) : h.dispose.Coherent where
  successful_iff := by simp [dispose]
  image_iff := by simp [dispose]
  entry_iff := by simp [dispose]
  extracted := by simp [dispose]
  ready := by simp [dispose]
  violated := hc.violated
  refused := by simp [dispose]
  violation_stage := fun _ => Or.inr rfl
  compiledFailed := by simp [dispose]
  compiling := by simp [dispose]

/-! ## Runs -/

section Run

variable [Monad m]

/-- Does one thing with a host. Only passes and disposal change it. -/
def perform (h : Host) : Operation m → Answer m × Host
  | .prepare compiler => (h.prepare compiler).map .pass id
  | .preload image => (h.preload image).map .pass id
  | .invoke arguments => (.output (h.invoke arguments), h)
  | .artifact compiler => (.artifact (h.artifact compiler), h)
  | .save compiler path => (.saving (h.save compiler path), h)
  | .dispose => (.done, h.dispose)

/-- The host after several things were done with it. -/
def run (h : Host) (ops : List (Operation m)) : Host :=
  ops.foldl (fun h op => (h.perform op).2) h

theorem run_cons (h : Host) (op : Operation m) (ops : List (Operation m)) :
    h.run (op :: ops) = (h.perform op).2.run ops := rfl

/-- A run may be taken up where another one ended. -/
theorem run_append (h : Host) (xs ys : List (Operation m)) :
    h.run (xs ++ ys) = (h.run xs).run ys := by
  unfold run
  rw [List.foldl_append]

/-- **No operation changes the setup.** -/
theorem perform_sameSetup (h : Host) (op : Operation m) :
    SameSetup h (h.perform op).2 := by
  cases op with
  | prepare compiler => exact (Pass.prepare h compiler).sameSetup
  | preload image => exact (Intake.preload h image).sameSetup
  | dispose => exact ⟨rfl, rfl, rfl, rfl⟩
  | invoke | artifact | save => exact SameSetup.refl h

/-- A run changes nothing of what the host was set up with. -/
theorem run_sameSetup (h : Host) (ops : List (Operation m)) :
    SameSetup h (h.run ops) := by
  induction ops generalizing h with
  | nil => exact SameSetup.refl h
  | cons op ops ih => exact (perform_sameSetup h op).trans (ih _)

/-- One operation keeps a host coherent, whichever way it ends. -/
theorem perform_coherent {h : Host} (hc : h.Coherent) (op : Operation m) :
    (h.perform op).2.Coherent := by
  -- passes need no coherence to start from, since they forget everything
  cases op with
  | prepare compiler => exact (Pass.prepare h compiler).coherent
  | preload image => exact (Intake.preload h image).coherent
  | dispose => exact dispose_coherent hc
  | invoke | artifact | save => exact hc

/-- Whatever is done with a coherent host leaves it coherent. -/
theorem run_keeps_coherent {h : Host} (hc : h.Coherent)
    (ops : List (Operation m)) :
    (h.run ops).Coherent := by
  induction ops generalizing h with
  | nil => exact hc
  | cons op ops ih => exact ih (perform_coherent hc op)

/-- **Coherence**: whatever is done with a new host, in whatever order and with
whatever answers of compilers and images, its fields agree with its stage and
with each other; and it is still about the unit and under the settings that it
was set up with. -/
theorem run_coherent (unit : SourceUnit)
    (references imports : Option (List String)) (settings : Settings)
    (ops : List (Operation m)) :
    let start := ofUnit unit references imports settings
    (start.run ops).Coherent ∧ SameSetup start (start.run ops) :=
  ⟨run_keeps_coherent (ofUnit_coherent unit references imports settings) ops,
    run_sameSetup _ ops⟩

/-! ## The last pass -/

/-- The last pass of a run. -/
def lastPass? (ops : List (Operation m)) : Option (Operation m) :=
  ops.reverse.find? Operation.isPass

/-- Without a pass, a host stays as it is until it is disposed of, and then
stays that way. -/
theorem run_of_no_pass {ops : List (Operation m)}
    (hops : ∀ op ∈ ops, op.isPass = false) (h : Host) :
    h.run ops = h ∨ h.run ops = h.dispose := by
  induction ops generalizing h with
  | nil => exact Or.inl rfl
  | cons op ops ih =>
    have hop := hops op List.mem_cons_self
    have hrest := ih fun o ho => hops o (List.mem_cons_of_mem _ ho)
    cases op with
    | prepare compiler => cases hop
    | preload image => cases hop
    | invoke | artifact | save => exact hrest h
    | dispose =>
      -- disposing twice is disposing once
      rcases hrest h.dispose with heq | heq <;> exact Or.inr heq

/-- After a run, a host is what its last pass made of it, or that disposed
of. -/
theorem run_of_lastPass {ops : List (Operation m)} {op : Operation m}
    (hlast : lastPass? ops = some op) (h : Host) :
    ∃ before, SameSetup h before ∧
      (h.run ops = (before.perform op).2 ∨
        h.run ops = (before.perform op).2.dispose) := by
  unfold lastPass? at hlast
  obtain ⟨-, later, earlier, hsplit, hlater⟩ :=
    List.find?_eq_some_iff_append.mp hlast
  have hops : ops = earlier.reverse ++ op :: later.reverse := by
    rw [← List.reverse_reverse ops, hsplit]
    simp
  -- `find?` looked from the end, so there is no pass among what comes later
  refine ⟨h.run earlier.reverse, run_sameSetup h _, ?_⟩
  rw [hops, run_append, run_cons]
  exact run_of_no_pass
    (fun o ho => by simpa using hlater o (List.mem_reverse.mp ho)) _

end Run

end Host

end DetectorBench
