import DetectorBench.Host

/-!
# A pass over a source, stage by stage

`prepare` compiles, looks at the diagnostics, emits, resolves, folds the
attributes and validates, and writes into the host as it goes. `Pass` says the
same thing as a relation: one rule for each stage at which a pass can end, whose
premises are the answers of the stages up to that one and of no later one, and
whose conclusion is the whole host that is left. So whoever knows the answers up
to the first stage that fails knows how the pass ends.

* `Pass.prepare` : every pass ends by one of the rules;
* `Pass.prepare_eq` : a rule that applies is how the pass ends;
* `prepare_eq_iff_pass` : both together, as the law of `prepare`.

`Intake` does the same for a pass over an image that was emitted elsewhere.
Everything that is proved about the life of a host goes by cases on these two
relations and unfolds nothing.
-/

namespace DetectorBench

/-! ## What the attributes of an entry point can be refused for -/

/-- Folding attributes fails for one reason only: a kind was declared twice. -/
theorem Metadata.gather_error {entry : String} :
    ∀ {attributes : List Attribute} {m : Metadata} {topics : List SupportTopic}
      {e : ResolveError}, Metadata.gather entry attributes m topics = .error e →
      ∃ kind, e = .duplicate entry kind
  | [], m, topics, e, h => by simp [Metadata.gather] at h
  | .supportTopic t :: rest, m, topics, e, h => by
    rw [Metadata.gather] at h
    exact Metadata.gather_error h
  | .definition d :: rest, m, topics, e, h => by
    rw [Metadata.gather] at h
    split at h
    next => exact ⟨.definition, by injection h with h; exact h.symm⟩
    next => exact Metadata.gather_error h
  | .resourceFilter f :: rest, m, topics, e, h => by
    rw [Metadata.gather] at h
    split at h
    next => exact ⟨.resourceFilter, by injection h with h; exact h.symm⟩
    next => exact Metadata.gather_error h
  | .systemFilter f :: rest, m, topics, e, h => by
    rw [Metadata.gather] at h
    split at h
    next => exact ⟨.systemFilter, by injection h with h; exact h.symm⟩
    next => exact Metadata.gather_error h

/-- So the metadata of an entry point is never missing for a reason that is not
the unit's own. -/
theorem EntryPoint.metadata_error {e : EntryPoint} {error : ResolveError}
    (h : e.metadata = .error error) :
    ∃ message, error = .compilation message := by
  unfold EntryPoint.metadata Metadata.ofAttributes at h
  cases hg : Metadata.gather e.name e.attributes .empty [] with
  | ok found => rw [hg] at h; cases h
  | error e' =>
    rw [hg] at h
    obtain ⟨kind, rfl⟩ := Metadata.gather_error hg
    exact ⟨_, by injection h with h; exact h.symm⟩

/-- Metadata that breaks a rule has a definition to break it. -/
theorem Metadata.definition_of_validate_error {m : Metadata} {rules : Rules}
    {v : Violation} (h : m.validate rules = .error v) :
    m.definition.isSome = true := by
  unfold Metadata.validate at h
  split at h
  next => cases h
  next d hd => rw [hd]; rfl

theorem Diagnostic.anyError_iff {ds : List Diagnostic} :
    Diagnostic.anyError ds = true ↔ ∃ d ∈ ds, d.severity = .error := by
  simp [Diagnostic.anyError, Diagnostic.isError]

namespace Host

/-! ## The hosts that a pass leaves -/

/-- The host after a pass that took no image in. -/
def endedIn (h : Host) (stage : Stage) (lines : List String) : Host :=
  { h with
    stage
    successful := false
    output := lines
    metadata := .empty
    violation := none
    image := none
    entryPoint := none }

/-- The host after a pass that took an image in and found a rule violated. -/
def refusedWith (h : Host) (image : Image) (entry : EntryPoint)
    (metadata : Metadata) (v : Violation) (lines : List String) : Host :=
  { h with
    stage := .validationFailed
    successful := false
    output := lines
    metadata
    violation := some v
    image := some image
    entryPoint := some entry }

/-- The host after a pass that came to its end. -/
def readyWith (h : Host) (image : Image) (entry : EntryPoint)
    (metadata : Metadata) (lines : List String) : Host :=
  { h with
    stage := .ready
    successful := true
    output := lines
    metadata
    violation := none
    image := some image
    entryPoint := some entry }

variable {m : Type → Type}

/-! ## The rules -/

/-- The first three stages went well: the source compiled, and nothing that is
said of it is an error. -/
structure Checked (h : Host) (compiler : Compiler m) (handle : Handle m)
    (ds : List Diagnostic) : Prop where
  compiled : compiler.compile h.unit.script h.references h.imports = .ok handle
  reported : handle.diagnostics = .ok ds
  clean : ¬∃ d ∈ ds, d.severity = .error

/-- The lines that show diagnostics. -/
def linesOf (ds : List Diagnostic) : List String :=
  ds.map Diagnostic.render

/-- How a pass over the source ends: what it answers, and the host it leaves. -/
inductive Pass (h : Host) (compiler : Compiler m) :
    Except HostError Unit → Host → Prop where
  /-- The compiler broke. -/
  | uncompiled {failure : Failure}
    (compile : compiler.compile h.unit.script h.references h.imports =
      .error failure) :
    Pass h compiler (.error (.pipeline failure)) (h.endedIn .compiling [])
  /-- The diagnostics could not be had. -/
  | unreported {handle : Handle m} {failure : Failure}
    (compile : compiler.compile h.unit.script h.references h.imports = .ok handle)
    (report : handle.diagnostics = .error failure) :
    Pass h compiler (.error (.pipeline failure)) (h.endedIn .compiling [])
  /-- A diagnostic is an error. -/
  | erroneous {handle : Handle m} {ds : List Diagnostic}
    (compile : compiler.compile h.unit.script h.references h.imports = .ok handle)
    (report : handle.diagnostics = .ok ds)
    (error : ∃ d ∈ ds, d.severity = .error) :
    Pass h compiler (.ok ()) (h.endedIn .compiledFailed (linesOf ds))
  /-- No image could be emitted. -/
  | unemitted {handle : Handle m} {ds : List Diagnostic} {failure : Failure}
    (checked : Checked h compiler handle ds)
    (emit : handle.emit = .error failure) :
    Pass h compiler (.error (.pipeline failure)) (h.endedIn .compiling (linesOf ds))
  /-- Looking the entry point up broke. -/
  | unresolved {handle : Handle m} {ds : List Diagnostic} {image : Image}
    {failure : Failure} (checked : Checked h compiler handle ds)
    (emit : handle.emit = .ok image)
    (resolve : image.resolve handle.signature = .error (.pipeline failure)) :
    Pass h compiler (.error (.pipeline failure)) (h.endedIn .compiling (linesOf ds))
  /-- The unit does not offer the entry point. -/
  | absent {handle : Handle m} {ds : List Diagnostic} {image : Image}
    {message : String} (checked : Checked h compiler handle ds)
    (emit : handle.emit = .ok image)
    (resolve : image.resolve handle.signature = .error (.compilation message)) :
    Pass h compiler (.ok ()) (h.endedIn .compiledFailed (linesOf ds ++ [message]))
  /-- The entry point declares a kind of attribute twice. -/
  | repeated {handle : Handle m} {ds : List Diagnostic} {image : Image}
    {entry : EntryPoint} {message : String}
    (checked : Checked h compiler handle ds) (emit : handle.emit = .ok image)
    (resolve : image.resolve handle.signature = .ok entry)
    (extract : entry.metadata = .error (.compilation message)) :
    Pass h compiler (.ok ()) (h.endedIn .compiledFailed (linesOf ds ++ [message]))
  /-- The metadata violates a rule. -/
  | refused {handle : Handle m} {ds : List Diagnostic} {image : Image}
    {entry : EntryPoint} {metadata : Metadata} {v : Violation}
    (checked : Checked h compiler handle ds) (emit : handle.emit = .ok image)
    (resolve : image.resolve handle.signature = .ok entry)
    (extract : entry.metadata = .ok metadata)
    (validate : metadata.validate h.settings.rules = .error v) :
    Pass h compiler (.ok ())
      (h.refusedWith image entry metadata v (linesOf ds ++ ["error: " ++ v.message]))
  /-- No stage failed. -/
  | ready {handle : Handle m} {ds : List Diagnostic} {image : Image}
    {entry : EntryPoint} {metadata : Metadata} {verdict : Verdict}
    (checked : Checked h compiler handle ds) (emit : handle.emit = .ok image)
    (resolve : image.resolve handle.signature = .ok entry)
    (extract : entry.metadata = .ok metadata)
    (validate : metadata.validate h.settings.rules = .ok verdict) :
    Pass h compiler (.ok ()) (h.readyWith image entry metadata
      (linesOf ds ++ verdict.warnings))

/-! ## Taking an image in -/

/-- What looking up and folding come to, stage by stage. -/
theorem resolve_of_error {image : Image} {signature : Signature}
    {e : ResolveError} (h : image.resolve signature = .error e) :
    Host.resolve image signature = .error e := by
  unfold Host.resolve
  rw [h]
  rfl

theorem resolve_of_metadata {image : Image} {signature : Signature}
    {entry : EntryPoint} (h : image.resolve signature = .ok entry) :
    Host.resolve image signature = entry.metadata.map fun metadata =>
      (entry, metadata) := by
  unfold Host.resolve
  rw [h]
  cases he : entry.metadata with
  | ok metadata => simp only [bind, Except.bind, he]; rfl
  | error e => simp only [bind, Except.bind, he]; rfl

/-- An image that is taken in. -/
theorem accept_of_ok (h : Host) {image : Image} {signature : Signature}
    {entry : EntryPoint} {metadata : Metadata}
    (resolve : image.resolve signature = .ok entry)
    (extract : entry.metadata = .ok metadata) :
    h.accept image signature =
      (.ok true,
        { h with image := some image, entryPoint := some entry, metadata }) := by
  unfold accept
  rw [resolve_of_metadata resolve, extract]
  rfl

/-- An image that the unit is the reason for not taking in. -/
theorem accept_of_compilation (h : Host) {image : Image} {signature : Signature}
    {message : String}
    (unit : image.resolve signature = .error (.compilation message) ∨
      ∃ entry, image.resolve signature = .ok entry ∧
        entry.metadata = .error (.compilation message)) :
    h.accept image signature =
      (.ok false, (h.record [message]).fail .compiledFailed) := by
  unfold accept
  rcases unit with resolve | ⟨entry, resolve, extract⟩
  · rw [resolve_of_error resolve]
  · rw [resolve_of_metadata resolve, extract]
    rfl

/-- An image whose look-up broke. -/
theorem accept_of_pipeline (h : Host) {image : Image} {signature : Signature}
    {failure : Failure}
    (resolve : image.resolve signature = .error (.pipeline failure)) :
    h.accept image signature = (.error (.pipeline failure), h) := by
  unfold accept
  rw [resolve_of_error resolve]

/-! ## The law of `prepare` -/

theorem compile_of_ok {h : Host} {compiler : Compiler m} {handle : Handle m}
    (hc : compiler.compile h.unit.script h.references h.imports = .ok handle) :
    h.reset.compile compiler = .ok handle := by
  unfold compile
  show (compiler.compile h.unit.script h.references h.imports).mapError _ = _
  rw [hc]
  rfl

theorem compile_of_error {h : Host} {compiler : Compiler m} {failure : Failure}
    (hc : compiler.compile h.unit.script h.references h.imports = .error failure) :
    h.reset.compile compiler = .error (.pipeline failure) := by
  unfold compile
  show (compiler.compile h.unit.script h.references h.imports).mapError _ = _
  rw [hc]
  rfl

/-- What is left of a pass once the diagnostics hold no error. -/
theorem prepare_of_checked {h : Host} {compiler : Compiler m}
    {handle : Handle m} {ds : List Diagnostic}
    (c : Checked h compiler handle ds) :
    h.prepare compiler =
      match handle.emit with
      | .error failure => (.error (.pipeline failure), h.reset.record (linesOf ds))
      | .ok image =>
        match (h.reset.record (linesOf ds)).accept image handle.signature with
        | (.error e, h) => (.error e, h)
        | (.ok false, h) => (.ok (), h)
        | (.ok true, h) => (.ok (), h.validate) := by
  have clean : Diagnostic.anyError ds = false := by
    rw [Bool.eq_false_iff, Ne, Diagnostic.anyError_iff]
    exact c.clean
  unfold prepare
  simp only [compile_of_ok c.compiled, c.reported, clean, Bool.false_eq_true,
    if_false]
  rfl

/-- A rule that applies is how the pass ends. -/
theorem Pass.prepare_eq {h : Host} {compiler : Compiler m}
    {result : Except HostError Unit} {after : Host}
    (p : Pass h compiler result after) :
    h.prepare compiler = (result, after) := by
  -- a rule names the answers in the order in which `prepare` asks for them
  cases p with
  | uncompiled compile =>
    unfold prepare
    simp only [compile_of_error compile]
    rfl
  | unreported compile report =>
    unfold prepare
    simp only [compile_of_ok compile, report]
    rfl
  | erroneous compile report error =>
    unfold prepare
    simp only [compile_of_ok compile, report, Diagnostic.anyError_iff.mpr error,
      if_true]
    rfl
  | unemitted checked emit =>
    rw [prepare_of_checked checked, emit]
    rfl
  | unresolved checked emit resolve =>
    rw [prepare_of_checked checked, emit]
    simp only [accept_of_pipeline _ resolve]
    rfl
  | absent checked emit resolve =>
    rw [prepare_of_checked checked, emit]
    simp only [accept_of_compilation _ (Or.inl resolve)]
    rfl
  | repeated checked emit resolve extract =>
    rw [prepare_of_checked checked, emit]
    simp only [accept_of_compilation _ (Or.inr ⟨_, resolve, extract⟩)]
    rfl
  | refused checked emit resolve extract validate =>
    rw [prepare_of_checked checked, emit]
    simp only [accept_of_ok _ resolve extract, Host.validate]
    rw [show (h.reset.record _).settings = h.settings from rfl, validate]
    rfl
  | ready checked emit resolve extract validate =>
    rw [prepare_of_checked checked, emit]
    simp only [accept_of_ok _ resolve extract, Host.validate]
    rw [show (h.reset.record _).settings = h.settings from rfl, validate]
    rfl

/-- Every pass ends by one of the rules. -/
theorem Pass.exists (h : Host) (compiler : Compiler m) :
    ∃ result after, Pass h compiler result after := by
  -- stage by stage: the first answer that ends the pass tells the rule
  cases hc : compiler.compile h.unit.script h.references h.imports with
  | error failure => exact ⟨_, _, .uncompiled hc⟩
  | ok handle =>
    cases hd : handle.diagnostics with
    | error failure => exact ⟨_, _, .unreported hc hd⟩
    | ok ds =>
      by_cases herr : ∃ d ∈ ds, d.severity = .error
      · exact ⟨_, _, .erroneous hc hd herr⟩
      · have checked : Checked h compiler handle ds := ⟨hc, hd, herr⟩
        cases he : handle.emit with
        | error failure => exact ⟨_, _, .unemitted checked he⟩
        | ok image =>
          cases hr : image.resolve handle.signature with
          | error e =>
            cases e with
            | compilation message => exact ⟨_, _, .absent checked he hr⟩
            | pipeline failure => exact ⟨_, _, .unresolved checked he hr⟩
          | ok entry =>
            cases hm : entry.metadata with
            | error e =>
              -- folding has no failure of its own, so there is no tenth rule
              obtain ⟨message, rfl⟩ := EntryPoint.metadata_error hm
              exact ⟨_, _, .repeated checked he hr hm⟩
            | ok metadata =>
              cases hv : metadata.validate h.settings.rules with
              | error v => exact ⟨_, _, .refused checked he hr hm hv⟩
              | ok verdict => exact ⟨_, _, .ready checked he hr hm hv⟩

/-- How the pass that `prepare` does ends. -/
theorem Pass.prepare (h : Host) (compiler : Compiler m) :
    Pass h compiler (h.prepare compiler).1 (h.prepare compiler).2 := by
  obtain ⟨result, after, p⟩ := Pass.exists h compiler
  rw [p.prepare_eq]
  exact p

/-- **The law of a pass**: it ends as the first stage that fails says, whatever
the stages after that one would have answered; and if none fails, the unit is
ready. -/
theorem prepare_eq_iff_pass (h : Host) (compiler : Compiler m)
    (result : Except HostError Unit) (after : Host) :
    h.prepare compiler = (result, after) ↔ Pass h compiler result after := by
  constructor
  · intro heq
    have p := Pass.prepare h compiler
    rw [heq] at p
    exact p
  · exact Pass.prepare_eq

/-! ## A pass over an image -/

/-- How a pass over an image ends. The entry point is looked up by the settings,
nothing is compiled and nothing validated. -/
inductive Intake (h : Host) (image : Image) : Except HostError Unit → Host →
    Prop where
  /-- Looking the entry point up broke. -/
  | unresolved {failure : Failure}
    (resolve : image.resolve h.settings.signature = .error (.pipeline failure)) :
    Intake h image (.error (.pipeline failure)) (h.endedIn .compiling [])
  /-- The unit does not offer the entry point. -/
  | absent {message : String}
    (resolve : image.resolve h.settings.signature = .error (.compilation message)) :
    Intake h image (.ok ()) (h.endedIn .compiledFailed [message])
  /-- The entry point declares a kind of attribute twice. -/
  | repeated {entry : EntryPoint} {message : String}
    (resolve : image.resolve h.settings.signature = .ok entry)
    (extract : entry.metadata = .error (.compilation message)) :
    Intake h image (.ok ()) (h.endedIn .compiledFailed [message])
  /-- No stage failed. -/
  | ready {entry : EntryPoint} {metadata : Metadata}
    (resolve : image.resolve h.settings.signature = .ok entry)
    (extract : entry.metadata = .ok metadata) :
    Intake h image (.ok ()) (h.readyWith image entry metadata [])

/-- A rule that applies is how the pass over the image ends. -/
theorem Intake.preload_eq {h : Host} {image : Image}
    {result : Except HostError Unit} {after : Host}
    (p : Intake h image result after) : h.preload image = (result, after) := by
  unfold preload
  cases p with
  | unresolved resolve =>
    rw [accept_of_pipeline _ resolve]
    rfl
  | absent resolve =>
    rw [accept_of_compilation _ (Or.inl resolve)]
    rfl
  | repeated resolve extract =>
    rw [accept_of_compilation _ (Or.inr ⟨_, resolve, extract⟩)]
    rfl
  | ready resolve extract =>
    rw [accept_of_ok _ resolve extract]
    rfl

/-- How the pass that `preload` does ends. -/
theorem Intake.preload (h : Host) (image : Image) :
    Intake h image (h.preload image).1 (h.preload image).2 := by
  have rule : ∃ result after, Intake h image result after := by
    cases hr : image.resolve h.settings.signature with
    | error e =>
      cases e with
      | compilation message => exact ⟨_, _, .absent hr⟩
      | pipeline failure => exact ⟨_, _, .unresolved hr⟩
    | ok entry =>
      cases hm : entry.metadata with
      | error e =>
        obtain ⟨message, rfl⟩ := EntryPoint.metadata_error hm
        exact ⟨_, _, .repeated hr hm⟩
      | ok metadata => exact ⟨_, _, .ready hr hm⟩
  obtain ⟨result, after, p⟩ := rule
  rw [p.preload_eq]
  exact p

end Host

end DetectorBench
