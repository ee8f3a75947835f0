import DetectorBench.Proofs.Host.Run

/-!
# What a run does not depend on

Two hosts are compared by what is to be seen of them while the same things are
done with both: every answer, and after it everything that the host has found
(`seen`). Three things cannot be seen.

* What was done before the last pass. A pass reads nothing but what the host was
  set up with (`perform_of_pass`), so from there on two hosts of one setup are
  the same (`last_pass_wins`).
* The name of the entry point, as long as no image is taken in: a pass over the
  source looks up by the signature of its handle.
* Everything but that name, as long as no compiler is asked: a pass over an
  image looks up by the settings and trusts the rest.

The last two are frames. Changing what is not read commutes with every operation
that does not read it (`perform_renamed`, `perform_reassigned`), and by
induction on the run what commutes with each operation shows in none
(`seen_of_frame`). Both together are `settings_kept_apart`.
-/

namespace DetectorBench

namespace Operation

variable {m : Type → Type}

/-- The compiler that an operation is given. -/
def compiler? : Operation m → Option (Compiler m)
  | prepare compiler => some compiler
  | artifact compiler => some compiler
  | save compiler _ => some compiler
  | _ => none

/-- Whether an operation is a pass over an image. -/
def isPreload : Operation m → Bool
  | preload _ => true
  | _ => false

end Operation

/-- What a host has found since its last pass. -/
structure Findings where
  stage : Stage
  successful : Bool
  output : List String
  metadata : Metadata
  violation : Option Violation
  image : Option Image
  entryPoint : Option EntryPoint

namespace Host

variable {m : Type → Type}

/-- Everything about a host but what it was set up with. -/
def findings (h : Host) : Findings :=
  ⟨h.stage, h.successful, h.output, h.metadata, h.violation, h.image, h.entryPoint⟩

/-! ## Passes -/

/-- Hosts of one setup start a pass as the same host. -/
theorem reset_of_sameSetup {h h' : Host} (hsame : SameSetup h h') :
    h'.reset = h.reset := by
  obtain ⟨hunit, hreferences, himports, hsettings⟩ := hsame
  unfold reset
  rw [hunit, hreferences, himports, hsettings]

theorem prepare_reset (h : Host) (compiler : Compiler m) :
    h.reset.prepare compiler = h.prepare compiler := rfl

theorem preload_reset (h : Host) (image : Image) :
    h.reset.preload image = h.preload image := rfl

/-- The host with another name for the entry point that it looks for in
images. -/
def renamed (name : String) (h : Host) : Host :=
  { h with settings := { h.settings with entryPoint := name } }

theorem Checked.renamed {h : Host} {compiler : Compiler m} {handle : Handle m}
    {ds : List Diagnostic} (c : Checked h compiler handle ds) (name : String) :
    Checked (h.renamed name) compiler handle ds :=
  ⟨c.compiled, c.reported, c.clean⟩

/-- No rule of a pass over the source mentions the name. -/
theorem Pass.renamed {h after : Host} {compiler : Compiler m}
    {result : Except HostError Unit} (p : Pass h compiler result after)
    (name : String) :
    Pass (h.renamed name) compiler result (after.renamed name) := by
  cases p with
  | uncompiled compile => exact .uncompiled compile
  | unreported compile report => exact .unreported compile report
  | erroneous compile report error => exact .erroneous compile report error
  | unemitted checked emit => exact .unemitted (checked.renamed name) emit
  | unresolved checked emit resolve =>
    exact .unresolved (checked.renamed name) emit resolve
  | absent checked emit resolve => exact .absent (checked.renamed name) emit resolve
  | repeated checked emit resolve extract =>
    exact .repeated (checked.renamed name) emit resolve extract
  | refused checked emit resolve extract validate =>
    exact .refused (checked.renamed name) emit resolve extract validate
  | ready checked emit resolve extract validate =>
    exact .ready (checked.renamed name) emit resolve extract validate

section Reassigned

variable (unit : SourceUnit) (references imports : Option (List String))
  (settings : Settings)

/-- The host with another unit, other lists and other settings, the name of the
entry point apart. -/
def reassigned (h : Host) : Host :=
  { h with
    unit
    references
    imports
    settings := { settings with entryPoint := h.settings.entryPoint } }

/-- No rule of a pass over an image mentions anything but the name. -/
theorem Intake.reassigned {h after : Host} {image : Image}
    {result : Except HostError Unit} (p : Intake h image result after) :
    Intake (h.reassigned unit references imports settings) image result
      (after.reassigned unit references imports settings) := by
  cases p with
  | unresolved resolve => exact .unresolved resolve
  | absent resolve => exact .absent resolve
  | repeated resolve extract => exact .repeated resolve extract
  | ready resolve extract => exact .ready resolve extract

end Reassigned

/-! ## Operations -/

section Run

variable [Monad m]

theorem perform_prepare {h after : Host} {compiler : Compiler m}
    {result : Except HostError Unit} (p : Pass h compiler result after) :
    h.perform (.prepare compiler) = (.pass result, after) := by
  unfold perform
  dsimp only
  rw [p.prepare_eq]
  rfl

theorem perform_preload {h after : Host} {image : Image}
    {result : Except HostError Unit} (p : Intake h image result after) :
    h.perform (m := m) (.preload image) = (.pass result, after) := by
  unfold perform
  dsimp only
  rw [p.preload_eq]
  rfl

/-- A pass reads nothing but the setup. -/
theorem perform_of_pass {h h' : Host} (hsame : SameSetup h h')
    {op : Operation m} (hpass : op.isPass = true) :
    h'.perform op = h.perform op := by
  have hreset := reset_of_sameSetup hsame
  cases op with
  | prepare compiler =>
    unfold perform
    dsimp only
    rw [← prepare_reset h', ← prepare_reset h, hreset]
  | preload image =>
    unfold perform
    dsimp only
    rw [← preload_reset h', ← preload_reset h, hreset]
  | invoke | artifact | save | dispose => cases hpass

/-- Only a pass over an image reads the name of the entry point. -/
theorem perform_renamed (name : String) {op : Operation m}
    (hop : op.isPreload = false) (h : Host) :
    (h.renamed name).perform op =
      ((h.perform op).1, (h.perform op).2.renamed name) := by
  cases op with
  | prepare compiler =>
    have pass := Pass.prepare h compiler
    rw [perform_prepare pass, perform_prepare (pass.renamed name)]
  | preload image => cases hop
  | invoke | artifact | save | dispose => rfl

/-- Only what asks a compiler reads the rest. -/
theorem perform_reassigned (unit : SourceUnit)
    (references imports : Option (List String)) (settings : Settings)
    {op : Operation m} (hop : op.compiler? = none) (h : Host) :
    (h.reassigned unit references imports settings).perform op =
      ((h.perform op).1, (h.perform op).2.reassigned unit references imports
        settings) := by
  cases op with
  | preload image =>
    have intake := Intake.preload h image
    rw [perform_preload intake,
      perform_preload (intake.reassigned unit references imports settings)]
  | prepare | artifact | save => cases hop
  | invoke | dispose => rfl

/-! ## Runs -/

/-- What is to be seen while several things are done with a host: each answer,
and what the host has found after it. -/
def seen (h : Host) : List (Operation m) → List (Answer m × Findings)
  | [] => []
  | op :: ops =>
    ((h.perform op).1, (h.perform op).2.findings) :: (h.perform op).2.seen ops

/-- What commutes with each operation of a run, and is no finding, is not to be
seen in the run. -/
theorem seen_of_frame {f : Host → Host}
    (found : ∀ h, (f h).findings = h.findings) {ops : List (Operation m)}
    (perform : ∀ op ∈ ops, ∀ h, (f h).perform op =
      ((h.perform op).1, f (h.perform op).2))
    (h : Host) : (f h).seen ops = h.seen ops := by
  induction ops generalizing h with
  | nil => rfl
  | cons op ops ih =>
    have hop := perform op List.mem_cons_self h
    have hops :=
      ih (fun o ho => perform o (List.mem_cons_of_mem _ ho)) (h.perform op).2
    unfold seen
    rw [hop]
    dsimp only
    rw [found, hops]

/-- **The last pass wins.** Whatever two hosts of one setup have been through,
nothing that is done with them from the next pass on is answered differently or
leaves them different. -/
theorem last_pass_wins (unit : SourceUnit)
    (references imports : Option (List String)) (settings : Settings)
    (history history' : List (Operation m)) (pass : Operation m)
    (hpass : pass.isPass = true) (rest : List (Operation m)) :
    ((ofUnit unit references imports settings).run history).seen (pass :: rest) =
      ((ofUnit unit references imports settings).run history').seen
        (pass :: rest) := by
  have hsame : ∀ ops : List (Operation m),
      SameSetup (ofUnit unit references imports settings)
      ((ofUnit unit references imports settings).run ops) :=
    fun ops => run_sameSetup _ ops
  unfold seen
  rw [perform_of_pass (hsame history) hpass, perform_of_pass (hsame history') hpass]

/-- A host that was disposed of after a refusal still has the violation and the
metadata on record, and yet it goes on from a broken pass as a new host does. -/
theorem last_pass_wins_refused :
    ∃ refusing broken : Compiler Id,
      let start := ofUnit (.inline "") none none .default
      let used := start.run [.prepare refusing, .dispose]
      used.violation = some .emptyName ∧ used.metadata.definition.isSome = true ∧
        used.output = ["error: Name cannot be empty in the Definition attribute"] ∧
        start.violation = none ∧
        used.seen [.prepare broken, .invoke [.null], .artifact broken] =
          start.seen [.prepare broken, .invoke [.null], .artifact broken] := by
  let entry : EntryPoint :=
    { name := "run"
      arity := 0
      attributes := [.definition (.named "cpu" " " "ops")]
      call := fun _ => .ok (.value .null) }
  let handle : Handle Id :=
    { diagnostics := .ok []
      signature := .canonical
      emit := .ok ⟨"unit", fun _ => .ok entry⟩
      save := fun path => .ok path
      artifact := .ok ⟨"unit", ""⟩ }
  let refusing : Compiler Id := ⟨"refusing", fun _ _ _ => .ok handle⟩
  let broken : Compiler Id :=
    ⟨"broken", fun _ _ _ => .error (.ofMessage "socket closed")⟩
  refine ⟨refusing,
    broken, by decide +kernel, by decide +kernel, by decide +kernel, rfl, ?_⟩
  exact last_pass_wins (.inline "") none none .default
    [.prepare refusing, .dispose] []
    (.prepare broken) rfl [.invoke [.null], .artifact broken]

/-- **The two ways to a unit do not share their settings.** In a run that takes
no image in, hosts that differ in the name of the entry point cannot be told
apart. And in a run that asks no compiler, so that its passes are over images
and nothing is exported, hosts that share this name cannot be told apart,
whatever they differ in besides. -/
theorem settings_kept_apart (ops : List (Operation m)) :
    ((∀ op ∈ ops, op.isPreload = false) →
      ∀ (unit : SourceUnit) (references imports : Option (List String))
        (settings : Settings) (name : String),
        (ofUnit unit references imports
          { settings with entryPoint := name }).seen ops =
          (ofUnit unit references imports settings).seen ops) ∧
    ((∀ op ∈ ops, op.compiler? = none) →
      ∀ (unit unit' : SourceUnit)
        (references references' imports imports' : Option (List String))
        (settings settings' : Settings), settings'.entryPoint = settings.entryPoint →
        (ofUnit unit' references' imports' settings').seen ops =
          (ofUnit unit references imports settings).seen ops) := by
  constructor
  · intro hops unit references imports settings name
    have perform : ∀ op ∈ ops, ∀ h : Host,
        (h.renamed name).perform op =
        ((h.perform op).1, (h.perform op).2.renamed name) :=
      fun op hop h => perform_renamed name (hops op hop) h
    exact seen_of_frame (f := renamed name) (fun _ => rfl) perform
      (ofUnit unit references imports settings)
  · intro hops unit unit' references references' imports imports' settings
      settings' hname
    have perform : ∀ op ∈ ops, ∀ h : Host,
        (h.reassigned unit' references' imports' settings').perform op =
          ((h.perform op).1, (h.perform op).2.reassigned unit' references'
            imports' settings') :=
      fun op hop h => perform_reassigned unit' references' imports' settings'
        (hops op hop) h
    have hstart : ofUnit unit' references' imports' settings' =
        (ofUnit unit references imports settings).reassigned unit' references'
          imports'
          settings' := by
      unfold ofUnit reassigned
      rw [← hname]
    rw [hstart]
    exact seen_of_frame (f := reassigned unit' references' imports' settings')
      (fun _ => rfl) perform
      (ofUnit unit references imports settings)

/-- An image that offers `run` tells two hosts apart that look for different
names, as long as it is taken in; the same unit from its source does not. And it
does not tell hosts of different units and rules apart, although one of them
would refuse the source. -/
theorem settings_kept_apart_named :
    ∃ (compiler : Compiler Id) (image : Image),
      let main : Settings := { Settings.default with entryPoint := "main" }
      let strict : Settings := { Settings.default with reserved := "cpu" }
      let unit := SourceUnit.inline ""
      ((ofUnit unit none none main).run [.preload (m := Id) image]).stage =
        .compiledFailed ∧ ((ofUnit unit none none strict).run
          [.preload (m := Id) image]).stage = .ready ∧
        ((ofUnit unit none none strict).run [.prepare compiler]).stage =
          .validationFailed ∧
        (ofUnit unit none none main).seen
        [.prepare compiler, .save compiler "out", .invoke []] =
          (ofUnit unit none none .default).seen
            [.prepare compiler, .save compiler "out", .invoke []] ∧
        (ofUnit (.inline "other") (some []) none strict).seen
            [.preload (m := Id) image, .invoke [], .dispose] =
          (ofUnit unit none none .default).seen
            [.preload image, .invoke [], .dispose] := by
  let entry : EntryPoint :=
    { name := "run"
      arity := 0
      attributes := [.definition (.named "cpu" "CPU?" "ops")]
      call := fun _ => .ok (.value .null) }
  let image : Image :=
    { name := "unit"
      resolve := fun signature =>
        if signature.name = "run" then .ok entry
        else .error (.compilation "absent") }
  let handle : Handle Id :=
    { diagnostics := .ok []
      signature := .canonical
      emit := .ok image
      save := fun path => .ok path
      artifact := .ok ⟨"unit", ""⟩ }
  let compiler : Compiler Id := ⟨"constant", fun _ _ _ => .ok handle⟩
  refine ⟨compiler,
    image, by decide +kernel, by decide +kernel, by decide +kernel, ?_, ?_⟩
  · obtain ⟨hnames, -⟩ :=
      settings_kept_apart [.prepare compiler, .save compiler "out", .invoke []]
    exact hnames (by simp [Operation.isPreload]) (.inline "") none none .default
      "main"
  · obtain ⟨-, hrest⟩ :=
      settings_kept_apart (m := Id) [.preload image, .invoke [], .dispose]
    exact hrest (by simp [Operation.compiler?]) (.inline "") (.inline "other")
      none (some []) none
      none .default { Settings.default with reserved := "cpu" } rfl

end Run

end Host

end DetectorBench
