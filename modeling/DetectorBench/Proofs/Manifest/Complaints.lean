import DetectorBench.Proofs.Manifest.Calling
import DetectorBench.Proofs.Manifest.Wording

/-!
# The lines of a complaint

A complaint about a unit is one text, made of several messages. Nothing in the
text tells where a message ends but its line breaks, and a message that quotes a
name with a line break has one of its own. So the lines of a complaint are the
lines of its messages, and whoever reads it line by line gets the messages back
exactly if each of them is of one line (`complaint_lines`). They are, if no name
that is quoted anywhere in the run has a line break (`PlainRun`); an author who
writes one adds a line that looks like a message (`complaint_lines_forged`).

What a host has on record comes from its passes, so this is an invariant of runs
(`run_plain`); what an export complains of are the diagnostics of a compilation
anew.
-/

namespace DetectorBench

open Text (OneLine)

namespace Host

variable {m : Type → Type} [Monad m] {registry : Registry}

/-! ## What is on record -/

/-- Whatever a host has on record is of one line. -/
def Plain (h : Host) : Prop :=
  ∀ line ∈ h.output, OneLine line

theorem oneLine_linesOf {h : Host}
    (hsource : Manifest.PlainSource h.unit.script) (registry : Registry)
    (extension : String) :
    ∀ line ∈ linesOf (Manifest.compilationOf registry extension h).diagnostics,
      OneLine line :=
  List.forall_mem_map.mpr (Manifest.oneLine_diagnostics hsource registry
    extension _ _)

/-- A pass over a plain source records the diagnostics, and one message more at
most. -/
theorem Pass.plain {h after : Host} {disk : Disk m} {extension : String}
    {result : Except HostError Unit}
    (p : Pass h (Manifest.compiler disk registry extension) result after)
    (hsource : Manifest.PlainSource h.unit.script) : after.Plain := by
  have hlines := oneLine_linesOf hsource registry extension
  have hone : ∀ {message : String}, OneLine message →
      ∀ line ∈ linesOf (Manifest.compilationOf registry extension
        h).diagnostics ++ [message], OneLine line :=
    fun hmessage => List.forall_mem_append.mpr
      ⟨hlines, List.forall_mem_singleton.mpr hmessage⟩
  cases p with
  | uncompiled | unreported => exact nofun
  | erroneous compile report =>
    cases compile
    cases report
    exact hlines
  | unemitted checked | unresolved checked =>
    obtain ⟨-, rfl⟩ := checked.compilation
    exact hlines
  | absent checked emit resolve =>
    obtain ⟨rfl, rfl⟩ := checked.compilation
    obtain ⟨manifest, name, r, hparse, -, rfl⟩ := checked.emitted emit
    have hcanonical : OneLine Signature.canonical.name := by decide
    exact hone (Manifest.oneLine_of_resolve
      (hsource.names manifest hparse).entry hcanonical resolve)
  | repeated checked emit resolve extract =>
    -- the attributes of a manifest can be folded
    obtain ⟨manifest, name, r, -, -, rfl⟩ := checked.emitted emit
    rw [Manifest.eq_entryPoint_of_resolve resolve,
      Manifest.metadata_entryPoint] at extract
    cases extract
  | refused checked emit resolve extract validate =>
    obtain ⟨-, rfl⟩ := checked.compilation
    obtain ⟨manifest, name, r, hparse, -, rfl⟩ := checked.emitted emit
    rw [Manifest.eq_entryPoint_of_resolve resolve,
      Manifest.metadata_entryPoint] at extract
    cases extract
    have hviolation :=
      Manifest.oneLine_violation (hsource.names manifest hparse) validate
    exact hone (Text.oneLine_append.mpr ⟨by decide, hviolation⟩)
  | ready checked _ _ _ validate =>
    obtain ⟨-, rfl⟩ := checked.compilation
    exact List.forall_mem_append.mpr ⟨hlines, Manifest.oneLine_warnings validate⟩

/-- A pass over an image records that it does not offer what is asked for, or
nothing. -/
theorem Intake.plain {h after : Host} {result : Except HostError Unit}
    {manifest : Manifest} {name : String} {r : Routine}
    (p : Intake h (manifest.image name r) result after)
    (hentry : OneLine manifest.entry.name)
    (hsettings : OneLine h.settings.entryPoint) :
    after.Plain := by
  cases p with
  | unresolved | ready => exact nofun
  | absent resolve =>
    have hmessage := Manifest.oneLine_of_resolve hentry hsettings resolve
    exact List.forall_mem_singleton.mpr hmessage
  | repeated resolve extract =>
    rw [Manifest.eq_entryPoint_of_resolve resolve,
      Manifest.metadata_entryPoint] at extract
    cases extract

/-- No name that comes to be quoted in a run has a line break: neither a name in
the source, nor the entry point that is asked for, nor that of an image that is
taken in. -/
structure PlainRun (unit : SourceUnit) (settings : Settings)
    (ops : List (Operation m)) : Prop where
  source : Manifest.PlainSource unit.script
  settings : OneLine settings.entryPoint
  images : ∀ (manifest : Manifest) (name : String) (r : Routine),
    .preload (manifest.image name r) ∈ ops → OneLine manifest.entry.name

theorem perform_plain {h : Host} (hplain : h.Plain) {op : Operation m}
    (hop : op.Over registry) (hrun : PlainRun h.unit h.settings [op]) :
    (h.perform op).2.Plain := by
  cases hop with
  | prepare disk extension => exact (Pass.prepare h _).plain hrun.source
  | preload loaded =>
    obtain ⟨manifest, r, -, -, rfl⟩ := Manifest.loadImage_eq_ok_iff.mp loaded
    have hentry := hrun.images manifest _ r (List.mem_singleton_self _)
    exact (Intake.preload h _).plain hentry hrun.settings
  | other hpass =>
    cases op with
    | prepare | preload => cases hpass
    | invoke | artifact | save | dispose => exact hplain

theorem run_plain {h : Host} (hplain : h.Plain) {ops : List (Operation m)}
    (hops : ∀ op ∈ ops, op.Over registry)
    (hrun : PlainRun h.unit h.settings ops) :
    (h.run ops).Plain := by
  induction ops generalizing h with
  | nil => exact hplain
  | cons op ops ih =>
    obtain ⟨hop, hrest⟩ := List.forall_mem_cons.mp hops
    have hfirst : PlainRun h.unit h.settings [op] := by
      refine ⟨hrun.source, hrun.settings, fun manifest name r hmem => ?_⟩
      exact hrun.images manifest name r
        (List.mem_singleton.mp hmem ▸ List.mem_cons_self)
    have hsame := perform_sameSetup h op
    refine ih (perform_plain hplain hop hfirst) hrest
      ⟨?_, ?_, fun manifest name r hmem => ?_⟩
    · rw [hsame.unit]
      exact hrun.source
    · rw [hsame.settings]
      exact hrun.settings
    · exact hrun.images manifest name r (List.mem_cons_of_mem op hmem)

/-! ## Complaints -/

/-- A complaint about the unit, of a host whose exports are compiled as
manifests. -/
inductive ComplainsOver (m : Type → Type) [Monad m] [MonadAttach m]
    (registry : Registry) (h : Host) :
    String → Prop where
  | invoke {arguments : List Json} {text : String}
    (answer : h.invoke arguments = .error (.compilation text)) :
      ComplainsOver m registry h text
  | artifact {disk : Disk m} {extension text : String}
    (answer : h.artifact (Manifest.compiler disk registry extension) =
      .error (.compilation text)) :
    ComplainsOver m registry h text
  | save {disk : Disk m} {extension path text : String}
    (answer : MonadAttach.CanReturn
      (h.save (Manifest.compiler disk registry extension) path)
        (.error (.compilation text))) :
    ComplainsOver m registry h text

/-- The messages that a complaint is made of: while a host is not ready, where
it stands and what it has on record; else the diagnostics of a compilation
anew. -/
inductive Messages (registry : Registry) (h : Host) : List String → Prop where
  | unready (stage : h.stage ≠ .ready) :
    Messages registry h
      (("entity is not ready (state: " ++ h.stage.name ++ ")") :: h.output)
  | fresh (stage : h.stage = .ready) (extension : String)
    (error : ∃ d ∈ (Manifest.compilationOf registry extension h).diagnostics,
      d.severity = .error) :
    Messages registry h
      (linesOf (Manifest.compilationOf registry extension h).diagnostics)

theorem Messages.ne_nil {h : Host} {messages : List String}
    (hm : Messages registry h messages) :
    messages ≠ [] := by
  cases hm with
  | unready => exact List.cons_ne_nil _ _
  | fresh _ _ error => exact linesOf_ne_nil error

theorem messages_of_recompile {h : Host} {disk : Disk m}
    {extension text : String}
    (complaint : h.recompile (Manifest.compiler disk registry extension) =
      .error (.compilation text)) :
    ∃ messages, Messages registry h messages ∧ text = Text.joinLines messages := by
  by_cases hready : h.stage = .ready
  · have exported : Exported
        ((Manifest.compiler disk registry extension).compile h.unit.script
          h.references h.imports)
        Except.error Except.ok (.error (.compilation text)) := by
      rw [exported_iff hready, complaint]
    cases exported with
    | erroneous compile report error =>
      cases compile
      cases report
      exact ⟨_, .fresh hready extension error, rfl⟩
  · rw [recompile_of_not_ready hready] at complaint
    cases complaint
    exact ⟨_, .unready hready, rfl⟩

/-- Every complaint is made of messages. -/
theorem messages_of_complaint [LawfulMonad m] [MonadAttach m]
    [LawfulMonadAttach m] {h : Host} (hc : h.Coherent) {text : String}
    (complaint : ComplainsOver m registry h text) :
    ∃ messages, Messages registry h messages ∧ text = Text.joinLines messages := by
  cases complaint with
  | artifact answer => exact messages_of_recompile (recompile_of_artifact answer)
  | save answer => exact messages_of_recompile (recompile_of_save answer)
  | invoke answer =>
    by_cases hready : h.stage = .ready
    · exact absurd answer ((serves_of_ready (m := m) hc hready).invoke _ text)
    · rw [invoke_of_not_ready hready] at answer
      cases answer
      exact ⟨_, .unready hready, rfl⟩

/-- The messages of a host that speaks plainly, about a plain source. -/
theorem Messages.plain {h : Host} {messages : List String}
    (hm : Messages registry h messages) (hplain : h.Plain)
    (hsource : Manifest.PlainSource h.unit.script) :
    ∀ message ∈ messages, OneLine message := by
  cases hm with
  | unready =>
    have hstage :
        OneLine ("entity is not ready (state: " ++ h.stage.name ++ ")") := by
      cases h.stage <;> decide
    exact List.forall_mem_cons.mpr ⟨hstage, hplain⟩
  | fresh => exact oneLine_linesOf hsource registry _

/-- **The lines of a complaint.** Whatever was done with a host that works with
the compiler and the images of manifests, a complaint is made of messages, and
its lines are the lines of the messages, in their order. They are the messages
themselves exactly if every message is of one line, and so they are if no name
that comes to be quoted has a line break. -/
theorem complaint_lines [LawfulMonad m] [MonadAttach m] [LawfulMonadAttach m]
    (unit : SourceUnit) (references imports : Option (List String))
    (settings : Settings) (ops : List (Operation m))
    (hops : ∀ op ∈ ops, op.Over registry) (text : String) :
    let h := (ofUnit unit references imports settings).run ops
    ComplainsOver m registry h text →
      ∃ messages, Messages registry h messages ∧ text = Text.joinLines messages ∧
        Text.lines text = messages.flatMap Text.lines ∧
        (Text.lines text = messages ↔ ∀ message ∈ messages, OneLine message) ∧
        (PlainRun unit settings ops → Text.lines text = messages) := by
  intro h complaint
  let start := ofUnit unit references imports settings
  have hc : h.Coherent :=
    run_keeps_coherent (ofUnit_coherent unit references imports settings) ops
  obtain ⟨messages, hm, rfl⟩ := messages_of_complaint hc complaint
  have hlines := Text.lines_joinLines hm.ne_nil
  have hiff : Text.lines (Text.joinLines messages) = messages ↔
      ∀ message ∈ messages, OneLine message := by
    rw [hlines]
    exact Text.flatMap_lines_eq_iff
  refine ⟨messages, hm, rfl, hlines, hiff, fun hrun => hiff.mpr ?_⟩
  have hplain : h.Plain := run_plain (h := start) nofun hops hrun
  have hsource : Manifest.PlainSource h.unit.script := by
    rw [(run_sameSetup start ops).unit]
    exact hrun.source
  exact hm.plain hplain hsource

/-- A reference that is not permitted, and whose name is of one line. -/
theorem complaint_lines_forbidden :
    let compiler := Manifest.compiler FileTree.disk Routine.builtin "unit"
    let unit := SourceUnit.inline
      "\x7b\"entry\":\x7b\"routine\":\"echo\"\x7d,\"references\":[\"a\"]\x7d"
    let h := (ofUnit unit (some []) none .default).run [.prepare compiler]
    ∃ text messages, h.invoke [] = .error (.compilation text) ∧
      Messages Routine.builtin h messages ∧ text = Text.joinLines messages ∧
        Text.lines text = messages := by
  intro compiler unit h
  have hparse :
      Manifest.parse unit.script = .ok ⟨⟨"run", "echo"⟩, .empty, ["a"], []⟩ := by
    decide +kernel
  have hsource : Manifest.PlainSource unit.script := by
    constructor
    · intro manifest hmanifest
      cases hparse.symm.trans hmanifest
      refine ⟨by decide, by decide, ?_, nofun, nofun, nofun⟩
      exact List.forall_mem_singleton.mpr (by decide)
    · intro fault name known hread
      unfold Manifest.parse at hparse
      dsimp only at hparse
      rw [hread] at hparse
      cases hparse
  have hops : ∀ op ∈ [.prepare compiler], Operation.Over Routine.builtin op := by
    intro op hop
    cases List.mem_singleton.mp hop
    exact .prepare FileTree.disk "unit"
  have hrun : PlainRun unit .default [.prepare compiler] := by
    refine ⟨hsource, by decide, fun manifest name r hmem => ?_⟩
    cases List.mem_singleton.mp hmem
  have hstage : h.stage ≠ .ready := by decide +kernel
  have hinvoke := invoke_of_not_ready hstage []
  obtain ⟨messages, hm, htext, -, -, hlines⟩ :=
    complaint_lines unit (some []) none .default [.prepare compiler] hops
      _ (.invoke hinvoke)
  exact ⟨_, messages, hinvoke, hm, htext, hlines hrun⟩

/-- A name with a line break forges a message: there are two messages, and three
lines. -/
theorem complaint_lines_forged :
    let compiler := Manifest.compiler FileTree.disk Routine.builtin "unit"
    let unit := SourceUnit.inline
      "\x7b\"entry\":\x7b\"routine\":\"echo\"\x7d,\"references\":[\"a\\nerror: forged\"]\x7d"
    let h := (ofUnit unit (some []) none .default).run [.prepare compiler]
    ∃ text messages, h.invoke [] = .error (.compilation text) ∧
      Messages Routine.builtin h messages ∧ text = Text.joinLines messages ∧
        Text.lines text ≠ messages ∧ messages.length = 2 ∧
          Text.lines text =
            ["entity is not ready (state: compiled_failed)", "error: reference 'a",
              "error: forged' is not permitted for this detector"] := by
  intro compiler unit h
  have hstage : h.stage ≠ .ready := by decide +kernel
  have hlines : Text.lines h.refusalText =
      ["entity is not ready (state: compiled_failed)", "error: reference 'a",
        "error: forged' is not permitted for this detector"] := by decide +kernel
  have htwo : (stageLine h.stage :: h.output).length = 2 := by decide +kernel
  refine ⟨h.refusalText, _, invoke_of_not_ready hstage [], .unready hstage, rfl,
    ?_, htwo, hlines⟩
  intro heq
  have hlength := congrArg List.length heq
  rw [hlines] at hlength
  exact absurd (hlength.trans htwo) (by decide)

end Host

end DetectorBench
