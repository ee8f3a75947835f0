import DetectorBench.Proofs.Host.Run

/-!
# What a host hands out

Invoking, packing and saving are all gated by the stage. A host that is not
ready turns everything down with one text, made of its stage and of what the
last pass had to say, and asks nobody (`TurnsDown`). A host that is ready has an
entry point to invoke, which a run of operations cannot take from it
(`Coherent`); and what it exports comes from a compilation that is done anew,
with the source and the lists that it was set up with (`Serves`). `Exported`
says which answer of that compilation leads to which answer of the host, once
for both kinds of export. No field that a pass has written occurs in it.

> `exported_iff`: compiling anew follows the rules of `Exported`.

A complaint of a host can be told from the complaints of a compiler by how it
starts, whatever the diagnostics say: a diagnostic is shown with a bracket or a
severity in front (`answers_by_stage`, last part).
-/

namespace DetectorBench

/-! ## How complaints start -/

/-- The words that a host starts with when it is not ready. -/
def Host.refusalWords : String := "entity is not ready (state: "

/-- Joined lines start with the first of them. -/
theorem Text.joinLines_cons (line : String) (lines : List String) :
    ∃ rest, (Text.joinLines (line :: lines)).toList = line.toList ++ rest := by
  unfold Text.joinLines
  rw [String.toList_intercalate]
  cases lines with
  | nil => exact ⟨[], by simp⟩
  | cons next lines =>
    refine ⟨"\n".toList ++ List.intercalate "\n".toList
      ((next :: lines).map String.toList), ?_⟩
    simp [List.intercalate]

/-- No diagnostic is shown with those words in front. -/
theorem Diagnostic.not_refusalWords_prefix (d : Diagnostic) (rest : List Char) :
    ¬Host.refusalWords.toList <+: d.render.toList ++ rest := by
  obtain ⟨severity, message, location⟩ := d
  unfold Diagnostic.render
  rw [String.toList_ofList]
  -- two characters tell them apart: no severity starts with `en`, and no place
  -- with `e`
  cases location with
  | some place => simp [Host.refusalWords]
  | none => cases severity <;> simp [Host.refusalWords, Severity.name]

/-- So no complaint made of diagnostics starts with them. -/
theorem Diagnostic.not_refusalWords_prefix_lines {ds : List Diagnostic}
    (h : ds ≠ []) :
    ¬Host.refusalWords.toList <+: (Text.joinLines (Host.linesOf ds)).toList := by
  obtain ⟨d, others, rfl⟩ := List.exists_cons_of_ne_nil h
  obtain ⟨rest, hrest⟩ := Text.joinLines_cons d.render (Host.linesOf others)
  show ¬_ <+: (Text.joinLines (d.render :: Host.linesOf others)).toList
  rw [hrest]
  exact d.not_refusalWords_prefix rest

/-- Calling an entry point never comes to a complaint about the unit. -/
theorem EntryPoint.invoke_ne_compilation (e : EntryPoint)
    (arguments : List Json) (text : String) :
    e.invoke arguments ≠ .error (.compilation text) := by
  unfold EntryPoint.invoke
  intro h
  cases hcall : e.call (EntryPoint.bind e.arity arguments) with
  | error error =>
    rw [hcall] at h
    cases h
  | ok outcome =>
    rw [hcall] at h
    cases hsettle : outcome.settle with
    | error failure =>
      simp only [hsettle] at h
      cases h
    | ok output =>
      simp only [hsettle] at h
      cases h

namespace Host

variable {m : Type → Type}

/-! ## Not ready -/

/-- The text of a host that is not ready. -/
def refusalText (h : Host) : String :=
  Text.joinLines (stageLine h.stage :: h.output)

/-- Every refusal begins with the same words. -/
theorem refusalWords_prefix (h : Host) :
    refusalWords.toList <+: h.refusalText.toList := by
  obtain ⟨rest, hrest⟩ := Text.joinLines_cons (stageLine h.stage) h.output
  have hline : stageLine h.stage = refusalWords ++ h.stage.name ++ ")" := rfl
  unfold refusalText
  rw [hrest, hline, String.toList_append, String.toList_append,
    List.append_assoc, List.append_assoc]
  exact List.prefix_append _ _

section NotReady

variable {h : Host} (hstage : h.stage ≠ .ready) {n : Type → Type} [Monad n]

include hstage

/-- No entry point is called before the stage has been looked at. -/
theorem invokeBy_of_not_ready
    (call : EntryPoint → List Json → n (Except HostError Output))
    (arguments : List Json) :
    h.invokeBy call arguments = pure (.error (.compilation h.refusalText)) := by
  unfold invokeBy
  split
  next hready _ => exact absurd hready hstage
  next => rfl

/-- No compiler is asked before the stage has been looked at. -/
theorem recompileBy_of_not_ready (asking : Asking m n) (compiler : Compiler m) :
    h.recompileBy asking compiler = pure (.error (.compilation h.refusalText)) := by
  unfold recompileBy
  rw [if_pos hstage]
  rfl

/-- And so no handle is asked for anything. -/
theorem exportBy_of_not_ready [LawfulMonad n] {α : Type} (asking : Asking m n)
    (compiler : Compiler m) (give : Handle m → n (Except Failure α)) :
    h.exportBy asking compiler give =
      pure (.error (.compilation h.refusalText)) := by
  unfold exportBy
  rw [recompileBy_of_not_ready hstage, pure_bind]

/-- A host that is not ready answers an invocation with the refusal. -/
theorem invoke_of_not_ready (arguments : List Json) :
    h.invoke arguments = .error (.compilation h.refusalText) :=
  invokeBy_of_not_ready (n := Id) hstage EntryPoint.invoke arguments

/-- It answers an export so, too. -/
theorem recompile_of_not_ready (compiler : Compiler m) :
    h.recompile compiler = .error (.compilation h.refusalText) :=
  recompileBy_of_not_ready (n := Id) hstage .atHand compiler

end NotReady

/-! ## Ready -/

/-- What becomes of a compilation that was done for an export: the host
complains in its own way (`refuse`), or what the handle has to give is given
(`give`). -/
inductive Exported {β : Type} (compiled : Except Failure (Handle m))
    (refuse : HostError → β)
    (give : Handle m → β) : β → Prop where
  /-- The compiler broke. -/
  | uncompiled {failure : Failure} (compile : compiled = .error failure) :
    Exported compiled refuse give (refuse (.pipeline failure))
  /-- The diagnostics could not be had. -/
  | unreported {handle : Handle m} {failure : Failure}
    (compile : compiled = .ok handle)
    (report : handle.diagnostics = .error failure) :
    Exported compiled refuse give (refuse (.pipeline failure))
  /-- A diagnostic is an error. -/
  | erroneous {handle : Handle m} {ds : List Diagnostic}
    (compile : compiled = .ok handle) (report : handle.diagnostics = .ok ds)
    (error : ∃ d ∈ ds, d.severity = .error) :
    Exported compiled refuse give
      (refuse (.compilation (Text.joinLines (ds.map Diagnostic.render))))
  /-- Nothing that is said of the source is an error. -/
  | clean {handle : Handle m} {ds : List Diagnostic}
    (compile : compiled = .ok handle) (report : handle.diagnostics = .ok ds)
    (clean : ¬∃ d ∈ ds, d.severity = .error) :
    Exported compiled refuse give (give handle)

/-! What compiling anew comes to, rule by rule. -/

section Recompile

variable {h : Host} (hready : h.stage = .ready) {compiler : Compiler m}
  {handle : Handle m}
  {failure : Failure} {ds : List Diagnostic}

include hready

/-- If compiling fails now, that is the answer. -/
theorem recompile_of_uncompiled
    (compile : compiler.compile h.unit.script h.references h.imports =
      .error failure) :
    h.recompile compiler = .error (.pipeline failure) := by
  rw [recompile_eq, if_neg (not_not_intro hready), compile]

/-- A source that compiles is answered as the diagnostics say. -/
theorem recompile_of_compiled
    (compile : compiler.compile h.unit.script h.references h.imports = .ok handle) :
    h.recompile compiler =
      match handle.diagnostics with
      | .error failure => .error (.pipeline failure)
      | .ok diagnostics =>
        if Diagnostic.anyError diagnostics then
          .error (.ofLines (diagnostics.map Diagnostic.render))
        else .ok handle := by
  rw [recompile_eq, if_neg (not_not_intro hready)]
  generalize compiler.compile h.unit.script h.references h.imports =
    compiled at compile
  subst compile
  rfl

/-- If the diagnostics cannot be had, that is the answer. -/
theorem recompile_of_unreported
    (compile : compiler.compile h.unit.script h.references h.imports = .ok handle)
    (report : handle.diagnostics = .error failure) :
    h.recompile compiler = .error (.pipeline failure) := by
  rw [recompile_of_compiled hready compile, report]

/-- If an error is found now, the answer is everything that was found. -/
theorem recompile_of_erroneous
    (compile : compiler.compile h.unit.script h.references h.imports = .ok handle)
    (report : handle.diagnostics = .ok ds)
    (error : ∃ d ∈ ds, d.severity = .error) :
    h.recompile compiler =
      .error (.compilation (Text.joinLines (ds.map Diagnostic.render))) := by
  rw [recompile_of_compiled hready compile, report]
  exact if_pos (Diagnostic.anyError_iff.mpr error)

/-- Otherwise it is what was compiled now, and nothing that the host has
kept. -/
theorem recompile_of_clean
    (compile : compiler.compile h.unit.script h.references h.imports = .ok handle)
    (report : handle.diagnostics = .ok ds)
    (clean : ¬∃ d ∈ ds, d.severity = .error) :
    h.recompile compiler = .ok handle := by
  rw [recompile_of_compiled hready compile, report]
  exact if_neg (mt Diagnostic.anyError_iff.mp clean)

/-- The rules say what becomes of compiling anew, with the source and the lists
of the host: one of them applies, and no two lead to different answers. -/
theorem exported_iff {β : Type} (compiler : Compiler m) (refuse : HostError → β)
    (give : Handle m → β) (answer : β) :
    Exported (compiler.compile h.unit.script h.references h.imports) refuse give
      answer ↔ answer = match h.recompile compiler with
        | .error error => refuse error
        | .ok handle => give handle := by
  constructor
  · intro e
    cases e with
    | uncompiled compile => rw [recompile_of_uncompiled hready compile]
    | unreported compile report => rw [recompile_of_unreported hready compile report]
    | erroneous compile report error =>
      rw [recompile_of_erroneous hready compile report error]
    | clean compile report clean =>
      rw [recompile_of_clean hready compile report clean]
  · rintro rfl
    cases compile : compiler.compile h.unit.script h.references h.imports with
    | error failure =>
      rw [recompile_of_uncompiled hready compile]
      exact .uncompiled rfl
    | ok handle =>
      cases report : handle.diagnostics with
      | error failure =>
        rw [recompile_of_unreported hready compile report]
        exact .unreported rfl report
      | ok ds =>
        by_cases error : ∃ d ∈ ds, d.severity = .error
        · rw [recompile_of_erroneous hready compile report error]
          exact .erroneous rfl report error
        · rw [recompile_of_clean hready compile report error]
          exact .clean rfl report error

end Recompile

/-! ## Complaints -/

/-- A failure of a compiler is never a complaint about the unit. -/
theorem mapError_pipeline_ne {α : Type} (x : Except Failure α) (text : String) :
    x.mapError HostError.pipeline ≠ .error (.compilation text) := by
  cases x <;> exact nofun

/-- What a handle answers is never a complaint, so a complaint comes from
before. -/
theorem recompile_of_artifact {h : Host} {compiler : Compiler m} {text : String}
    (complaint : h.artifact compiler = .error (.compilation text)) :
    h.recompile compiler = .error (.compilation text) := by
  rw [artifact_eq] at complaint
  cases hr : h.recompile compiler with
  | error error =>
    rw [hr] at complaint
    cases complaint
    rfl
  | ok handle =>
    rw [hr] at complaint
    exact absurd complaint (mapError_pipeline_ne _ text)

/-- A complaint on saving was there before anything was saved. -/
theorem recompile_of_save [Monad m] [LawfulMonad m] [MonadAttach m]
    [LawfulMonadAttach m] {h : Host} {compiler : Compiler m}
    {path text : String}
    (complaint : MonadAttach.CanReturn (h.save compiler path)
      (.error (.compilation text))) :
    h.recompile compiler = .error (.compilation text) := by
  rw [save_eq] at complaint
  cases hr : h.recompile compiler with
  | error error =>
    rw [hr] at complaint
    cases LawfulMonadAttach.eq_of_canReturn_pure complaint
    rfl
  | ok handle =>
    rw [hr] at complaint
    obtain ⟨saved, -, hsaved⟩ := LawfulMonadAttach.canReturn_map_imp' complaint
    exact absurd hsaved (mapError_pipeline_ne saved text)

/-- The complaint of a ready host is that of the compiler. -/
theorem lines_of_recompile {h : Host} (hready : h.stage = .ready)
    {compiler : Compiler m} {text : String}
    (complaint : h.recompile compiler = .error (.compilation text)) :
    ∃ ds, ds ≠ [] ∧ text = Text.joinLines (linesOf ds) := by
  have exported :
      Exported (compiler.compile h.unit.script h.references h.imports) Except.error
      Except.ok (.error (.compilation text)) := by
    rw [exported_iff hready, complaint]
  cases exported with
  | erroneous compile report error =>
    obtain ⟨d, hd, -⟩ := error
    exact ⟨_, List.ne_nil_of_mem hd, rfl⟩

section Answers

variable [Monad m]

/-- A host turns down whatever it is asked for, with one text, and asks nobody.
The first three say what it answers. The last two say that it is all it does,
whatever the questions to others do that it might have asked: no entry point is
called, no compiler is asked, and nothing is taken from a handle, be it an
artifact or a file on some disk. -/
structure TurnsDown (m : Type → Type) [Monad m] (h : Host) (text : String) :
    Prop where
  invoke : ∀ arguments, h.invoke arguments = .error (.compilation text)
  artifact : ∀ compiler : Compiler m, h.artifact compiler =
    .error (.compilation text)
  save : ∀ (compiler : Compiler m) (path : String),
    h.save compiler path = pure (.error (.compilation text))
  uncalled : ∀ (n : Type → Type) [Monad n]
    (call : EntryPoint → List Json → n (Except HostError Output))
    (arguments : List Json),
    h.invokeBy call arguments = pure (.error (.compilation text))
  unasked : ∀ (n : Type → Type) [Monad n] [LawfulMonad n] (α : Type)
    (asking : Asking m n)
    (compiler : Compiler m) (give : Handle m → n (Except Failure α)),
    h.exportBy asking compiler give = pure (.error (.compilation text))

/-- A host never complains of the unit when it is invoked, and exports what a
compilation anew comes to, `compiled` being what each compiler answers. -/
structure Serves (h : Host) (compiled : Compiler m →
    Except Failure (Handle m)) : Prop where
  invoke : ∀ arguments text, h.invoke arguments ≠ .error (.compilation text)
  artifact : ∀ compiler answer, h.artifact compiler = answer ↔
    Exported (compiled compiler) .error
      (fun handle => handle.artifact.mapError .pipeline) answer
  save : ∀ compiler path answer, h.save compiler path = answer ↔
    Exported (compiled compiler) (fun error => pure (.error error))
      (fun handle => (·.mapError .pipeline) <$> handle.save path) answer

/-- Something that is asked of a host can be answered by a complaint about the
unit. -/
inductive Complains (m : Type → Type) [Monad m] [MonadAttach m] (h : Host) :
    String → Prop where
  | invoke {arguments : List Json} {text : String}
    (answer : h.invoke arguments = .error (.compilation text)) :
    Complains m h text
  | artifact {compiler : Compiler m} {text : String}
    (answer : h.artifact compiler = .error (.compilation text)) :
    Complains m h text
  | save {compiler : Compiler m} {path text : String}
    (answer : MonadAttach.CanReturn (h.save compiler path)
      (.error (.compilation text))) :
    Complains m h text

theorem turnsDown_of_not_ready [LawfulMonad m] {h : Host}
    (hstage : h.stage ≠ .ready) :
    TurnsDown m h h.refusalText where
  invoke := invoke_of_not_ready hstage
  artifact compiler := exportBy_of_not_ready (n := Id) hstage .atHand compiler _
  save compiler _ := exportBy_of_not_ready hstage .atHand compiler _
  uncalled _ _ call arguments := invokeBy_of_not_ready hstage call arguments
  unasked _ _ _ _ asking compiler give :=
    exportBy_of_not_ready hstage asking compiler give

/-- A coherent host that is ready has its entry point. -/
theorem serves_of_ready [LawfulMonad m] {h : Host} (hc : h.Coherent)
    (hready : h.stage = .ready) :
    h.Serves fun compiler : Compiler m =>
      compiler.compile h.unit.script h.references h.imports where
  invoke arguments text := by
    obtain ⟨entry, hentry⟩ :=
      Option.isSome_iff_exists.mp (hc.entry_iff.mpr (Or.inl hready))
    rw [invoke_eq, hready, hentry]
    exact entry.invoke_ne_compilation arguments text
  artifact compiler answer := by
    rw [exported_iff hready, artifact_eq]
    exact eq_comm
  save compiler path answer := by
    rw [exported_iff hready, save_eq]
    exact eq_comm

/-- Only a host that is not ready complains in its own words. -/
theorem refusalWords_prefix_iff [LawfulMonad m] [MonadAttach m]
    [LawfulMonadAttach m] {h : Host} (hc : h.Coherent) {text : String}
    (complaint : Complains m h text) :
    refusalWords.toList <+: text.toList ↔ h.stage ≠ .ready := by
  have hrecompile : ∀ {compiler : Compiler m}, h.recompile compiler =
      .error (.compilation text) →
      (refusalWords.toList <+: text.toList ↔ h.stage ≠ .ready) := by
    intro compiler hr
    by_cases hready : h.stage = .ready
    · obtain ⟨ds, hds, rfl⟩ := lines_of_recompile hready hr
      exact ⟨fun hprefix => absurd hprefix
        (Diagnostic.not_refusalWords_prefix_lines hds),
        fun hstage => absurd hready hstage⟩
    · rw [recompile_of_not_ready hready] at hr
      cases hr
      exact ⟨fun _ => hready, fun _ => h.refusalWords_prefix⟩
  cases complaint with
  | artifact answer => exact hrecompile (recompile_of_artifact answer)
  | save answer => exact hrecompile (recompile_of_save answer)
  | invoke answer =>
    by_cases hready : h.stage = .ready
    · exact absurd answer ((serves_of_ready (m := m) hc hready).invoke _ text)
    · rw [invoke_of_not_ready hready] at answer
      cases answer
      exact ⟨fun _ => hready, fun _ => h.refusalWords_prefix⟩

/-- **The stage decides what a host hands out.** Whatever was done with a host:
while it is not ready, it turns everything down with its stage and the output of
the last pass, and neither calls its entry point nor asks a compiler; and when
it is ready, invoking it is never answered by a complaint about the unit, and
exporting is answered as a compilation anew says, of the source and with the
lists that the host was set up with, whatever the passes left behind. So a
complaint starts with the host's own words if and only if it is not ready. -/
theorem answers_by_stage [LawfulMonad m] [MonadAttach m] [LawfulMonadAttach m]
    (unit : SourceUnit) (references imports : Option (List String))
    (settings : Settings) (ops : List (Operation m)) :
    let h := (ofUnit unit references imports settings).run ops
    (h.stage ≠ .ready →
      TurnsDown m h
        (Text.joinLines (("entity is not ready (state: " ++ h.stage.name ++
          ")") :: h.output))) ∧
    (h.stage = .ready →
      h.Serves fun compiler : Compiler m =>
        compiler.compile unit.script references imports) ∧
    ∀ text, Complains m h text →
      ("entity is not ready (state: ".toList <+: text.toList ↔
        h.stage ≠ .ready) := by
  intro h
  have hc : h.Coherent :=
    run_keeps_coherent (ofUnit_coherent unit references imports settings) ops
  have hsame : SameSetup (ofUnit unit references imports settings) h :=
    run_sameSetup _ ops
  refine ⟨turnsDown_of_not_ready, ?_, fun text => refusalWords_prefix_iff hc⟩
  intro hready
  have hserves := serves_of_ready (m := m) hc hready
  rw [hsame.unit, hsame.references, hsame.imports] at hserves
  exact hserves

/-- A unit that was fine when the host became ready and is exported when the
compiler has changed its mind gets the complaint of the day; once disposed of,
the host answers with its stage and the output of that pass. Where calls are
counted, the ready host makes one, and the host that was disposed of none. -/
theorem answers_by_stage_fickle :
    ∃ before after : Compiler Id,
      let host := ofUnit (.inline "") none none .default
      let counted (entry : EntryPoint) (arguments : List Json) :
          StateM Nat (Except HostError Output) :=
        fun calls => (entry.invoke arguments, calls + 1)
      (∀ text, Complains Id (host.run [.prepare before]) text →
        ¬"entity is not ready (state: ".toList <+: text.toList) ∧
      (host.run [.prepare before]).artifact after =
        .error (.compilation "error: gone") ∧
      (host.run [.prepare before]).save after "out" =
        .error (.compilation "error: gone") ∧
      TurnsDown Id (host.run [.prepare before, .dispose])
        "entity is not ready (state: new)\nhidden: seen" ∧
      ((host.run [.prepare before]).invokeBy counted [] 0).2 = 1 ∧
      ((host.run [.prepare before, .dispose]).invokeBy counted [] 0).2 = 0 := by
  let entry : EntryPoint :=
    { name := "run"
      arity := 0
      attributes := [.definition (.named "cpu" "CPU?" "ops")]
      call := fun _ => .ok (.value .null) }
  let saying (d : Diagnostic) : Handle Id :=
    { diagnostics := .ok [d]
      signature := .canonical
      emit := .ok ⟨"unit", fun _ => .ok entry⟩
      save := fun path => .ok path
      artifact := .ok ⟨"unit", ""⟩ }
  let before : Compiler Id :=
    ⟨"before", fun _ _ _ => .ok (saying ⟨.hidden, "seen", none⟩)⟩
  let after : Compiler Id :=
    ⟨"after", fun _ _ _ => .ok (saying ⟨.error, "gone", none⟩)⟩
  have gone : ∃ d ∈ [(⟨.error, "gone", none⟩ : Diagnostic)], d.severity = .error :=
    ⟨_, List.mem_singleton_self _, rfl⟩
  obtain ⟨-, hserves, hcomplains⟩ :=
    answers_by_stage (.inline "") none none .default [.prepare before]
  obtain ⟨hturns, -⟩ :=
    answers_by_stage (.inline "") none none .default [.prepare before, .dispose]
  let disposed :=
    (ofUnit (.inline "") none none .default).run [.prepare before, .dispose]
  have htext : disposed.refusalText =
      "entity is not ready (state: new)\nhidden: seen" := by
    decide +kernel
  have hready :
      ((ofUnit (.inline "") none none .default).run [.prepare before]).stage =
        .ready := by
    decide +kernel
  have hdisposed :
      TurnsDown Id disposed "entity is not ready (state: new)\nhidden: seen" :=
    htext ▸ hturns nofun
  refine ⟨before, after, ?_, ?_, ?_, hdisposed, by decide +kernel, ?_⟩
  · intro text complaint hprefix
    exact (hcomplains text complaint).mp hprefix hready
  · exact ((hserves hready).artifact after _).mpr (.erroneous rfl rfl gone)
  · exact ((hserves hready).save after "out" _).mpr (.erroneous rfl rfl gone)
  · exact congrArg (fun action => (action 0).2)
      (hdisposed.uncalled (StateM Nat) _ [])

end Answers

end Host

end DetectorBench
