import DetectorBench.Proofs.Diagnostic.Rendering
import DetectorBench.Proofs.Host.Pass
import DetectorBench.Proofs.Metadata.Validation

/-!
# What the output of a pass tells of the diagnostics

A host keeps no diagnostics. It keeps their lines, at the front of its output,
and behind them whatever a pass has to say of its own. Since no two diagnostics
are shown alike, these lines determine the diagnostics, their severities, places
and messages (`linesOf_injective`).

What a host does not keep is how many of the lines are diagnostics. Mostly the
stage in which the pass ended tells (`ownLines`, `Pass.adds`). The stage
`compiledFailed` does not: the last line can be an error of the compiler, or the
complaint about an image that was emitted without one, and a complaint can be
worded like an error. So whoever has nothing but the host knows the diagnostics
up to that last one (`diagnostics_determined`, last part).
-/

namespace DetectorBench

namespace Host

variable {m m' : Type → Type}

theorem linesOf_injective : Function.Injective linesOf :=
  Diagnostic.render_injective.list_map

/-- The diagnostics that a compiler gives to a pass over the source of a
host. -/
def Diagnosed (h : Host) (compiler : Compiler m) (ds : List Diagnostic) :
    Prop :=
  ∃ handle, compiler.compile h.unit.script h.references h.imports = .ok handle ∧
    handle.diagnostics = .ok ds

theorem Diagnosed.unique {h : Host} {compiler : Compiler m}
    {ds ds' : List Diagnostic} (found : h.Diagnosed compiler ds)
    (found' : h.Diagnosed compiler ds') : ds = ds' := by
  obtain ⟨handle, compiled, reported⟩ := found
  obtain ⟨handle', compiled', reported'⟩ := found'
  cases compiled.symm.trans compiled'
  exact Except.ok.inj (reported.symm.trans reported')

theorem Checked.diagnosed {h : Host} {compiler : Compiler m} {handle : Handle m}
    {ds : List Diagnostic} (c : Checked h compiler handle ds) :
    h.Diagnosed compiler ds :=
  ⟨handle, c.compiled, c.reported⟩

/-! ## The lines behind the diagnostics -/

/-- How many lines a pass has added of its own, as far as the stage tells: the
violation, or the warnings of validation. -/
def ownLines (h : Host) : Nat :=
  match h.stage with
  | .validationFailed => 1
  | .ready => (h.metadata.warnings h.settings.rules).length
  | .new | .compiling | .compiledFailed => 0

/-- What a pass with diagnostics adds of its own. -/
inductive Adds (after : Host) (ds : List Diagnostic) : List String → Prop where
  /-- As many lines as the stage tells. Where nothing else ended the pass, an
  error did. -/
  | told {own : List String} (count : own.length = after.ownLines)
    (error : after.stage = .compiledFailed → ∃ d ∈ ds, d.severity = .error) :
      Adds after ds own
  /-- A complaint about the image, though no diagnostic is an error. -/
  | complaint {message : String} (stage : after.stage = .compiledFailed)
    (clean : ¬∃ d ∈ ds, d.severity = .error) : Adds after ds [message]

/-- A pass records the lines of the diagnostics, and adds to them. -/
theorem Pass.adds {h after : Host} {compiler : Compiler m}
    {result : Except HostError Unit} (p : Pass h compiler result after)
    {ds : List Diagnostic} (found : h.Diagnosed compiler ds) :
    ∃ own, after.output = linesOf ds ++ own ∧ Adds after ds own := by
  cases p with
  | uncompiled compile =>
    obtain ⟨handle, compiled, -⟩ := found
    cases compile.symm.trans compiled
  | unreported compile report =>
    obtain ⟨handle, compiled, reported⟩ := found
    cases compile.symm.trans compiled
    cases report.symm.trans reported
  | erroneous compile report error =>
    cases found.unique ⟨_, compile, report⟩
    exact ⟨[], (List.append_nil _).symm, .told rfl fun _ => error⟩
  | unemitted checked | unresolved checked =>
    cases found.unique checked.diagnosed
    exact ⟨[], (List.append_nil _).symm, .told rfl nofun⟩
  | absent checked | repeated checked =>
    cases found.unique checked.diagnosed
    exact ⟨_, rfl, .complaint rfl checked.clean⟩
  | refused checked =>
    cases found.unique checked.diagnosed
    exact ⟨_, rfl, .told rfl nofun⟩
  | ready checked _ _ _ validate =>
    cases found.unique checked.diagnosed
    obtain ⟨-, rfl⟩ := Metadata.validate_eq_ok_iff.mp validate
    exact ⟨_, rfl, .told rfl nofun⟩

/-- So the lines of the diagnostics are the front of the output. -/
theorem take_output {h : Host} {compiler : Compiler m} {ds : List Diagnostic}
    (found : h.Diagnosed compiler ds) :
    (h.prepare compiler).2.output.take ds.length = linesOf ds := by
  obtain ⟨own, houtput, -⟩ := (Pass.prepare h compiler).adds found
  rw [houtput]
  exact List.take_left' (List.length_map _)

/-! ## What can be told from a host -/

/-- Two hosts that validate by the same rules and cannot be told apart by stage,
output and metadata. -/
structure LooksLike (h h' : Host) : Prop where
  stage : h'.stage = h.stage
  output : h'.output = h.output
  metadata : h'.metadata = h.metadata
  rules : h'.settings.rules = h.settings.rules

theorem LooksLike.ownLines {h h' : Host} (look : LooksLike h h') :
    h'.ownLines = h.ownLines := by
  unfold Host.ownLines
  rw [look.stage, look.metadata, look.rules]

/-- Diagnostics are the same up to one last error, which the one list has and
the other has not. -/
def UpToLastError (ds ds' : List Diagnostic) : Prop :=
  ∃ d, d.severity = .error ∧ (ds' = ds ++ [d] ∨ ds = ds' ++ [d])

/-- Where one pass ended in `compiledFailed` for an error and another with the
same output for a complaint, the complaint stands where the error is shown. -/
theorem eq_concat_of_complaint {after : Host}
    (stage : after.stage = .compiledFailed) {ds ds' : List Diagnostic}
    {own : List String} {message : String} (count : own.length = after.ownLines)
    (error : ∃ d ∈ ds, d.severity = .error)
    (clean : ¬∃ d ∈ ds', d.severity = .error)
    (hlines : linesOf ds ++ own = linesOf ds' ++ [message]) :
    ∃ d, d.severity = .error ∧ ds = ds' ++ [d] := by
  have hown : own = [] := by
    unfold ownLines at count
    rw [stage] at count
    exact List.eq_nil_of_length_eq_zero count
  rw [hown, List.append_nil] at hlines
  obtain ⟨front, last, rfl, hfront, hlast⟩ := List.map_eq_append_iff.mp hlines
  obtain ⟨d, rfl, -⟩ := List.map_eq_singleton_iff.mp hlast
  cases linesOf_injective hfront
  -- the error is not in front, so it is the last
  obtain ⟨e, hmem, herror⟩ := error
  rcases List.mem_append.mp hmem with hfront | hlast
  · exact absurd ⟨e, hfront, herror⟩ clean
  · rw [List.mem_singleton.mp hlast] at herror
    exact ⟨d, herror, rfl⟩

/-- Passes that leave hosts which look alike have had the same diagnostics, up
to a last error. -/
theorem Adds.determine {after after' : Host} (look : LooksLike after after')
    {ds ds' : List Diagnostic} {own own' : List String}
    (adds : Adds after ds own) (adds' : Adds after' ds' own')
    (hlines : linesOf ds' ++ own' = linesOf ds ++ own) :
    ds' = ds ∨ after.stage = .compiledFailed ∧ UpToLastError ds ds' := by
  have hequal : own'.length = own.length → ds' = ds := fun hlength =>
    linesOf_injective (List.append_inj_left' hlines hlength)
  cases adds with
  | told count error =>
    cases adds' with
    | told count' error' =>
      rw [look.ownLines, ← count] at count'
      exact .inl (hequal count')
    | complaint stage' clean' =>
      have stage : after.stage = .compiledFailed := look.stage.symm.trans stage'
      obtain ⟨d, herror, hds⟩ :=
        eq_concat_of_complaint stage count (error stage) clean' hlines.symm
      exact .inr ⟨stage, d, herror, .inr hds⟩
  | complaint stage clean =>
    cases adds' with
    | told count' error' =>
      have stage' : after'.stage = .compiledFailed := look.stage.trans stage
      obtain ⟨d, herror, hds⟩ :=
        eq_concat_of_complaint stage' count' (error' stage') clean hlines
      exact .inr ⟨stage, d, herror, .inl hds⟩
    | complaint => exact .inl (hequal rfl)

/-- **Showing diagnostics loses nothing.** Diagnostics that are shown by one
line are the same, whatever their messages look like. So what a pass over a
source records of the compiler's diagnostics, in front of all other output,
determines them: two passes with the same lines of diagnostics have had the same
diagnostics, whatever the hosts, the compilers and the rest of the output are.
And where nothing is known but how the hosts look that the passes leave, the
diagnostics are the same up to one last error, and simply the same unless the
passes ended in `compiledFailed`. -/
theorem diagnostics_determined :
    (∀ d d' : Diagnostic, d.render = d'.render → d = d') ∧
    ∀ (h h' : Host) (compiler : Compiler m) (compiler' : Compiler m')
      (ds ds' : List Diagnostic), h.Diagnosed compiler ds →
      h'.Diagnosed compiler' ds' →
      let after := (h.prepare compiler).2
      let after' := (h'.prepare compiler').2
      after.output.take ds.length = ds.map Diagnostic.render ∧
      (after'.output.take ds'.length = after.output.take ds.length → ds' = ds) ∧
      (LooksLike after after' →
        ds' = ds ∨ after.stage = .compiledFailed ∧ UpToLastError ds ds') := by
  refine ⟨fun d d' h => Diagnostic.render_injective h, ?_⟩
  intro h h' compiler compiler' ds ds' found found' after after'
  have hfront : after.output.take ds.length = linesOf ds := take_output found
  have hfront' : after'.output.take ds'.length = linesOf ds' := take_output found'
  refine ⟨hfront, fun hrecorded => ?_, fun look => ?_⟩
  · rw [hfront, hfront'] at hrecorded
    exact linesOf_injective hrecorded
  · obtain ⟨own, houtput, adds⟩ := (Pass.prepare h compiler).adds found
    obtain ⟨own', houtput', adds'⟩ := (Pass.prepare h' compiler').adds found'
    have hlines := look.output
    rw [houtput, houtput'] at hlines
    exact adds.determine look adds' hlines

/-- A warning that quotes the line of an error is recorded alike by a pass that
becomes ready, with a warning of its own behind it, and by one that ends with
the complaint `error: gone` about the image. The host that the latter leaves
looks like one that was given this complaint as a diagnostic. -/
theorem diagnostics_determined_lookalike :
    ∃ (lax steady strict : Compiler Id) (ds ds' ds'' : List Diagnostic),
      let h := ofUnit (.inline "") none none .default
      let after (compiler : Compiler Id) := (h.prepare compiler).2
      (h.Diagnosed lax ds ∧ h.Diagnosed steady ds' ∧
        (after steady).output ≠ (after lax).output ∧
        (after steady).output.take ds'.length =
        (after lax).output.take ds.length ∧ ds' = ds) ∧
      (h.Diagnosed strict ds'' ∧ LooksLike (after lax) (after strict) ∧ ds'' ≠ ds ∧
        UpToLastError ds ds'') := by
  let quoting : Diagnostic :=
    ⟨.warning, "(1,2): error: gone\nhidden: seen", some ⟨3, 14⟩⟩
  let gone : Diagnostic := ⟨.error, "gone", none⟩
  let entry : EntryPoint :=
    { name := "run"
      arity := 0
      attributes :=
        [.supportTopic ⟨"1", "2"⟩, .definition (.named "cpu" "CPU?" "ops"),
        .resourceFilter .internal]
      call := fun _ => .ok (.value .null) }
  let saying (ds : List Diagnostic) (found : Except ResolveError EntryPoint) :
    Compiler Id :=
    { name := "constant"
      compile := fun _ _ _ => .ok
        { diagnostics := .ok ds
          signature := .canonical
          emit := .ok ⟨"unit", fun _ => found⟩
          save := fun path => .ok path
          artifact := .ok ⟨"unit", ""⟩ } }
  let lax := saying [quoting] (.error (.compilation "error: gone"))
  let steady := saying [quoting] (.ok entry)
  let strict := saying [quoting, gone] (.ok entry)
  let h := ofUnit (.inline "") none none .default
  have found : h.Diagnosed lax [quoting] := ⟨_, rfl, rfl⟩
  have found' : h.Diagnosed steady [quoting] := ⟨_, rfl, rfl⟩
  have found'' : h.Diagnosed strict [quoting, gone] := ⟨_, rfl, rfl⟩
  -- both passes end in `compiledFailed`, one at the diagnostics and one at the
  -- image
  have herror : ∃ d ∈ [quoting, gone], d.severity = .error :=
    ⟨gone, List.mem_cons_of_mem _ (List.mem_singleton_self _), rfl⟩
  have hclean : ¬∃ d ∈ [quoting], d.severity = .error := by decide
  have hstrict : h.prepare strict =
      (.ok (), h.endedIn .compiledFailed (linesOf [quoting, gone])) :=
    (Pass.erroneous rfl rfl herror).prepare_eq
  have hlax : h.prepare lax =
      (.ok (), h.endedIn .compiledFailed (linesOf [quoting] ++ ["error: gone"])) :=
    (Pass.absent ⟨rfl, rfl, hclean⟩ rfl rfl).prepare_eq
  have hline : gone.render = "error: gone" := by decide +kernel
  have look : LooksLike (h.prepare lax).2 (h.prepare strict).2 := by
    rw [hlax, hstrict, ← hline]
    exact ⟨rfl, rfl, rfl, rfl⟩
  have hdiffer : (h.prepare steady).2.output ≠ (h.prepare lax).2.output := by
    decide +kernel
  have hfront : (h.prepare steady).2.output.take [quoting].length =
      (h.prepare lax).2.output.take [quoting].length := by decide +kernel
  have hmore : [quoting, gone] ≠ [quoting] := by decide
  obtain ⟨-, hpasses⟩ := @diagnostics_determined Id Id
  obtain ⟨-, hsame, -⟩ := hpasses h h lax steady _ _ found found'
  obtain ⟨-, -, hlook⟩ := hpasses h h lax strict _ _ found found''
  obtain ⟨-, hlast⟩ := (hlook look).resolve_left hmore
  refine ⟨lax, steady, strict, [quoting], [quoting], [quoting, gone], ?_, ?_⟩
  · exact ⟨found, found', hdiffer, hfront, hsame hfront⟩
  · exact ⟨found'', look, hmore, hlast⟩

end Host

end DetectorBench
