import DetectorBench.Program
import DetectorBench.Proofs.Report.RoundTrip
import DetectorBench.Proofs.Session.Opening

/-!
# The commands agree on a manifest

Three commands work with a manifest. Each of them opens it and goes on in its
own way: `check` reports on the host that it gets, `run` invokes that host,
`export` compiles its source anew. What opening comes to decides all of them
(`Session.Readies`): `check` and `export` as text end well exactly if the host
became ready, the others only then, and a command that turns a manifest down has
nothing to show and leaves the files alone (`Uses.turned_down`).

What can still go wrong with a ready host is what its routine says
(`Routine.Fails`), and for an export to a file, the disk.
-/

namespace DetectorBench

/-! ## Runs on a tree of files -/

/-- How a run with a request ends on a tree of files, and the tree that it
leaves. -/
def CommandLine.Request.endOn (request : CommandLine.Request)
    (env : Environment) (t : FileTree) :
    Ending × FileTree :=
  let s := Session.ofEnvironment env request.references request.imports
  (Transcript.ending <$> request.command.execute s FileTree.disk request.json) t

/-- That is what the program does with the words of a request. -/
theorem Program.run_of_parse {words : List String}
    {request : CommandLine.Request} (h : CommandLine.parse words = .ok request)
    (env : Environment) (t : FileTree) :
    Program.run env FileTree.disk words t = request.endOn env t := by
  unfold Program.run
  rw [h]
  rfl

example : CommandLine.parse ["--json", "check", "m", "--reference", "a",
    "--reference=b"] = .ok ⟨.check "m", true, ["a", "b"], []⟩ := rfl

/-- A request ends as its command does in the session of the environment. -/
theorem CommandLine.Request.endOn_of_execute (request : CommandLine.Request)
    {env : Environment} {t t' : FileTree} {transcript : Transcript}
    (h : request.command.execute
      (Session.ofEnvironment env request.references request.imports)
      FileTree.disk request.json t = (transcript, t')) :
    request.endOn env t = (transcript.ending, t') :=
  congrArg (fun done : Transcript × FileTree => (done.1.ending, done.2)) h

/-! ## Routines -/

/-- What a call of a routine fails with, as the body of an entry point: the
arguments are too few for it, or its own computation fails on as many of them as
it takes. -/
inductive Routine.Fails (r : Routine) (entry : String) (arguments : List Json) :
    Failure → Prop where
  | unbound (few : arguments.length < r.arity) :
    Fails r entry arguments
      (.ofMessage (BindingError.message ⟨entry, r.arity, arguments.length⟩))
  | faulted {failure : Failure}
    (enough : r.arity ≤ (arguments.take r.arity).length)
    (fault : (r.run (arguments.take r.arity) enough).settle = .error failure) :
    Fails r entry arguments failure

/-- Invoking the entry point of a manifest fails for no other reason. -/
theorem Manifest.entryPoint_fails {m : Manifest} {r : Routine}
    {arguments : List Json} {error : HostError}
    (h : (m.entryPoint r).invoke arguments = .error error) :
    r.Fails m.entry.name arguments error.failure := by
  have hcall :
      (m.entryPoint r).call (EntryPoint.bind (m.entryPoint r).arity arguments) =
      r.call m.entry.name (arguments.take r.arity) := rfl
  unfold EntryPoint.invoke at h
  rw [hcall, Routine.call] at h
  by_cases enough : r.arity ≤ (arguments.take r.arity).length
  · rw [dif_pos enough] at h
    dsimp only at h
    cases hsettle : (r.run (arguments.take r.arity) enough).settle with
    | ok output =>
      rw [hsettle] at h
      cases h
    | error failure =>
      rw [hsettle] at h
      cases h
      exact .faulted enough hsettle
  · rw [dif_neg enough] at h
    cases h
    rw [List.length_take] at enough
    -- too few are left only if there were too few, and then none were dropped
    have few : arguments.length < r.arity := by omega
    have hall : arguments.take r.arity = arguments :=
      List.take_of_length_le (by omega)
    rw [hall]
    exact .unbound few

/-! ## Transcripts -/

/-- The exit code tells whether a command failed. -/
theorem Transcript.code_eq_zero_iff {t : Transcript} :
    t.ending.code = 0 ↔ t.result = .ok () := by
  unfold ending
  cases t.result with
  | ok done => exact ⟨fun _ => rfl, fun _ => rfl⟩
  | error failure => exact ⟨fun hcode => absurd hcode Nat.one_ne_zero, nofun⟩

/-- A failure is never shown by the code of success. -/
theorem Transcript.code_failure (failure : Failure) (json : Bool) :
    (Transcript.failure failure json).ending.code ≠ 0 := by
  intro hcode
  have hresult := code_eq_zero_iff.mp hcode
  cases hresult

namespace Command

/-- A pass is shown by the code of success exactly if the host was opened and is
successful. -/
theorem code_ofPass {opened : Except Failure Host} {complaint : Host → String}
    {json : Bool} :
    (ofPass opened complaint json).ending.code = 0 ↔
      ∃ h, opened = .ok h ∧ h.successful = true := by
  rw [Transcript.code_eq_zero_iff]
  unfold ofPass
  cases opened with
  | error failure =>
    constructor
    · intro hresult
      cases hresult
    · intro hready
      obtain ⟨h, heq, -⟩ := hready
      cases heq
  | ok h =>
    dsimp only
    cases hsuccessful : h.successful with
    | true => exact ⟨fun _ => ⟨h, rfl, hsuccessful⟩, fun _ => rfl⟩
    | false =>
      constructor
      · intro hresult
        cases hresult
      · intro hready
        obtain ⟨h', heq, hsuccessful'⟩ := hready
        cases heq
        rw [hsuccessful] at hsuccessful'
        cases hsuccessful'

/-- A report is shown whatever the exit code. -/
theorem stdout_ofPass (h : Host) (complaint : Host → String) (json : Bool) :
    (ofPass (.ok h) complaint json).ending.stdout = h.report json ++ "\n" := by
  unfold ofPass
  dsimp only
  cases h.successful <;> rfl

/-! ## Commands after the manifest was opened -/

variable {s : Session} {t : FileTree} {manifest : String}

section Opened

variable {h : Host}

/-- A check is what opening the manifest comes to. -/
theorem execute_check {opened : Except Failure Host}
    (hopen : s.openManifest FileTree.disk manifest t = (opened, t))
    (json : Bool) :
    (check manifest).execute s FileTree.disk json t =
      (ofPass opened (fun h => manifest ++ " is not ready" ++ stageSuffix h) json,
        t) := by
  show (ofPass (s.openManifest FileTree.disk manifest t).1 _ json,
    (s.openManifest FileTree.disk manifest t).2) = _
  rw [hopen]

/-- A run is what invoking the opened host comes to. -/
theorem execute_run
    (hopen : s.openManifest FileTree.disk manifest t = (.ok h, t))
    (arguments : List String) (json : Bool) :
    (run manifest arguments).execute s FileTree.disk json t =
      (.ofResult (((h.invoke (arguments.map readArgument)).mapError
        HostError.failure).map (·.report json)) json, t) := by
  unfold execute invoke
  simp only [bind, StateT.bind, hopen]
  rfl

/-- An export to the output is what exporting from the opened host comes to. -/
theorem execute_exportText
    (hopen : s.openManifest FileTree.disk manifest t = (.ok h, t))
    (json : Bool) :
    (exportText manifest).execute s FileTree.disk json t =
      (.ofResult (((h.artifact (s.compiler FileTree.disk)).mapError
        HostError.failure).map (·.report json)) json, t) := by
  unfold execute showArtifact
  simp only [bind, StateT.bind, hopen]
  rfl

/-- An export to a file is what saving from the opened host comes to. -/
theorem execute_exportFile
    (hopen : s.openManifest FileTree.disk manifest t = (.ok h, t))
    {path : String} {saved : Except HostError String} {t' : FileTree}
    (hsave : h.save (s.compiler FileTree.disk) path t = (saved, t'))
    (json : Bool) :
    (exportFile manifest path).execute s FileTree.disk json t =
      (.ofResult ((saved.mapError HostError.failure).map
        (Artifact.savedReport · json)) json, t') := by
  unfold execute writeArtifact
  simp only [bind, StateT.bind, hopen, hsave]
  rfl

end Opened

/-- A command does something with a manifest besides reporting on it. -/
inductive Uses (manifest : String) : Command → Prop where
  | run (arguments : List String) : Uses manifest (.run manifest arguments)
  | exportFile (path : String) : Uses manifest (.exportFile manifest path)
  | exportText : Uses manifest (.exportText manifest)

/-- Where there is no ready host, such a command fails, and that is all it
does. -/
theorem Uses.turned_down {command : Command} (u : command.Uses manifest)
    (hnot : ¬s.Readies t manifest) (json : Bool) :
    ∃ failure, command.execute s FileTree.disk json t =
      (.failure failure json, t) := by
  obtain ⟨opened, hopen, unready⟩ := Session.openManifest_of_not_readies hnot
  cases opened with
  | error failure =>
    refine ⟨failure, ?_⟩
    cases u with
    | run arguments =>
      unfold execute invoke
      simp only [bind, StateT.bind, hopen]
      rfl
    | exportFile path =>
      unfold execute writeArtifact
      simp only [bind, StateT.bind, hopen]
      rfl
    | exportText =>
      unfold execute showArtifact
      simp only [bind, StateT.bind, hopen]
      rfl
  | ok h =>
    have turns :=
      Host.turnsDown_of_not_ready (m := StateM FileTree) (unready h rfl).1
    refine ⟨HostError.failure (.compilation h.refusalText), ?_⟩
    cases u with
    | run arguments =>
      rw [execute_run hopen, turns.invoke]
      rfl
    | exportFile path =>
      rw [execute_exportFile hopen (congrFun (turns.save _ path) t)]
      rfl
    | exportText =>
      rw [execute_exportText hopen, turns.artifact]
      rfl

/-! ## Ready or not -/

/-- **A check succeeds exactly if the manifest in the file makes a host
ready.** -/
theorem check_code_iff (s : Session) (t : FileTree) (manifest : String)
    (json : Bool) :
    ((check manifest).execute s FileTree.disk json t).1.ending.code = 0 ↔
      s.Readies t manifest := by
  by_cases hready : s.Readies t manifest
  · refine ⟨fun _ => hready, fun _ => ?_⟩
    obtain ⟨source, m, r, verdict, holds, parsed, accepts⟩ := hready
    have hopen := Session.openManifest_of_accepts holds parsed accepts
    rw [execute_check hopen, code_ofPass]
    exact ⟨_, rfl, rfl⟩
  · refine ⟨fun hcode => ?_, fun h => absurd h hready⟩
    obtain ⟨opened, hopen, unready⟩ := Session.openManifest_of_not_readies hready
    rw [execute_check hopen] at hcode
    obtain ⟨h, heq, hsuccessful⟩ := code_ofPass.mp hcode
    rw [(unready h heq).2] at hsuccessful
    cases hsuccessful

/-- **So does an export to the output**, for a ready host has something to
export. -/
theorem exportText_code_iff (s : Session) (t : FileTree) (manifest : String)
    (json : Bool) :
    ((exportText manifest).execute s FileTree.disk json t).1.ending.code = 0 ↔
      s.Readies t manifest := by
  by_cases hready : s.Readies t manifest
  · refine ⟨fun _ => hready, fun _ => ?_⟩
    obtain ⟨source, m, r, verdict, holds, parsed, accepts⟩ := hready
    have hopen := Session.openManifest_of_accepts holds parsed accepts
    have hartifact : (s.readyHost manifest source m r verdict).artifact
        (s.compiler FileTree.disk) = _ :=
          Manifest.artifact_of_ready rfl (accepts.unit parsed)
    rw [execute_exportText hopen, Transcript.code_eq_zero_iff, hartifact]
    rfl
  · refine ⟨fun hcode => ?_, fun h => absurd h hready⟩
    obtain ⟨failure, hrefused⟩ := Uses.turned_down .exportText hready json
    rw [hrefused] at hcode
    exact absurd hcode (Transcript.code_failure failure json)

/-- The JSON report on a manifest shows a ready host if there is one. -/
theorem readies_iff_shown (s : Session) (t : FileTree) (manifest : String) :
    s.Readies t manifest ↔
      ∃ r : Report, r.ShownBy
        ((check manifest).execute s FileTree.disk true t).1.ending.stdout ∧
        r.success = true ∧ r.stage = .ready := by
  by_cases hready : s.Readies t manifest
  · refine ⟨fun _ => ?_, fun _ => hready⟩
    obtain ⟨source, m, r, verdict, holds, parsed, accepts⟩ := hready
    have hopen := Session.openManifest_of_accepts holds parsed accepts
    rw [execute_check hopen]
    exact ⟨_, Host.shownBy_report (s.readyHost manifest source m r verdict),
      rfl, rfl⟩
  · refine ⟨fun h => absurd h hready, fun hshown => ?_⟩
    obtain ⟨r, shown, -, hstage⟩ := hshown
    obtain ⟨opened, hopen, unready⟩ := Session.openManifest_of_not_readies hready
    rw [execute_check hopen] at shown
    cases opened with
    | error failure => exact absurd shown (Report.not_shownBy_empty r)
    | ok h =>
      rw [stdout_ofPass] at shown
      have heq := shown.unique h.shownBy_report
      rw [heq] at hstage
      exact absurd hstage (unready h rfl).1

/-- A manifest with a ready host is invoked, unless its routine fails. -/
theorem run_of_accepts {s : Session} {t : FileTree} {manifest source : String}
    {m : Manifest} {r : Routine} {verdict : Verdict}
    (holds : t.Holds manifest source) (parsed : Manifest.parse source = .ok m)
    (accepts : s.Accepts m r verdict) (arguments : List String) (json : Bool) :
    ((run manifest arguments).execute s FileTree.disk json t).1.ending.code = 0 ∨
      ∃ failure, r.Fails m.entry.name (arguments.map readArgument) failure ∧
        (run manifest arguments).execute s FileTree.disk json t =
        (.failure failure json, t) := by
  have hopen := Session.openManifest_of_accepts holds parsed accepts
  have hinvoke : (s.readyHost manifest source m r verdict).invoke
      (arguments.map readArgument) =
      (m.entryPoint r).invoke (arguments.map readArgument) := rfl
  rw [execute_run hopen, hinvoke]
  cases hcall : (m.entryPoint r).invoke (arguments.map readArgument) with
  | ok output =>
    left
    rw [Transcript.code_eq_zero_iff]
    rfl
  | error error => exact Or.inr ⟨error.failure, Manifest.entryPoint_fails hcall, rfl⟩

/-- **The commands agree on a manifest.** In every environment, with all lists
of what may be used, and whatever is in the files: a check ends well exactly if
the export as text does, and exactly if the JSON report of the check is that of
a ready host. If it ends well, the file holds a manifest and invoking it fails
only where its routine does, by the number of the arguments or in its own
computation. If not, to run or to export the manifest fails too, shows nothing,
and leaves every file and directory as it was. -/
theorem commands_agree (env : Environment) (references imports : List String)
    (t : FileTree) (manifest : String) :
    let ends (command : Command) (json : Bool) :=
      CommandLine.Request.endOn ⟨command, json, references, imports⟩ env t
    (∀ json json', (ends (.check manifest) json).1.code = 0 ↔
      (ends (.exportText manifest) json').1.code = 0) ∧
    (∀ json, (ends (.check manifest) json).1.code = 0 ↔
      ∃ r : Report, r.ShownBy (ends (.check manifest) true).1.stdout ∧
        r.success = true ∧ r.stage = .ready) ∧
    (∀ json, (ends (.check manifest) json).1.code = 0 →
      ∃ source m r, t.Holds manifest source ∧ Manifest.parse source = .ok m ∧
        Routine.builtin.get? m.entry.routine = some r ∧
        ∀ arguments json', (ends (.run manifest arguments) json').1.code = 0 ∨
          ∃ failure, r.Fails m.entry.name (arguments.map readArgument) failure ∧
            ends (.run manifest arguments) json' =
              ((Transcript.failure failure json').ending, t)) ∧
    (∀ json, (ends (.check manifest) json).1.code ≠ 0 →
      ∀ command : Command, command.Uses manifest → ∀ json',
        (ends command json').1.code ≠ 0 ∧ (ends command json').1.stdout = "" ∧
          (ends command json').2 = t) := by
  intro ends
  let s := Session.ofEnvironment env references imports
  have hchecks : ∀ json, (ends (.check manifest) json).1.code = 0 ↔
      s.Readies t manifest :=
    check_code_iff s t manifest
  refine ⟨?_, ?_, ?_, ?_⟩
  · intro json json'
    exact (hchecks json).trans (exportText_code_iff s t manifest json').symm
  · intro json
    exact (hchecks json).trans (readies_iff_shown s t manifest)
  · intro json hcode
    obtain ⟨source, m, r, verdict, holds, parsed, accepts⟩ := (hchecks json).mp hcode
    refine ⟨source, m, r, holds, parsed, accepts.routine, ?_⟩
    intro arguments json'
    refine (run_of_accepts holds parsed accepts arguments json').imp_right
      fun hrefused => ?_
    obtain ⟨failure, hfails, hrun⟩ := hrefused
    refine ⟨failure, hfails, ?_⟩
    show
      ((Command.execute s FileTree.disk json' (.run manifest arguments) t).1.ending,
        (Command.execute s FileTree.disk json' (.run manifest arguments) t).2) = _
    rw [hrun]
  · intro json hcode command u json'
    obtain ⟨failure, hrefused⟩ := u.turned_down (mt (hchecks json).mpr hcode) json'
    have hends :
        ends command json' = ((Transcript.failure failure json').ending, t) := by
      show ((command.execute s FileTree.disk json' t).1.ending,
        (command.execute s FileTree.disk json' t).2) = _
      rw [hrefused]
    rw [hends]
    exact ⟨Transcript.code_failure failure json', rfl, rfl⟩

/-- There are manifests of both kinds: one that is exported, and one that leaves
no trace. -/
theorem commands_agree_echo :
    let t : FileTree :=
      ⟨[(["m"], .file "\x7b\"entry\":\x7b\"routine\":\"echo\"\x7d\x7d".toUTF8),
        (["b"], .file "\x7b".toUTF8)]⟩
    let ends (words : List String) := Program.run .empty FileTree.disk words t
    (ends ["check", "m"]).1.code = 0 ∧ (ends ["export", "m", "--bytes"]).1.code = 0 ∧
      (ends ["check", "b"]).1.code ≠ 0 ∧
      (ends ["export", "b", "--out", "out/a"]).1.stdout = "" ∧
      (ends ["export", "b", "--out", "out/a"]).2 = t := by
  intro t ends
  have hends :
      ∀ words command, CommandLine.parse words = .ok ⟨command, false, [], []⟩ →
      ends words = CommandLine.Request.endOn ⟨command, false, [], []⟩ .empty t :=
    fun words command h => Program.run_of_parse h .empty t
  rw [hends ["check", "m"] (.check "m") rfl, hends ["check", "b"] (.check "b") rfl,
    hends ["export", "m", "--bytes"] (.exportText "m") rfl,
    hends ["export", "b", "--out", "out/a"] (.exportFile "b" "out/a") rfl]
  have hgood :
      (CommandLine.Request.endOn ⟨.check "m", false, [], []⟩ .empty t).1.code =
        0 := by
    decide +kernel
  have hbad :
      (CommandLine.Request.endOn ⟨.check "b", false, [], []⟩ .empty t).1.code ≠
        0 := by
    decide +kernel
  obtain ⟨hexports, -⟩ := commands_agree .empty [] [] t "m"
  obtain ⟨-, -, -, hturns⟩ := commands_agree .empty [] [] t "b"
  obtain ⟨-, hstdout, htree⟩ := hturns false hbad _ (.exportFile "out/a") false
  exact ⟨hgood, (hexports false false).mp hgood, hbad, hstdout, htree⟩

end Command

end DetectorBench
