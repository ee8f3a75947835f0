import DetectorBench.Proofs.Command.Agreement
import DetectorBench.Proofs.Manifest.Saving
import DetectorBench.Proofs.Metadata.Validation

/-!
# What was exported is inspected

One run exports a manifest to a file, and a later run, perhaps in another
environment, inspects the file. Whoever exports has put the bytes of the
manifest where the later run reads them (`exportFile_writes`), and whoever
inspects takes these bytes for an image of the very manifest (`inspects`).
Nothing is compiled or validated then, so of all settings of the later run only
one matters: the name of the entry point that it asks for
(`Environment.NamesEntry`).
-/

namespace DetectorBench

/-! ## The name that is asked for -/

/-- The entry point that an environment asks for: the name in the variable
without the blanks around it, or the canonical one where the variable is not
set, is no text, or is blank. -/
inductive Environment.NamesEntry (env : Environment) : String → Prop where
  | unset (raw : env.raw "DETECTOR_ENTRY_POINT" = none) : NamesEntry env "run"
  | undecodable {bytes : ByteArray}
    (raw : env.raw "DETECTOR_ENTRY_POINT" = some bytes)
    (text : String.fromUTF8? bytes = none) : NamesEntry env "run"
  | blank {bytes : ByteArray} {value : String}
    (raw : env.raw "DETECTOR_ENTRY_POINT" = some bytes)
    (text : String.fromUTF8? bytes = some value)
    (blank : ¬Text.HasContent value) :
    NamesEntry env "run"
  | named {bytes : ByteArray} {value : String}
    (raw : env.raw "DETECTOR_ENTRY_POINT" = some bytes)
    (text : String.fromUTF8? bytes = some value)
    (content : Text.HasContent value) :
    NamesEntry env (Text.trim value)

/-- The settings of an environment have that name. -/
theorem Settings.entryPoint_of_namesEntry {env : Environment} {name : String}
    (h : env.NamesEntry name) :
    (Settings.ofEnvironment env).entryPoint = name := by
  show ((((env.raw "DETECTOR_ENTRY_POINT").bind String.fromUTF8?).filter
    fun v => !Text.isBlank v).map Text.trim).getD "run" = name
  cases h with
  | unset raw =>
    rw [raw]
    rfl
  | undecodable raw text =>
    rw [raw, Option.bind_some, text]
    rfl
  | @blank bytes value raw text blank =>
    have hblank : Text.isBlank value = true := by
      refine (Bool.not_eq_false _).mp ?_
      rw [Text.isBlank_eq_false_iff]
      exact blank
    rw [raw, Option.bind_some, text, Option.filter_some, hblank]
    rfl
  | named raw text content =>
    rw [raw, Option.bind_some, text, Option.filter_some,
      Text.isBlank_eq_false_iff.mpr content]
    rfl

/-- There always is such a name. -/
theorem Environment.exists_namesEntry (env : Environment) :
    ∃ name, env.NamesEntry name := by
  cases hraw : env.raw "DETECTOR_ENTRY_POINT" with
  | none => exact ⟨_, .unset hraw⟩
  | some bytes =>
    cases htext : String.fromUTF8? bytes with
    | none => exact ⟨_, .undecodable hraw htext⟩
    | some value =>
      by_cases hcontent : Text.HasContent value
      · exact ⟨_, .named hraw htext hcontent⟩
      · exact ⟨_, .blank hraw htext hcontent⟩

theorem Settings.entryPoint_eq_iff {env : Environment} {name : String} :
    (Settings.ofEnvironment env).entryPoint = name ↔ env.NamesEntry name := by
  constructor
  · intro h
    obtain ⟨name', hname⟩ := env.exists_namesEntry
    rw [Settings.entryPoint_of_namesEntry hname] at h
    exact h ▸ hname
  · exact Settings.entryPoint_of_namesEntry

/-! ## Exporting to a file -/

open FileTree (Extends)

namespace Command

variable {s : Session} {t t' : FileTree} {manifest path : String} {m : Manifest}
  {r : Routine}

/-- An export to a file that ends well has had a ready host, and has written its
manifest. -/
theorem exportFile_writes {json : Bool}
    (hcode : ((exportFile manifest path).execute s FileTree.disk json
      t).1.ending.code = 0) :
    ∃ source m r verdict between, t.Holds manifest source ∧
      Manifest.parse source = .ok m ∧
      s.Accepts m r verdict ∧ Extends t between ∧
      between.write path m.bytes =
        .ok ((exportFile manifest path).execute s FileTree.disk json t).2 := by
  by_cases hready : s.Readies t manifest
  · obtain ⟨source, m, r, verdict, holds, parsed, accepts⟩ := hready
    have hopen := Session.openManifest_of_accepts holds parsed accepts
    let h := s.readyHost manifest source m r verdict
    let c :=
      Manifest.compilationOf s.registry s.extension (s.fileHost manifest source)
    have hunit : c.unit = .ok (m, r) := accepts.unit parsed
    have hrecompile :
        h.recompile (s.compiler FileTree.disk) = .ok (c.handle FileTree.disk) :=
      Manifest.recompile_of_ready rfl (accepts.unit parsed)
    cases hsaved : c.save FileTree.disk path t with
    | mk saved after =>
      have hsave : h.save (s.compiler FileTree.disk) path t =
          (saved.mapError HostError.pipeline, after) := by
        rw [Host.save_eq, hrecompile]
        show ((c.save FileTree.disk path t).1.mapError HostError.pipeline,
          (c.save FileTree.disk path t).2) = _
        rw [hsaved]
      rw [execute_exportFile hopen hsave] at hcode ⊢
      cases saved with
      | error failure =>
        rw [Transcript.code_eq_zero_iff] at hcode
        cases hcode
      | ok place =>
        obtain ⟨-, between, hgrows, hwrite⟩ :=
          Manifest.Compilation.save_eq_ok hunit hsaved
        exact ⟨source, m, r, verdict, between, holds, parsed, accepts,
          hgrows.extends, hwrite⟩
  · obtain ⟨failure, hrefused⟩ := Uses.turned_down (.exportFile path) hready json
    rw [hrefused] at hcode
    exact absurd hcode (Transcript.code_failure failure json)

/-! ## Checking again -/

/-- The report on a manifest that is accepted, whatever text it was read
from. -/
theorem check_shows {source : String} {verdict : Verdict}
    (holds : t.Holds manifest source) (parsed : Manifest.parse source = .ok m)
    (accepts : s.Accepts m r verdict) :
    Report.ShownBy
      ⟨true, .ready, Host.linesOf (m.check s.registry s.references s.imports) ++
        verdict.warnings, none, m.metadata⟩
      ((check manifest).execute s FileTree.disk true t).1.ending.stdout := by
  rw [execute_check (Session.openManifest_of_accepts holds parsed accepts)]
  exact Host.shownBy_report (s.readyHost manifest source m r verdict)

/-- After an export the file of the manifest still holds it, even if the export
went there. -/
theorem holds_of_write {source : String} (holds : t.Holds manifest source)
    (parsed : Manifest.parse source = .ok m) (hextends : Extends t t')
    {after : FileTree} (hwrite : t'.write path m.bytes = .ok after) :
    ∃ source', after.Holds manifest source' ∧ Manifest.parse source' = .ok m := by
  obtain ⟨bytes, hread, htext⟩ := holds
  rcases FileTree.read_of_write hwrite (FileTree.read_of_extends hextends hread) with
    hkept | hreplaced
  · exact ⟨source, ⟨bytes, hkept, htext⟩, parsed⟩
  · exact ⟨m.text, ⟨m.bytes, hreplaced, Manifest.fromUTF8?_toUTF8 m.text⟩,
      Manifest.parse_text m⟩

/-! ## Inspecting -/

/-- What is shown of an artifact is the report on its host. -/
theorem inspect_of_openArtifact {h : Host}
    (hopen : s.openArtifact FileTree.disk path t = (.ok h, t)) :
    (Report.ofHost h).ShownBy
        ((inspect path).execute s FileTree.disk true t).1.ending.stdout ∧
      ∀ json, ((inspect path).execute s FileTree.disk json t).1.ending.code = 0 ↔
        h.successful = true := by
  have hexecute : ∀ json, (inspect path).execute s FileTree.disk json t =
      (ofPass (.ok h) (fun h => path ++ " could not be loaded" ++ stageSuffix h)
        json, t) := by
    intro json
    show (ofPass (s.openArtifact FileTree.disk path t).1 _ json,
      (s.openArtifact FileTree.disk path t).2) = _
    rw [hopen]
  refine ⟨?_, ?_⟩
  · rw [hexecute, stdout_ofPass]
    exact h.shownBy_report
  · intro json
    rw [hexecute, code_ofPass]
    constructor
    · intro hsuccessful
      obtain ⟨h', heq, hsuccessful⟩ := hsuccessful
      cases heq
      exact hsuccessful
    · exact fun hsuccessful => ⟨h, rfl, hsuccessful⟩

/-- A manifest with the entry point that is asked for is inspected without a
word. -/
theorem inspect_of_named (hread : t.read path = .ok m.bytes)
    (hr : s.registry.get? m.entry.routine = some r)
    (hname : m.entry.name = s.settings.entryPoint) :
    Report.ShownBy ⟨true, .ready, [], none, m.metadata⟩
        ((inspect path).execute s FileTree.disk true t).1.ending.stdout ∧
      ∀ json, ((inspect path).execute s FileTree.disk json t).1.ending.code = 0 := by
  let image := m.image ((Path.fileName? path).getD "") r
  have hresolve : image.resolve (s.artifactHost path).settings.signature =
      .ok (m.entryPoint r) :=
    if_pos hname
  have hintake := Host.Intake.ready hresolve (Manifest.metadata_entryPoint m r)
  obtain ⟨shown, hcode⟩ :=
    inspect_of_openArtifact (Session.openArtifact_of_bytes hread hr hintake)
  exact ⟨shown, fun json => (hcode json).mpr rfl⟩

/-- Any other manifest does not compile, as far as the report tells. -/
theorem inspect_of_not_named (hread : t.read path = .ok m.bytes)
    (hr : s.registry.get? m.entry.routine = some r)
    (hname : m.entry.name ≠ s.settings.entryPoint) :
    (∃ message, Report.ShownBy ⟨false, .compiledFailed, [message], none, .empty⟩
        ((inspect path).execute s FileTree.disk true t).1.ending.stdout) ∧
      ∀ json, ((inspect path).execute s FileTree.disk json t).1.ending.code ≠ 0 := by
  let image := m.image ((Path.fileName? path).getD "") r
  have hresolve : image.resolve (s.artifactHost path).settings.signature =
      .error (m.noEntryPoint s.settings.signature) := if_neg hname
  have hintake := Host.Intake.absent hresolve
  obtain ⟨shown, hcode⟩ :=
    inspect_of_openArtifact (Session.openArtifact_of_bytes hread hr hintake)
  refine ⟨⟨_, shown⟩, fun json hzero => ?_⟩
  exact Bool.false_ne_true ((hcode json).mp hzero)

/-- **What was exported is inspected.** After an export to a file that ended
well, inspecting the file in any environment, with any lists of what may be
used, ends well exactly if the entry point that is asked for there is the
canonical one. Then the report is on a ready host that has nothing to say, with
the metadata that a check of the manifest reports, before the export as well as
after it; otherwise it is on a failed compilation, with one complaint and no
metadata. -/
theorem export_then_inspect (env : Environment)
    (references imports : List String) (json : Bool) (t : FileTree)
    (manifest path : String)
    (hexport : (CommandLine.Request.endOn ⟨.exportFile manifest path, json,
      references, imports⟩ env t).1.code = 0)
    (env' : Environment) (references' imports' : List String) :
    let after := (CommandLine.Request.endOn
      ⟨.exportFile manifest path, json, references, imports⟩ env t).2
    let checked (t : FileTree) :=
      (CommandLine.Request.endOn ⟨.check manifest, true, references, imports⟩
        env t).1
    let inspected (json : Bool) :=
      (CommandLine.Request.endOn ⟨.inspect path, json, references', imports'⟩
        env' after).1
    (∀ json', (inspected json').code = 0 ↔ env'.NamesEntry "run") ∧
    ∃ r r' : Report, r.ShownBy (checked t).stdout ∧
      r.ShownBy (checked after).stdout ∧
      r'.ShownBy (inspected true).stdout ∧
      ((inspected true).code = 0 →
        r'.stage = .ready ∧ r'.output = [] ∧ r'.metadata = r.metadata) ∧
      ((inspected true).code ≠ 0 →
        r'.stage = .compiledFailed ∧ r'.output.length = 1 ∧
        r'.metadata = .empty) := by
  intro after checked inspected
  let s := Session.ofEnvironment env references imports
  let s' := Session.ofEnvironment env' references' imports'
  obtain ⟨source, m, r, verdict, between, holds, parsed, accepts, hextends,
    hwrite⟩ :=
    exportFile_writes (s := s) hexport
  have hread : after.read path = .ok m.bytes := FileTree.read_write hwrite
  have hr : s'.registry.get? m.entry.routine = some r := accepts.routine
  obtain ⟨source', holds', parsed'⟩ := holds_of_write holds parsed hextends hwrite
  have hchecked := check_shows holds parsed accepts
  have hchecked' := check_shows holds' parsed' accepts
  have hname : m.entry.name = s'.settings.entryPoint ↔ env'.NamesEntry "run" := by
    rw [accepts.entry, ← Settings.entryPoint_eq_iff]
    exact eq_comm
  by_cases hasked : m.entry.name = s'.settings.entryPoint
  · obtain ⟨shown, hcode⟩ := inspect_of_named hread hr hasked
    have hzero : (inspected true).code = 0 := hcode true
    refine ⟨fun json' => ⟨fun _ => hname.mp hasked, fun _ => hcode json'⟩, ?_⟩
    exact ⟨_, _, hchecked, hchecked', shown, fun _ => ⟨rfl, rfl, rfl⟩, absurd hzero⟩
  · obtain ⟨⟨message, shown⟩, hcode⟩ := inspect_of_not_named hread hr hasked
    have hnonzero : (inspected true).code ≠ 0 := hcode true
    refine ⟨fun json' => ⟨fun hzero => absurd hzero (hcode json'),
      fun hrun => ?_⟩, ?_⟩
    · exact absurd (hname.mpr hrun) hasked
    · exact ⟨_, _, hchecked, hchecked', shown, fun hzero => absurd hzero hnonzero,
        fun _ => ⟨rfl, rfl, rfl⟩⟩

/-- A manifest is exported, and then inspected without variables and where
another entry point is asked for. -/
theorem export_then_inspect_echo :
    let t : FileTree :=
      ⟨[(["m"], .file "\x7b\"entry\":\x7b\"routine\":\"echo\"\x7d\x7d".toUTF8)]⟩
    let exported :=
      Program.run .empty FileTree.disk ["export", "m", "--out", "out/a"] t
    let inspected (env : Environment) :=
      (Program.run env FileTree.disk ["inspect", "out/a", "--reference", "a"]
        exported.2).1
    exported.1.code = 0 ∧ (inspected .empty).code = 0 ∧
      (inspected ⟨fun _ => some " main ".toUTF8⟩).code ≠ 0 := by
  intro t exported inspected
  have hends : exported =
      CommandLine.Request.endOn ⟨.exportFile "m" "out/a", false, [], []⟩ .empty t :=
    Program.run_of_parse rfl .empty t
  have hcode : (CommandLine.Request.endOn ⟨.exportFile "m" "out/a", false, [], []⟩
      .empty t).1.code = 0 := by decide +kernel
  have hinspect : ∀ env, (inspected env).code = 0 ↔ env.NamesEntry "run" := by
    intro env
    have hinspected : inspected env =
        (CommandLine.Request.endOn ⟨.inspect "out/a", false, ["a"], []⟩ env
          exported.2).1 :=
      congrArg Prod.fst (Program.run_of_parse rfl env exported.2)
    rw [hinspected, hends]
    exact (export_then_inspect .empty [] [] false t "m" "out/a" hcode env ["a"]
      []).1 false
  refine ⟨hends ▸ hcode, (hinspect .empty).mpr (.unset rfl), ?_⟩
  intro hzero
  have hname := Settings.entryPoint_of_namesEntry ((hinspect _).mp hzero)
  have hother :
      (Settings.ofEnvironment ⟨fun _ => some " main ".toUTF8⟩).entryPoint ≠
        "run" := by
    decide +kernel
  exact hother hname

end Command

end DetectorBench
