import DetectorBench.Proofs.Manifest.Outcome
import DetectorBench.Proofs.Manifest.Reload
import DetectorBench.Session

/-!
# What opening a file comes to

Every command that works with a manifest opens it first: the file is read, and a
host goes through a pass over the text in it. Whether that host becomes ready
depends on the manifest alone and not on the text that it was read from
(`Accepts`), and then everything about the host is known (`readyHost`). So
either the file holds a manifest that is accepted (`Readies`,
`openManifest_of_accepts`), or opening comes to a failure or a host that is not
ready (`openManifest_of_not_readies`). The files are as before in any case.

An artifact is opened in the same way, with an image in place of the source; the
bytes of a manifest whose routine is known are always taken for an image
(`openArtifact_of_bytes`).
-/

namespace DetectorBench

/-- A file of a tree holds a text. -/
def FileTree.Holds (t : FileTree) (path text : String) : Prop :=
  ∃ bytes, t.read path = .ok bytes ∧ String.fromUTF8? bytes = some text

namespace Session

open Manifest (Compilation compilationOf)

variable {s : Session} {t : FileTree} {path source : String} {m : Manifest}
  {r : Routine}
  {verdict : Verdict}

/-! ## Manifests that are accepted -/

/-- A manifest is one that a host becomes ready with: nothing it declares is an
error, it is bound to `r` under the canonical name, and its metadata obey the
rules. -/
structure Accepts (s : Session) (m : Manifest) (r : Routine)
    (verdict : Verdict) : Prop where
  clean : Diagnostic.anyError (m.check s.registry s.references s.imports) = false
  routine : s.registry.get? m.entry.routine = some r
  entry : m.entry.name = "run"
  validate : m.metadata.validate s.settings.rules = .ok verdict

/-- The host of a manifest file before its pass. -/
def fileHost (s : Session) (path source : String) : Host :=
  s.host ⟨source, some path, .detector⟩

/-- The host of a manifest that is accepted. -/
def readyHost (s : Session) (path source : String) (m : Manifest) (r : Routine)
    (verdict : Verdict) : Host :=
  let c := compilationOf s.registry s.extension (s.fileHost path source)
  (s.fileHost path source).readyWith (m.image c.name r) (m.entryPoint r) m.metadata
    (Host.linesOf (m.check s.registry s.references s.imports) ++ verdict.warnings)

/-- The compilation of a source that is accepted gives away the manifest. -/
theorem Accepts.unit (a : s.Accepts m r verdict)
    (parsed : Manifest.parse source = .ok m) :
    (Compilation.ofSource s.registry s.extension source s.references
      s.imports).unit = .ok (m, r) :=
  Compilation.unit_of_parse parsed a.clean a.routine s.extension

theorem Accepts.prepare_eq (a : s.Accepts m r verdict)
    (parsed : Manifest.parse source = .ok m) {f : Type → Type} [Monad f]
    (disk : Disk f) (path : String) :
    (s.fileHost path source).prepare (s.compiler disk) =
      (.ok (), s.readyHost path source m r verdict) := by
  let c := Compilation.ofSource s.registry s.extension source s.references s.imports
  have hdiagnostics : c.diagnostics = m.check s.registry s.references s.imports :=
    congrArg Compilation.diagnostics (Compilation.ofSource_of_parse parsed ..)
  obtain ⟨checked, hemit⟩ :=
    Manifest.checked_of_unit disk (h := s.fileHost path source) (a.unit parsed)
  have hresolve : (m.image c.name r).resolve (c.handle disk).signature =
      .ok (m.entryPoint r) :=
    if_pos a.entry
  have pass :=
    Host.Pass.ready checked hemit hresolve (Manifest.metadata_entryPoint m r)
      a.validate
  have hlines : Host.linesOf c.diagnostics =
      Host.linesOf (m.check s.registry s.references s.imports) :=
        congrArg Host.linesOf hdiagnostics
  unfold readyHost
  rw [← hlines]
  exact pass.prepare_eq

/-- Conversely a pass over any other source does not make the host ready. -/
theorem prepare_of_not_accepts
    (unaccepted : ¬∃ m r verdict, Manifest.parse source = .ok m ∧
      s.Accepts m r verdict)
    {f : Type → Type} [Monad f] (disk : Disk f) (path : String) :
    ∃ h, (s.fileHost path source).prepare (s.compiler disk) = (.ok (), h) ∧
      h.stage ≠ .ready ∧ h.successful = false := by
  obtain ⟨h, hprepare, ending⟩ :=
    Manifest.prepare_ending disk s.registry s.extension (s.fileHost path source)
  have hstage : h.stage ≠ .ready := by
    intro hready
    obtain ⟨m, accepted, verdict, validate⟩ := ending.ready_iff.mp hready
    have hclean := Manifest.check_clean_iff.mpr
      ⟨accepted.references, accepted.imports, accepted.routine⟩
    obtain ⟨r, hr⟩ := Manifest.routine_of_clean hclean
    exact unaccepted ⟨m, r, verdict, accepted.parsed, hclean, hr,
      accepted.entry, validate⟩
  have hcoherent := ((Host.prepare_eq_iff_pass _ _ _ _).mp hprepare).coherent
  exact ⟨h, hprepare, hstage, Bool.eq_false_iff.mpr
    (mt hcoherent.successful_iff.mp hstage)⟩

/-! ## Opening a manifest -/

/-- The file of a manifest holds one that a host becomes ready with. -/
def Readies (s : Session) (t : FileTree) (path : String) : Prop :=
  ∃ source m r verdict, t.Holds path source ∧ Manifest.parse source = .ok m ∧
    s.Accepts m r verdict

/-- Opening a file that holds a text is a pass over the text. -/
theorem openManifest_of_holds {h : Host} (holds : t.Holds path source)
    (hprepare : (s.fileHost path source).prepare (s.compiler FileTree.disk) =
      (.ok (), h)) :
    s.openManifest FileTree.disk path t = (.ok h, t) := by
  obtain ⟨bytes, hread, htext⟩ := holds
  have hdisk : FileTree.disk.read path t = (.ok bytes, t) := congrArg (·, t) hread
  have hhost : (s.host ⟨source, some path, .detector⟩).prepare
      (s.compiler FileTree.disk) = (.ok (), h) := hprepare
  unfold openManifest
  simp only [bind, StateT.bind, hdisk, htext, hhost]
  rfl

/-- A file that holds no text is not opened. -/
theorem openManifest_of_absent (absent : ¬∃ source, t.Holds path source) :
    ∃ failure, s.openManifest FileTree.disk path t = (.error failure, t) := by
  cases hread : t.read path with
  | error e =>
    have hdisk : FileTree.disk.read path t = (.error e, t) := congrArg (·, t) hread
    unfold openManifest
    simp only [bind, StateT.bind, hdisk]
    exact ⟨_, rfl⟩
  | ok bytes =>
    have hdisk : FileTree.disk.read path t = (.ok bytes, t) := congrArg (·, t) hread
    cases htext : String.fromUTF8? bytes with
    | some source => exact absurd ⟨source, bytes, hread, htext⟩ absent
    | none =>
      unfold openManifest
      simp only [bind, StateT.bind, hdisk, htext]
      exact ⟨_, rfl⟩

theorem openManifest_of_accepts (holds : t.Holds path source)
    (parsed : Manifest.parse source = .ok m) (a : s.Accepts m r verdict) :
    s.openManifest FileTree.disk path t =
      (.ok (s.readyHost path source m r verdict), t) :=
  openManifest_of_holds holds (a.prepare_eq parsed FileTree.disk path)

/-- Opening any other file comes to a failure or to a host that is not ready. -/
theorem openManifest_of_not_readies (hnot : ¬s.Readies t path) :
    ∃ opened, s.openManifest FileTree.disk path t = (opened, t) ∧
      ∀ h, opened = .ok h → h.stage ≠ .ready ∧ h.successful = false := by
  by_cases htext : ∃ source, t.Holds path source
  · obtain ⟨source, holds⟩ := htext
    have unaccepted : ¬∃ m r verdict, Manifest.parse source = .ok m ∧
        s.Accepts m r verdict := by
      intro haccepted
      obtain ⟨m, r, verdict, parsed, a⟩ := haccepted
      exact hnot ⟨source, m, r, verdict, holds, parsed, a⟩
    obtain ⟨h, hprepare, hstage, hsuccessful⟩ :=
      prepare_of_not_accepts unaccepted FileTree.disk path
    refine ⟨.ok h, openManifest_of_holds holds hprepare, ?_⟩
    intro h' heq
    cases heq
    exact ⟨hstage, hsuccessful⟩
  · obtain ⟨failure, hopen⟩ := openManifest_of_absent (s := s) htext
    refine ⟨.error failure, hopen, ?_⟩
    intro h heq
    cases heq

/-! ## Opening an artifact -/

/-- The host of an artifact file before its pass. -/
def artifactHost (s : Session) (path : String) : Host :=
  s.host ⟨"", some path, .detector⟩

/-- Opening the file of a manifest's bytes is a pass over the image of the
manifest. -/
theorem openArtifact_of_bytes (hread : t.read path = .ok m.bytes)
    (hr : s.registry.get? m.entry.routine = some r) {h : Host}
    (hintake : (s.artifactHost path).Intake
      (m.image ((Path.fileName? path).getD "") r) (.ok ()) h) :
    s.openArtifact FileTree.disk path t = (.ok h, t) := by
  have hdisk : FileTree.disk.read path t = (.ok m.bytes, t) := congrArg (·, t) hread
  have himage := Manifest.loadImage_bytes hr ((Path.fileName? path).getD "")
  have hpreload : (s.host ⟨"", some path, .detector⟩).preload
      (m.image ((Path.fileName? path).getD "") r) = (.ok (), h) := hintake.preload_eq
  unfold openArtifact
  simp only [bind, StateT.bind, hdisk, himage, hpreload]
  rfl

end Session

end DetectorBench
