import DetectorBench.Proofs.Disk.Directories
import DetectorBench.Proofs.Manifest.Outcome
import DetectorBench.Proofs.Manifest.Reload

/-!
# Saving units

A unit is exported in two forms, packed and saved, and neither is made from the
other. What is saved are the bytes that unpacking gives (`save_stores`): a host
that saves has compiled its source anew, and whatever a compilation gives away
is made of its one unit. Whoever turns an export down does so before any disk is
asked (`save_of_unexportable`), so the tree is then as it was.
-/

namespace DetectorBench

open FileTree (GrowsAlong Stores)

namespace Manifest.Compilation

theorem makeDirectoryOf_grows {t t' : FileTree} {path : String}
    {made : Except Failure Unit}
    (h : makeDirectoryOf FileTree.disk path t = (made, t')) :
    GrowsAlong (Path.pieces path) t t' := by
  unfold makeDirectoryOf at h
  cases hdirectory : directoryOf? path with
  | none =>
    rw [hdirectory] at h
    cases h
    exact FileTree.growsAlong_refl _ t
  | some directory =>
    rw [hdirectory] at h
    have htree : (t.makeDirectories directory).2 = t' := congrArg Prod.snd h
    have hparent : Path.parent? path = some directory :=
      (Option.filter_eq_some_iff.mp hdirectory).1
    rw [← htree]
    exact ((FileTree.makeDirectories_grows t directory).mono
      (Path.leading_parent hparent)).of_leading

/-- A unit that was saved is in its file, written after the directories above it
were made. -/
theorem save_eq_ok {c : Compilation} {m : Manifest} {r : Routine}
    (hunit : c.unit = .ok (m, r)) {path saved : String} {t t' : FileTree}
    (h : c.save FileTree.disk path t = (.ok saved, t')) :
    saved = path ∧ ∃ between, GrowsAlong (Path.pieces path) t between ∧
      between.write path m.bytes = .ok t' := by
  unfold save at h
  simp only [hunit, bind, StateT.bind] at h
  cases hmade : makeDirectoryOf FileTree.disk path t with
  | mk made between =>
    rw [hmade] at h
    cases made with
    | error failure => cases h
    | ok done =>
      simp only [StateT.bind, bind, FileTree.disk, modifyGet, MonadStateOf.modifyGet,
        StateT.modifyGet] at h
      cases hafter : between.write path m.bytes with
      | error e =>
        rw [hafter] at h
        cases h
      | ok after =>
        rw [hafter] at h
        cases h
        exact ⟨rfl, between, makeDirectoryOf_grows hmade, hafter⟩

end Manifest.Compilation

namespace Host

/-! ## Exports that are turned down -/

/-- Why a host that is asked for an export has nothing to give. -/
inductive Unexportable {m : Type → Type} (h : Host) (compiler : Compiler m) :
    Prop where
  | unready (stage : h.stage ≠ .ready)
  | uncompiled {failure : Failure}
    (compile : compiler.compile h.unit.script h.references h.imports =
      .error failure)
  | unreported {handle : Handle m} {failure : Failure}
    (compile : compiler.compile h.unit.script h.references h.imports = .ok handle)
    (report : handle.diagnostics = .error failure)
  | erroneous {handle : Handle m} {ds : List Diagnostic}
    (compile : compiler.compile h.unit.script h.references h.imports = .ok handle)
    (report : handle.diagnostics = .ok ds) (error : ∃ d ∈ ds, d.severity = .error)

theorem recompile_of_unexportable {m : Type → Type} {h : Host}
    {compiler : Compiler m} (hwhy : h.Unexportable compiler) :
    ∃ e, h.recompile compiler = .error e := by
  by_cases hready : h.stage = .ready
  · cases hwhy with
    | unready stage => exact absurd hready stage
    | uncompiled compile => exact ⟨_, recompile_of_uncompiled hready compile⟩
    | unreported compile report =>
      exact ⟨_, recompile_of_unreported hready compile report⟩
    | erroneous compile report error =>
      exact ⟨_, recompile_of_erroneous hready compile report error⟩
  · exact ⟨_, recompile_of_not_ready hready compiler⟩

theorem save_of_unexportable {m : Type → Type} [Monad m] [LawfulMonad m]
    {h : Host} {compiler : Compiler m} (hwhy : h.Unexportable compiler)
    (path : String) :
    ∃ e, h.save compiler path = pure (.error e) := by
  obtain ⟨e, he⟩ := recompile_of_unexportable hwhy
  rw [save_eq, he]
  exact ⟨e, rfl⟩

/-! ## Exports that are given -/

variable {registry : Registry} {extension : String}

/-- A host saves what it packs: the manifest that its source is. -/
theorem save_eq_ok {h : Host} {path saved : String} {t t' : FileTree}
    (hsave : h.save (Manifest.compiler FileTree.disk registry extension) path
      t = (.ok saved, t')) :
    ∃ m artifact, Manifest.parse h.unit.script = .ok m ∧ saved = path ∧
      Stores t path m.bytes t' ∧ h.artifact
        (Manifest.compiler FileTree.disk registry extension) = .ok artifact ∧
      artifact.unpack = .ok m.bytes.data.toList := by
  let c := Manifest.compilationOf registry extension h
  have hexportable :
      ¬h.Unexportable (Manifest.compiler FileTree.disk registry extension) := by
    intro hwhy
    obtain ⟨e, he⟩ := save_of_unexportable hwhy path
    rw [he] at hsave
    cases hsave
  have hready : h.stage = .ready := by
    by_cases hready : h.stage = .ready
    · exact hready
    · exact absurd (.unready hready) hexportable
  obtain ⟨m, r, hparse, hunit, -⟩ :=
    (Manifest.Compilation.ofSource_error_or_unit registry extension
      h.unit.script h.references h.imports).resolve_left fun herror =>
        hexportable (.erroneous rfl rfl herror)
  cases hsaved : c.save FileTree.disk path t with
  | mk answer after =>
    have heq : h.save (Manifest.compiler FileTree.disk registry extension) path t =
        (answer.mapError HostError.pipeline, after) := by
      rw [Host.save_eq, Manifest.recompile_of_ready hready hunit]
      show ((c.save FileTree.disk path t).1.mapError HostError.pipeline,
        (c.save FileTree.disk path t).2) = _
      rw [hsaved]
    rw [heq] at hsave
    cases answer with
    | error failure => cases hsave
    | ok place =>
      cases hsave
      obtain ⟨rfl, between, hgrows, hwrite⟩ :=
        Manifest.Compilation.save_eq_ok hunit hsaved
      exact ⟨m, _, hparse, rfl, hgrows.stores hwrite,
        Manifest.artifact_of_ready hready hunit,
        Artifact.unpack_pack _ _⟩

/-- **Saving.** Whatever was done with a host, and whatever there is on the
disk: where it saves its unit with the compiler of manifests, the file holds the
bytes of the manifest that its source is, and these are the bytes in the
artifact that it packs; nothing else on the disk changes, but for directories
above the file that were missing. Where it has nothing to export, with any
compiler, it refuses to save and the disk is as it was. -/
theorem save_stores (registry : Registry) (extension : String)
    (unit : SourceUnit) (references imports : Option (List String))
    (settings : Settings) (ops : List (Operation (StateM FileTree))) :
    let compiler := Manifest.compiler FileTree.disk registry extension
    let h := (ofUnit unit references imports settings).run ops
    (∀ (path saved : String) (t t' : FileTree),
      h.save compiler path t = (.ok saved, t') →
      ∃ m artifact, Manifest.parse unit.script = .ok m ∧ saved = path ∧
        Stores t path m.bytes t' ∧ h.artifact compiler = .ok artifact ∧
        artifact.unpack = .ok m.bytes.data.toList) ∧
    ∀ (other : Compiler (StateM FileTree)) (path : String) (t : FileTree),
      h.Unexportable other → ∃ e, h.save other path t = (.error e, t) := by
  intro compiler h
  constructor
  · intro path saved t t' hsave
    obtain ⟨m, artifact, hparse, hrest⟩ := save_eq_ok hsave
    rw [(run_sameSetup (ofUnit unit references imports settings) ops).unit] at hparse
    exact ⟨m, artifact, hparse, hrest⟩
  · intro other path t hwhy
    obtain ⟨e, he⟩ := save_of_unexportable hwhy path
    rw [he]
    exact ⟨e, rfl⟩

/-- A unit is saved where there is no directory yet, beside a file that stays as
it is; a host that was disposed of refuses. -/
theorem save_stores_nested :
    let compiler := Manifest.compiler FileTree.disk Routine.builtin "unit"
    let host :=
      ofUnit (.inline "\x7b\"entry\":\x7b\"routine\":\"echo\"\x7d\x7d")
        none none .default
    let t : FileTree := ⟨[(["kept"], .file "text".toUTF8)]⟩
    (∃ (m : Manifest) (t' : FileTree),
        (host.run [.prepare compiler]).save compiler "out/a" t = (.ok "out/a", t') ∧
          Stores t "out/a" m.bytes t' ∧ t'.read "kept" = .ok "text".toUTF8) ∧
    ∃ e, (host.run [.prepare compiler, .dispose]).save compiler "out/a" t =
      (.error e, t) := by
  intro compiler host t
  have hsaved : ((host.run [.prepare compiler]).save compiler "out/a" t).1 =
      .ok "out/a" := by
    decide +kernel
  have hkept : t.read "kept" = .ok "text".toUTF8 := rfl
  obtain ⟨hsaves, -⟩ := save_stores Routine.builtin "unit"
    (.inline "\x7b\"entry\":\x7b\"routine\":\"echo\"\x7d\x7d") none none .default
    [.prepare compiler]
  obtain ⟨-, hrefuses⟩ := save_stores Routine.builtin "unit"
    (.inline "\x7b\"entry\":\x7b\"routine\":\"echo\"\x7d\x7d") none none .default
    [.prepare compiler, .dispose]
  obtain ⟨m, artifact, -, -, hstores, -⟩ :=
    hsaves "out/a" "out/a" t _ (Prod.ext hsaved rfl)
  refine ⟨⟨m, _, Prod.ext hsaved rfl, hstores, hstores.read_other hkept ?_⟩, ?_⟩
  · decide +kernel
  · exact hrefuses compiler "out/a" t (.unready nofun)

end Host

end DetectorBench
