import DetectorBench.Disk.FileTree
import DetectorBench.Proofs.Artifact.Base64
import DetectorBench.Proofs.Host.Export
import DetectorBench.Proofs.Manifest.RoundTrip

/-!
# Exported units

There are two ways to a unit that can be called: a host compiles its source, or
takes in the image that is loaded from the bytes of an export. Both come to the
same (`export_reloads`). A host that is ready knows the unit of its compilation;
what it exports are the bytes of the manifest in it, and these are read back as
that very manifest, so that the image loaded from them is the image that was
emitted.
-/

namespace DetectorBench

/-! ## Hosts that offer the same unit -/

namespace Host

/-- Another host offers the same unit: with the same metadata, under the same
names, and with the same result of every invocation. -/
structure SameOffer (h h' : Host) : Prop where
  metadata : h'.metadata = h.metadata
  image : h'.image.map Image.name = h.image.map Image.name
  entry : h'.entryPoint.map EntryPoint.name = h.entryPoint.map EntryPoint.name
  arity : h'.entryPoint.map EntryPoint.arity = h.entryPoint.map EntryPoint.arity
  invoke : ∀ arguments, h'.invoke arguments = h.invoke arguments

/-- Whoever takes an image in offers what another host offers that got the image
from its source. -/
theorem preload_sameOffer {other : Host} {image : Image} {entry : EntryPoint}
    {metadata : Metadata}
    (resolve : image.resolve other.settings.signature = .ok entry)
    (extract : entry.metadata = .ok metadata) (before : Host)
    (lines : List String) :
    ∃ after, other.preload image = (.ok (), after) ∧ after.stage = .ready ∧
      after.output = [] ∧
      SameOffer (before.readyWith image entry metadata lines) after :=
  ⟨_, (Intake.ready resolve extract).preload_eq, rfl, rfl, rfl, rfl, rfl, rfl,
    fun _ => rfl⟩

end Host

namespace Manifest

/-! ## Ready hosts -/

variable {m : Type → Type} [Monad m] {disk : Disk m} {registry : Registry}
  {extension : String}

/-- What the compiler of manifests makes of the source of a host. -/
def compilationOf (registry : Registry) (extension : String) (h : Host) :
    Compilation :=
  Compilation.ofSource registry extension h.unit.script h.references h.imports

/-- A pass that ends in readiness has found a unit with the canonical entry
point. -/
theorem unit_of_ready {h after : Host} {result : Except HostError Unit}
    (p : Host.Pass h (compiler disk registry extension) result after)
    (hready : after.stage = .ready) :
    ∃ manifest r metadata lines, (compilationOf registry extension h).unit =
      .ok (manifest, r) ∧ manifest.entry.name = Signature.canonical.name ∧
      (manifest.entryPoint r).metadata = .ok metadata ∧
      after = h.readyWith (manifest.image
        (compilationOf registry extension h).name r)
        (manifest.entryPoint r) metadata lines := by
  cases p with
  | uncompiled | unreported | erroneous | unemitted | unresolved | absent
  | repeated | refused =>
    cases hready
  | @ready handle ds image entry metadata verdict checked emit resolve extract
      validate =>
    -- compiling never breaks, and what it leaves is the handle of the
    -- compilation
    have hhandle : (compilationOf registry extension h).handle disk = handle := by
      have hcompiled := checked.compiled
      cases hcompiled
      rfl
    subst hhandle
    obtain ⟨manifest, r, hunit, rfl⟩ := Compilation.emit_eq_ok_iff.mp emit
    have hresolve : (if manifest.entry.name = Signature.canonical.name then
        .ok (manifest.entryPoint r)
          else .error (manifest.noEntryPoint Signature.canonical)) =
          Except.ok entry := resolve
    by_cases hname : manifest.entry.name = Signature.canonical.name
    · rw [if_pos hname] at hresolve
      cases hresolve
      exact ⟨manifest, r, metadata, _, hunit, hname, extract, rfl⟩
    · rw [if_neg hname] at hresolve
      cases hresolve

/-- Compiling anew for a ready host leaves the handle of its compilation. -/
theorem recompile_of_ready {h : Host} (hready : h.stage = .ready)
    {manifest : Manifest} {r : Routine}
    (hunit : (compilationOf registry extension h).unit = .ok (manifest, r)) :
    h.recompile (compiler disk registry extension) =
      .ok ((compilationOf registry extension h).handle disk) := by
  refine Host.recompile_of_clean hready rfl rfl ?_
  rw [← Diagnostic.anyError_iff, (Compilation.unit_eq_ok_iff.mp hunit).1]
  exact Bool.false_ne_true

/-- What a ready host exports are the bytes of the manifest in the unit of its
compilation. -/
theorem artifact_of_ready {h : Host} (hready : h.stage = .ready)
    {manifest : Manifest} {r : Routine}
    (hunit : (compilationOf registry extension h).unit = .ok (manifest, r)) :
    h.artifact (compiler disk registry extension) =
      .ok (.pack (compilationOf registry extension h).name
        manifest.bytes.data.toList) := by
  rw [Host.artifact_eq, recompile_of_ready hready hunit]
  show ((compilationOf registry extension h).artifact).mapError _ = _
  rw [Compilation.artifact_of_unit hunit]
  rfl

theorem toArray_toList_data (bytes : ByteArray) :
    (⟨bytes.data.toList.toArray⟩ : ByteArray) = bytes := by
  rw [Array.toArray_toList]

/-- An image that is loaded is that of the manifest that is read, if its routine
is registered. -/
theorem loadImage_eq_ok_iff {name : String} {bytes : ByteArray}
    {image : Image} :
    loadImage registry name bytes = .ok image ↔
      ∃ m r, ofBytes bytes = .ok m ∧ registry.get? m.entry.routine = some r ∧
        image = m.image name r := by
  unfold loadImage
  cases ofBytes bytes with
  | error failure => exact ⟨nofun, fun ⟨_, _, h, _⟩ => nomatch h⟩
  | ok m =>
    simp only [bind, Except.bind]
    cases hr : registry.get? m.entry.routine with
    | none =>
      refine ⟨nofun, ?_⟩
      rintro ⟨_, r, hm, hr', -⟩
      cases hm
      rw [hr] at hr'
      cases hr'
    | some r =>
      constructor
      · intro h
        cases h
        exact ⟨m, r, rfl, hr, rfl⟩
      · rintro ⟨_, r', hm, hr', rfl⟩
        cases hm
        rw [hr] at hr'
        cases hr'
        rfl

/-- The bytes of a manifest are loaded as its image. -/
theorem loadImage_bytes {manifest : Manifest} {r : Routine}
    (hr : registry.get? manifest.entry.routine = some r) (name : String) :
    loadImage registry name manifest.bytes = .ok (manifest.image name r) :=
  loadImage_eq_ok_iff.mpr ⟨manifest, r, ofBytes_bytes manifest, hr, rfl⟩

/-- After a pass over the source that ends in readiness, what is exported
reloads. -/
theorem reloads_of_pass {before h : Host} {result : Except HostError Unit}
    (pass : before.Pass (compiler disk registry extension) result h)
    (hready : h.stage = .ready) :
    ∃ artifact bytes image,
      h.artifact (compiler disk registry extension) = .ok artifact ∧
      artifact.unpack = .ok bytes ∧
      loadImage registry artifact.name ⟨bytes.toArray⟩ = .ok image ∧
      ∀ other : Host, other.settings.entryPoint = Signature.canonical.name →
        ∃ after, other.preload image = (.ok (), after) ∧ after.stage = .ready ∧
          after.output = [] ∧ Host.SameOffer h after := by
  obtain ⟨manifest, r, metadata, lines, hunit, hname, hmetadata, hoffer⟩ :=
    unit_of_ready pass hready
  have hsame := pass.sameSetup
  -- exporting compiles anew, and comes to the compilation of the pass
  have hcompilation :
      compilationOf registry extension h =
        compilationOf registry extension before := by
    unfold compilationOf
    rw [hsame.unit, hsame.references, hsame.imports]
  rw [← hcompilation] at hunit hoffer
  have hr := (Compilation.unit_eq_ok_iff.mp hunit).2.2
  rw [compilationOf, Compilation.ofSource_registry] at hr
  have hexport : h.artifact (compiler disk registry extension) = _ :=
    artifact_of_ready hready hunit
  generalize (compilationOf registry extension h).name = name at hoffer hexport
  refine ⟨.pack name manifest.bytes.data.toList, manifest.bytes.data.toList,
    manifest.image name r, hexport, Artifact.unpack_pack _ _, ?_, ?_⟩
  · rw [toArray_toList_data]
    exact loadImage_bytes hr name
  · intro other hother
    have hresolve : (manifest.image name r).resolve other.settings.signature =
        .ok (manifest.entryPoint r) := if_pos (hname.trans hother.symm)
    rw [hoffer]
    exact Host.preload_sameOffer hresolve hmetadata before lines

/-- **Exported units reload.** Whatever was done with a host, if its last pass
was one over the source, with the compiler of manifests, and it is ready, then
it exports an artifact, the artifact holds bytes, and the bytes are loaded as an
image. Every host that looks for the canonical entry point, whatever it has been
through, takes the image in without a word and offers what the first host
offers. -/
theorem export_reloads (disk : Disk m) (registry : Registry)
    (extension : String) (unit : SourceUnit)
    (references imports : Option (List String)) (settings : Settings)
    (ops : List (Operation m))
    (hlast : Host.lastPass? ops = some (.prepare (compiler disk registry extension)))
    (hready : ((Host.ofUnit unit references imports settings).run ops).stage =
      .ready) :
    let h := (Host.ofUnit unit references imports settings).run ops
    ∃ artifact bytes image,
      h.artifact (compiler disk registry extension) = .ok artifact ∧
      artifact.unpack = .ok bytes ∧
      loadImage registry artifact.name ⟨bytes.toArray⟩ = .ok image ∧
      ∀ other : Host, other.settings.entryPoint = Signature.canonical.name →
        ∃ after, other.preload image = (.ok (), after) ∧ after.stage = .ready ∧
          after.output = [] ∧ Host.SameOffer h after := by
  obtain ⟨before, -, hafter⟩ :=
    Host.run_of_lastPass hlast (.ofUnit unit references imports settings)
  have pass := Host.Pass.prepare before (compiler disk registry extension)
  rcases hafter with heq | heq
  · rw [heq] at hready ⊢
    exact reloads_of_pass pass hready
  · -- a host that was disposed of is not ready
    rw [heq] at hready
    cases hready

/-- There is such a run, and a host for its export: a source is compiled and its
unit invoked, and a host of an empty source takes the export in. -/
theorem export_reloads_echo :
    let compiler := compiler FileTree.disk Routine.builtin "unit"
    let ops := [.prepare compiler, .invoke [.null]]
    let unit := SourceUnit.inline "\x7b\"entry\":\x7b\"routine\":\"echo\"\x7d\x7d"
    let h := (Host.ofUnit unit none none .default).run ops
    let other := Host.ofUnit (.inline "") none none .default
    Host.lastPass? ops = some (.prepare compiler) ∧ h.stage = .ready ∧
      ∃ artifact bytes image after, h.artifact compiler = .ok artifact ∧
        artifact.unpack = .ok bytes ∧
        loadImage Routine.builtin artifact.name ⟨bytes.toArray⟩ = .ok image ∧
        other.preload image = (.ok (), after) ∧ after.stage = .ready ∧
        Host.SameOffer h after := by
  refine ⟨rfl, rfl, ?_⟩
  obtain ⟨artifact, bytes, image, hartifact, hbytes, himage, hothers⟩ :=
    export_reloads FileTree.disk Routine.builtin "unit"
      (.inline "\x7b\"entry\":\x7b\"routine\":\"echo\"\x7d\x7d") none none .default
      [.prepare (compiler FileTree.disk Routine.builtin "unit"),
        .invoke [.null]] rfl rfl
  obtain ⟨after, hpreload, hready, -, hoffer⟩ :=
    hothers (Host.ofUnit (.inline "") none none .default) rfl
  exact ⟨artifact, bytes, image, after, hartifact, hbytes, himage, hpreload,
    hready, hoffer⟩

end Manifest

end DetectorBench
