import DetectorBench.Disk.FileTree
import DetectorBench.Proofs.Host.Export
import DetectorBench.Proofs.Manifest.Outcome
import DetectorBench.Proofs.Manifest.Reload
import DetectorBench.Routine.Builtin

/-!
# What an entry point is called with

A routine is written for a number of arguments, and two checks see to it that it
gets that number: a host drops what is too much before the call
(`EntryPoint.bind`), and the entry point of a manifest turns down what is too
little (`Routine.call`). Neither is enough alone. Together they leave one list
that a body is ever run on (`runsOn_entryPoint`), so a body may look for its
arguments without asking whether they are there.

The body of a built-in routine does so. `Routine.body?` writes the bodies down
as they are for lists of any length, with no answer where an argument is looked
for that is not there; the routines agree with them where they may be run
(`body_of_builtin`), and an invocation gets there in no other way.

What an invocation makes of the answer of a call is the relation `Answered`.
That a host has no entry point but those of manifests is an invariant of its
operations (`perform_backed`).
-/

namespace DetectorBench

/-! ## The answer of a call -/

/-- What an invocation makes of what a call comes back with. -/
inductive Answered : Except BindingError Outcome → Except HostError Output →
    Prop where
  | unbound (e : BindingError) : Answered (.error e) (.error (.binding e))
  | value (v : Json) : Answered (.ok (.value v)) (.ok (.value v))
  | arrived (v : Json) : Answered (.ok (.deferred (.ok v))) (.ok (.value v))
  | completed : Answered (.ok (.deferredUnit (.ok ()))) (.ok .noValue)
  /-- What was waited for failed: the failure is passed on, with its subject and
  all its messages. -/
  | failed (f : Failure) :
    Answered (.ok (.deferred (.error f))) (.error (.fault f))
  | failedUnit (f : Failure) :
      Answered (.ok (.deferredUnit (.error f))) (.error (.fault f))

/-- An outcome is answered as it settles. -/
theorem answered_ok_iff {outcome : Outcome} {answer : Except HostError Output} :
    Answered (.ok outcome) answer ↔ outcome.settle.mapError .fault = answer := by
  constructor
  · intro h
    cases h <;> rfl
  · intro h
    subst h
    cases outcome with
    | value v => exact .value v
    | deferred later =>
      cases later with
      | ok v => exact .arrived v
      | error f => exact .failed f
    | deferredUnit later =>
      cases later with
      | ok _ => exact .completed
      | error f => exact .failedUnit f

namespace EntryPoint

/-- An entry point answers what it answers to the arguments from the front that
it has room for. -/
theorem invoke_eq_iff (e : EntryPoint) (arguments : List Json)
    (answer : Except HostError Output) :
    e.invoke arguments = answer ↔
      Answered (e.call (arguments.take (min e.arity arguments.length))) answer := by
  have hbind : bind e.arity arguments =
      arguments.take (min e.arity arguments.length) := by
    unfold bind
    rw [← List.take_eq_take_min]
  unfold invoke
  rw [hbind]
  cases e.call (arguments.take (min e.arity arguments.length)) with
  | error error =>
    constructor
    · intro h
      cases h
      exact .unbound error
    · intro h
      cases h
      rfl
  | ok outcome => exact answered_ok_iff.symm

/-- What comes behind those arguments does not matter. -/
theorem invoke_congr (e : EntryPoint) {arguments others : List Json}
    (h : others.take e.arity = arguments.take e.arity) :
    e.invoke others = e.invoke arguments := by
  unfold invoke bind
  rw [h]

end EntryPoint

/-! ## The arguments of a routine -/

/-- An entry point runs the body of a routine on as many arguments as the
routine takes, and on nothing else. Of too few it complains under its name,
whatever the body is; of too many the body gets the first. -/
structure EntryPoint.RunsOn (e : EntryPoint) (name : String) (r : Routine) :
    Prop where
  short : ∀ arguments : List Json, arguments.length < r.arity →
    e.invoke arguments = .error (.binding ⟨name, r.arity, arguments.length⟩)
  enough : ∀ arguments : List Json, r.arity ≤ arguments.length →
    ∃ h : r.arity ≤ (arguments.take r.arity).length,
    (arguments.take r.arity).length = r.arity ∧
      ∀ answer, e.invoke arguments = answer ↔
        Answered (.ok (r.run (arguments.take r.arity) h)) answer

namespace Manifest

theorem runsOn_entryPoint (m : Manifest) (r : Routine) :
    (m.entryPoint r).RunsOn m.entry.name r where
  short arguments hshort := by
    have hall : arguments.take (min r.arity arguments.length) = arguments := by
      rw [Nat.min_eq_right (Nat.le_of_lt hshort), List.take_length]
    have hcall : r.call m.entry.name arguments =
        .error ⟨m.entry.name, r.arity, arguments.length⟩ :=
      dif_neg (Nat.not_le.mpr hshort)
    rw [EntryPoint.invoke_eq_iff]
    show Answered
      (r.call m.entry.name (arguments.take (min r.arity arguments.length))) _
    rw [hall, hcall]
    exact .unbound _
  enough arguments henough := by
    have hlength : (arguments.take r.arity).length = r.arity := by
      rw [List.length_take, Nat.min_eq_left henough]
    have h : r.arity ≤ (arguments.take r.arity).length := Nat.le_of_eq hlength.symm
    have hcall : r.call m.entry.name (arguments.take r.arity) =
        .ok (r.run (arguments.take r.arity) h) := dif_pos h
    refine ⟨h, hlength, fun answer => ?_⟩
    rw [EntryPoint.invoke_eq_iff]
    show Answered (r.call m.entry.name
      (arguments.take (min r.arity arguments.length))) answer ↔ _
    rw [Nat.min_eq_left henough, hcall]

end Manifest

/-! ## Built-in routines -/

namespace Routine

/-- The body of a built-in routine as it is written, for any list of arguments;
`none` where it looks for an argument that is not there. -/
def body? (name : String) : Option (List Json → Option Outcome) :=
  if name = "echo" then some fun arguments => arguments[0]?.map .value
  else if name = "noop" then some fun _ => some (.deferredUnit (.ok ()))
  else if name = "count" then
    some fun arguments => arguments[0]?.map fun v =>
      .deferred ((sizeOfValue v).map Json.ofNat)
  else none

theorem builtin_routines : builtin.routines = [count, echo, noop] := rfl

/-- A built-in routine looks for no more arguments than it takes. -/
theorem body_of_builtin {name : String} {r : Routine}
    (h : builtin.get? name = some r) :
    ∃ body, body? name = some body ∧
      ∀ arguments (enough : r.arity ≤ arguments.length),
        body arguments = some (r.run arguments enough) := by
  have hmem : r ∈ [count, echo, noop] := by
    rw [← builtin_routines]
    exact List.mem_of_find?_eq_some h
  have hname : r.name = name := by simpa using List.find?_some h
  subst hname
  -- `count` and `echo` look at one argument, and take one
  have hfirst : ∀ {arguments : List Json} (enough : 1 ≤ arguments.length),
      arguments[0]? = some arguments[0] :=
        fun enough => List.getElem?_eq_getElem enough
  simp only [List.mem_cons, List.not_mem_nil, or_false] at hmem
  rcases hmem with rfl | rfl | rfl
  · refine ⟨_, rfl, fun arguments enough => ?_⟩
    rw [hfirst enough]
    rfl
  · refine ⟨_, rfl, fun arguments enough => ?_⟩
    rw [hfirst enough]
    rfl
  · exact ⟨_, rfl, fun _ _ => rfl⟩

end Routine

namespace Manifest

/-! ## Hosts -/

/-- The manifest of a unit is the one that was parsed. -/
theorem Compilation.parse_of_unit {registry : Registry}
    {extension source : String} {references imports : Option (List String)}
    {m : Manifest} {r : Routine}
    (h : (ofSource registry extension source references imports).unit = .ok (m, r)) :
    parse source = .ok m := by
  have hmanifest := (unit_eq_ok_iff.mp h).2.1
  unfold ofSource at hmanifest
  split at hmanifest
  next => cases hmanifest
  next hparse =>
    cases hmanifest
    exact hparse

end Manifest

variable {m : Type → Type} [Monad m]

/-- The compilers and the images of an operation are those of manifests, over
one registry. -/
inductive Operation.Over (registry : Registry) : Operation m → Prop where
  | prepare (disk : Disk m) (extension : String) :
    Over registry (.prepare (Manifest.compiler disk registry extension))
  | preload {name : String} {bytes : ByteArray} {image : Image}
    (loaded : Manifest.loadImage registry name bytes = .ok image) :
      Over registry (.preload image)
  | other {op : Operation m} (h : op.isPass = false) : Over registry op

/-- The entry point of a host, if it has one, is that of a manifest whose
routine is registered. -/
def Host.Backed (registry : Registry) (h : Host) : Prop :=
  ∀ e, h.entryPoint = some e →
    ∃ (manifest : Manifest) (r : Routine),
      registry.get? manifest.entry.routine = some r ∧ e = manifest.entryPoint r

namespace Host

variable {registry : Registry}

/-- What a pass has found when it emits, with the compiler of manifests. -/
theorem Checked.compilation {h : Host} {disk : Disk m} {extension : String}
    {handle : Handle m} {ds : List Diagnostic}
    (checked : Checked h (Manifest.compiler disk registry extension) handle ds) :
    handle = (Manifest.compilationOf registry extension h).handle disk ∧
      ds = (Manifest.compilationOf registry extension h).diagnostics := by
  obtain ⟨compiled, reported, -⟩ := checked
  cases compiled
  cases reported
  exact ⟨rfl, rfl⟩

/-- What it emits is the image of the manifest that the source is. -/
theorem Checked.emitted {h : Host} {disk : Disk m} {extension : String}
    {handle : Handle m} {ds : List Diagnostic} {image : Image}
    (checked : Checked h (Manifest.compiler disk registry extension) handle ds)
    (emit : handle.emit = .ok image) :
    ∃ (manifest : Manifest) (name : String) (r : Routine),
      Manifest.parse h.unit.script = .ok manifest ∧
        registry.get? manifest.entry.routine = some r ∧
        image = manifest.image name r := by
  obtain ⟨rfl, -⟩ := checked.compilation
  obtain ⟨manifest, r, hunit, rfl⟩ := Manifest.Compilation.emit_eq_ok_iff.mp emit
  have hr := (Manifest.Compilation.unit_eq_ok_iff.mp hunit).2.2
  rw [Manifest.compilationOf, Manifest.Compilation.ofSource_registry] at hr
  exact ⟨manifest, _, r, Manifest.Compilation.parse_of_unit hunit, hr, rfl⟩

/-- A pass over the source comes to an image that was emitted. -/
theorem Pass.backed {h after : Host} {disk : Disk m} {extension : String}
    {result : Except HostError Unit}
    (p : Pass h (Manifest.compiler disk registry extension) result after) :
    after.Backed registry := by
  intro e he
  cases p with
  | uncompiled | unreported | erroneous | unemitted | unresolved | absent
  | repeated => cases he
  | refused checked emit resolve | ready checked emit resolve =>
    cases he
    obtain ⟨manifest, name, r, -, hr, rfl⟩ := checked.emitted emit
    exact ⟨manifest, r, hr, Manifest.eq_entryPoint_of_resolve resolve⟩

/-- A pass over an image comes to the image that was loaded. -/
theorem Intake.backed {h after : Host} {image : Image}
    {result : Except HostError Unit} {name : String} {bytes : ByteArray}
    (loaded : Manifest.loadImage registry name bytes = .ok image)
    (p : Intake h image result after) : after.Backed registry := by
  intro e he
  cases p with
  | unresolved | absent | repeated => cases he
  | ready resolve =>
    cases he
    obtain ⟨manifest, r, -, hr, rfl⟩ := Manifest.loadImage_eq_ok_iff.mp loaded
    exact ⟨manifest, r, hr, Manifest.eq_entryPoint_of_resolve resolve⟩

theorem ofUnit_backed (unit : SourceUnit)
    (references imports : Option (List String)) (settings : Settings) :
    (ofUnit unit references imports settings).Backed registry := by
  intro e he
  cases he

theorem perform_backed {h : Host} (hb : h.Backed registry) {op : Operation m}
    (hop : op.Over registry) : (h.perform op).2.Backed registry := by
  cases hop with
  | prepare disk extension => exact (Pass.prepare h _).backed
  | preload loaded => exact (Intake.preload h _).backed loaded
  | other hpass =>
    -- whatever is no pass keeps the entry point or drops it
    cases op with
    | prepare | preload => cases hpass
    | invoke | artifact | save => exact hb
    | dispose =>
      intro e he
      cases he

theorem run_backed {h : Host} (hb : h.Backed registry)
    {ops : List (Operation m)} (hops : ∀ op ∈ ops, op.Over registry) :
    (h.run ops).Backed registry := by
  induction ops generalizing h with
  | nil => exact hb
  | cons op ops ih =>
    refine ih (perform_backed hb (hops op List.mem_cons_self)) fun other hother => ?_
    exact hops other (List.mem_cons_of_mem op hother)

/-- A host that is ready is invoked by invoking its entry point. -/
theorem invoke_of_backed {h : Host} (hc : h.Coherent) (hb : h.Backed registry)
    (hready : h.stage = .ready) :
    ∃ (manifest : Manifest) (r : Routine),
      registry.get? manifest.entry.routine = some r ∧
      ∀ arguments, h.invoke arguments =
        (manifest.entryPoint r).invoke arguments := by
  obtain ⟨e, he⟩ := Option.isSome_iff_exists.mp (hc.entry_iff.mpr (Or.inl hready))
  obtain ⟨manifest, r, hr, heq⟩ := hb e he
  refine ⟨manifest, r, hr, fun arguments => ?_⟩
  rw [Host.invoke_eq, hready, he, heq]

/-- **Arguments.** An entry point is called with the arguments from the front
that it has room for, and what it answers is passed on. The entry point of a
manifest runs its routine on as many of them as the routine takes, and complains
if there are too few; so a built-in routine finds every argument that it looks
for. And a host that works with the compiler and the images of manifests,
whatever was done with it, invokes no other entry points. -/
theorem arguments_bound (unit : SourceUnit)
    (references imports : Option (List String)) (settings : Settings)
    (ops : List (Operation m)) (hops : ∀ op ∈ ops, op.Over registry) :
    (∀ (e : EntryPoint) (arguments : List Json),
      (∀ answer, e.invoke arguments = answer ↔
        Answered (e.call (arguments.take (min e.arity arguments.length))) answer) ∧
      ∀ others, others.take e.arity = arguments.take e.arity →
        e.invoke others = e.invoke arguments) ∧
    (∀ (manifest : Manifest) (r : Routine),
      (manifest.entryPoint r).RunsOn manifest.entry.name r) ∧
    (∀ (manifest : Manifest) (r : Routine),
      Routine.builtin.get? manifest.entry.routine = some r →
      ∃ body, Routine.body? manifest.entry.routine = some body ∧
        ∀ arguments : List Json, r.arity ≤ arguments.length →
          ∃ outcome, body (arguments.take r.arity) = some outcome ∧
            ∀ answer, (manifest.entryPoint r).invoke arguments = answer ↔
              Answered (.ok outcome) answer) ∧
    let h := (ofUnit unit references imports settings).run ops
    (h.stage ≠ .ready ∧ ∀ arguments, h.invoke arguments = .error h.notReady) ∨
      ∃ (manifest : Manifest) (r : Routine),
      registry.get? manifest.entry.routine = some r ∧
        ∀ arguments, h.invoke arguments =
          (manifest.entryPoint r).invoke arguments := by
  refine ⟨?_, Manifest.runsOn_entryPoint, ?_, ?_⟩
  · intro e arguments
    exact ⟨e.invoke_eq_iff arguments, fun others => e.invoke_congr⟩
  · intro manifest r hr
    obtain ⟨body, hbody, hruns⟩ := Routine.body_of_builtin hr
    refine ⟨body, hbody, fun arguments henough => ?_⟩
    obtain ⟨h, -, hanswer⟩ :=
      (Manifest.runsOn_entryPoint manifest r).enough arguments henough
    exact ⟨_, hruns _ h, hanswer⟩
  · intro h
    have hc : h.Coherent :=
      run_keeps_coherent (ofUnit_coherent unit references imports settings) ops
    have hb : h.Backed registry :=
      run_backed (ofUnit_backed unit references imports settings) hops
    by_cases hready : h.stage = .ready
    · exact Or.inr (invoke_of_backed hc hb hready)
    · exact Or.inl ⟨hready, invoke_of_not_ready hready⟩

/-- A host of `echo` complains if there is no argument, and of two gives the
first one back. -/
theorem arguments_bound_echo :
    let ops := [.prepare (Manifest.compiler FileTree.disk Routine.builtin "unit")]
    let unit := SourceUnit.inline "\x7b\"entry\":\x7b\"routine\":\"echo\"\x7d\x7d"
    let h := (ofUnit unit none none .default).run ops
    h.stage = .ready ∧
      (∃ (manifest : Manifest) (r : Routine),
        Routine.builtin.get? manifest.entry.routine = some r ∧
          ∀ arguments, h.invoke arguments =
            (manifest.entryPoint r).invoke arguments) ∧
      h.invoke [] = .error (.binding ⟨"run", 1, 0⟩) ∧
      h.invoke [.null, .bool true] = .ok (.value .null) := by
  refine ⟨rfl, ?_, rfl, rfl⟩
  have hops :
      ∀ op ∈ [.prepare (Manifest.compiler FileTree.disk Routine.builtin "unit")],
      Operation.Over Routine.builtin op := by
    intro op hop
    cases List.mem_singleton.mp hop
    exact .prepare FileTree.disk "unit"
  obtain ⟨-, -, -, hhost⟩ := arguments_bound
    (.inline "\x7b\"entry\":\x7b\"routine\":\"echo\"\x7d\x7d")
      none none .default _ hops
  exact hhost.resolve_left fun hnot => hnot.1 rfl

end Host

end DetectorBench
