import DetectorBench.Proofs.Host.Run
import DetectorBench.Proofs.Record.Canonical
import DetectorBench.Proofs.Record.Shapes
import DetectorBench.Proofs.Report.RoundTrip

/-!
# A host is recovered from its report

The JSON report on a host is an object, and under its keys stands everything
that the host has found out (`Host.ToldBy`): whoever reads the report as plain
JSON and looks the keys up gets the stage, the lines of output, the violation if
there is one, and the metadata, though the report leaves out what is absent and
reading sorts what is there. What is told of two hosts by one value is the same
(`ToldBy.unique`), so a report determines what the host has found out.

That success is told exactly of a host that is ready is no matter of writing and
reading. It is the coherence of hosts that were used in any way.
-/

namespace DetectorBench

open Json Codec

/-! ## Reports as values -/

/-- A support topic survives sorting. -/
theorem SupportTopic.codec_settled : SupportTopic.codec.Settled := by
  refine Settled.map (Record.codec_settled ?_ (by decide)) fun _ => rfl
  exact ⟨Field.required_settled _ text_settled,
    Field.required_settled _ text_settled, trivial⟩

/-- So does a definition, with what it leaves out. -/
theorem Definition.codec_settled : Definition.codec.Settled := by
  refine Settled.map (Record.codec_settled ?_ (by decide)) fun _ => rfl
  exact ⟨Field.required_settled _ text_settled,
    Field.required_settled _ text_settled,
    Field.required_settled _ text_settled, Field.maybe_settled _ text_settled
      fun _ => nofun,
    Field.maybe_settled _ text_settled fun _ => nofun,
    Field.withDefault_settled _ SupportTopic.codec_settled.list _, trivial⟩

theorem ResourceFilter.codec_settled : ResourceFilter.codec.Settled := by
  refine Settled.map (Record.codec_settled ?_ (by decide)) fun _ => rfl
  exact ⟨Field.withDefault_settled _ text_settled _,
    Field.withDefault_settled _ flag_settled _, trivial⟩

theorem SystemFilter.codec_settled : SystemFilter.codec.Settled := by
  refine Settled.map (Record.codec_settled ?_ (by decide)) fun _ => rfl
  exact trivial

/-- **Metadata survive sorting**, all four parts of them. -/
theorem Metadata.codec_settled : Metadata.codec.Settled := by
  refine Settled.map (Record.codec_settled ?_ (by decide)) fun _ => rfl
  exact ⟨Field.maybe_settled _ Definition.codec_settled fun _ => nofun,
    Field.maybe_settled _ ResourceFilter.codec_settled fun _ => nofun,
    Field.maybe_settled _ SystemFilter.codec_settled fun _ => nofun, trivial⟩

theorem SupportTopic.codec_shallow : SupportTopic.codec.Shallow 1 := by
  refine (Record.codec_shallow ?_).map _ _
  exact ⟨text_shallow, text_shallow, trivial⟩

/-- The support topics are a list in a definition. -/
theorem Definition.codec_shallow : Definition.codec.Shallow 3 := by
  refine (Record.codec_shallow ?_).map _ _
  exact ⟨text_shallow, text_shallow, text_shallow, text_shallow.optional,
    text_shallow.optional, SupportTopic.codec_shallow.list, trivial⟩

theorem ResourceFilter.codec_shallow : ResourceFilter.codec.Shallow 1 := by
  refine (Record.codec_shallow ?_).map _ _
  exact ⟨text_shallow, flag_shallow, trivial⟩

theorem SystemFilter.codec_shallow : SystemFilter.codec.Shallow 1 := by
  refine (Record.codec_shallow ?_).map _ _
  exact trivial

/-- A definition is one bracket more in the metadata. -/
theorem Metadata.codec_shallow : Metadata.codec.Shallow 4 := by
  have resource := ResourceFilter.codec_shallow.mono (show 1 ≤ 3 by omega)
  have system := SystemFilter.codec_shallow.mono (show 1 ≤ 3 by omega)
  refine (Record.codec_shallow ?_).map _ _
  exact ⟨Definition.codec_shallow.optional, resource.optional, system.optional,
    trivial⟩

namespace Report

/-- A report survives being read as plain JSON, where its members are sorted. -/
theorem codec_settled : codec.Settled := by
  have stage : Stage.codec.Settled := Stage.codec_lawful.settled fun _ => rfl
  refine Settled.map (Record.codec_settled ?_ (by decide)) fun _ => rfl
  exact ⟨Field.required_settled _ flag_settled, Field.required_settled _ stage,
    Field.required_settled _ text_settled.list,
    Field.maybe_settled _ text_settled fun _ => nofun,
    Field.required_settled _ Metadata.codec_settled, trivial⟩

/-- The metadata are one bracket more in a report. -/
theorem codec_shallow : codec.Shallow 5 := by
  have stage : Stage.codec.Shallow 4 := fun _ => Nat.zero_le 4
  have line : Codec.text.Shallow 0 := text_shallow
  have output := line.list.mono (show 0 + 1 ≤ 4 by omega)
  refine (Record.codec_shallow ?_).map _ _
  exact ⟨flag_shallow, stage, output, text_shallow.optional,
    Metadata.codec_shallow, trivial⟩

/-- What a report is written as. -/
def members (r : Report) : List (String × Json) :=
  ("success", .bool r.success) :: ("state", .string r.stage.name) ::
    ("output", .array (r.output.map .string)) ::
    ((r.violation.map fun message =>
      ("validation_error", Json.string message)).toList ++
      [("metadata", Metadata.codec.encode r.metadata)])

/-- A report is written as the object of its members. -/
theorem encode_eq (r : Report) : codec.encode r = .object r.members := by
  obtain ⟨success, stage, output, violation, metadata⟩ := r
  cases violation <;> rfl

/-- No key stands twice in a report. -/
theorem nodup_keys (r : Report) : (r.members.map (·.1)).Nodup := by
  obtain ⟨success, stage, output, violation, metadata⟩ := r
  cases violation with
  | none =>
    show ["success", "state", "output", "metadata"].Nodup
    decide
  | some message =>
    show ["success", "state", "output", "validation_error", "metadata"].Nodup
    decide

/-- A report is read as the canonical form of its members. -/
theorem parse_pretty (r : Report) :
    Json.parse (codec.pretty r) = .ok (Json.object r.members).canonical := by
  rw [← encode_eq]
  exact Json.parse_pretty (codec_lawful.exact r)
    (Nat.le_trans (codec_shallow r) (by decide))

/-- Looking up a key in the sorted report gives the sorted form of what stands
there. -/
theorem get?_members (r : Report) (key : String) :
    (Json.object r.members).canonical.get? key =
      ((Json.object r.members).get? key).map canonical :=
  get?_canonical r.nodup_keys key

/-- Lines of output are in canonical form as they are. -/
theorem canonicalItems_strings (lines : List String) :
    canonicalItems (lines.map .string) = lines.map .string := by
  induction lines with
  | nil => rfl
  | cons line lines ih =>
    rw [List.map_cons, canonicalItems, ih]
    rfl

end Report

/-! ## What is told of a host -/

namespace Host

/-- A value tells, key by key, what a host has found out. -/
structure ToldBy (h : Host) (j : Json) : Prop where
  object : j.IsObject
  success : j.get? "success" = some (.bool (decide (h.stage = .ready)))
  stage : j.get? "state" = some (.string h.stage.name)
  output : j.get? "output" = some (.array (h.output.map .string))
  violation : j.get? "validation_error" = h.violation.map fun v => .string v.message
  metadata : ∃ content, j.get? "metadata" = some content ∧
    Metadata.codec.decode content = .ok h.metadata

/-- The report on a coherent host tells what it has found out. -/
theorem Coherent.toldBy {h : Host} (hc : h.Coherent) :
    h.ToldBy (Json.object (Report.ofHost h).members).canonical where
  object := ⟨_, rfl⟩
  success := by
    have hready : h.successful = decide (h.stage = .ready) :=
      Bool.eq_iff_iff.mpr (hc.successful_iff.trans decide_eq_true_iff.symm)
    rw [Report.get?_members, ← hready]
    rfl
  stage := by
    rw [Report.get?_members]
    rfl
  output := by
    have hlines := Report.canonicalItems_strings h.output
    rw [Report.get?_members, ← hlines]
    rfl
  violation := by
    rw [Report.get?_members]
    unfold Report.ofHost Report.members
    cases h.violation <;> rfl
  metadata := by
    refine ⟨(Metadata.codec.encode h.metadata).canonical, ?_,
      Metadata.codec_settled h.metadata⟩
    rw [Report.get?_members]
    unfold Report.ofHost Report.members
    cases h.violation <;> rfl

/-- What is told of two hosts by one value is the same. -/
theorem ToldBy.unique {h h' : Host} {j : Json} (t : h.ToldBy j)
    (t' : h'.ToldBy j) :
    h'.stage = h.stage ∧ h'.output = h.output ∧ h'.metadata = h.metadata ∧
      h'.violation.map Violation.message = h.violation.map Violation.message := by
  have hstage : Stage.codec.encode h'.stage = Stage.codec.encode h.stage :=
    Option.some.inj (t'.stage.symm.trans t.stage)
  have houtput :
      Codec.text.list.encode h'.output = Codec.text.list.encode h.output :=
    Option.some.inj (t'.output.symm.trans t.output)
  have hviolation : (h'.violation.map Violation.message).map Json.string =
      (h.violation.map Violation.message).map Json.string := by
    rw [Option.map_map, Option.map_map]
    exact t'.violation.symm.trans t.violation
  obtain ⟨content, hcontent, hdecode⟩ := t.metadata
  obtain ⟨content', hcontent', hdecode'⟩ := t'.metadata
  have hmetadata : h'.metadata = h.metadata := by
    rw [hcontent] at hcontent'
    cases hcontent'
    rw [hdecode] at hdecode'
    exact (Except.ok.inj hdecode').symm
  exact ⟨Stage.codec_lawful.injective hstage,
    text_lawful.list.injective houtput, hmetadata,
    Option.map_injective (fun _ _ => Json.string.inj) hviolation⟩

section Run

variable {m m' : Type → Type} [Monad m] [Monad m']

/-- **A host is recovered from its report.** Whatever was done with a host, its
JSON report is read as an object that tells what the host has found out, and
that is decoded as the report on the host; it says that the pass was a success
exactly if it says that the host is ready. And whatever was done with another
host, if the reports on the two are equal, so is what they have found out. -/
theorem report_recovers (unit unit' : SourceUnit)
    (references imports references' imports' : Option (List String))
    (settings settings' : Settings) (ops : List (Operation m))
    (ops' : List (Operation m')) :
    let h := (ofUnit unit references imports settings).run ops
    let h' := (ofUnit unit' references' imports' settings').run ops'
    (∃ j, Json.parse (h.report true) = .ok j ∧ h.ToldBy j ∧
      (j.get? "success" = some (.bool true) ↔
        j.get? "state" = some (.string "ready")) ∧
      Report.codec.decode j = .ok (Report.ofHost h)) ∧
    (h'.report true = h.report true →
      h'.stage = h.stage ∧ h'.output = h.output ∧ h'.metadata = h.metadata ∧
        h'.violation.map Violation.message = h.violation.map Violation.message) := by
  intro h h'
  have hc : h.Coherent :=
    run_keeps_coherent (ofUnit_coherent unit references imports settings) ops
  have hc' : h'.Coherent :=
    run_keeps_coherent (ofUnit_coherent unit' references' imports' settings') ops'
  have told := hc.toldBy
  have hparse : Json.parse (h.report true) =
      .ok (Json.object (Report.ofHost h).members).canonical := Report.parse_pretty _
  have hparse' : Json.parse (h'.report true) =
      .ok (Json.object (Report.ofHost h').members).canonical := Report.parse_pretty _
  refine ⟨⟨_, hparse, told, ?_, ?_⟩, fun hreports => ?_⟩
  · have hready : Stage.name .ready = "ready" := rfl
    rw [told.success, told.stage, ← hready]
    simp only [Option.some.injEq, Json.bool.injEq, Json.string.injEq,
      decide_eq_true_eq]
    constructor
    · exact congrArg Stage.name
    · exact fun hname => Stage.codec_lawful.injective (congrArg Json.string hname)
  · rw [← Report.encode_eq]
    exact Report.codec_settled _
  · -- one text is read as one value
    rw [hreports, hparse] at hparse'
    have told' := hc'.toldBy
    rw [← Except.ok.inj hparse'] at told'
    exact told.unique told'

/-- A host that was disposed of after a refusal still tells what it was refused
for, though it is new again. So does one that was refused twice, and there is no
telling the two apart by their reports. -/
theorem report_recovers_refused :
    ∃ refusing : Compiler Id,
      let start := ofUnit (.inline "") none none .default
      let used := start.run [.prepare refusing, .dispose]
      let again := start.run [.prepare refusing, .prepare refusing, .dispose]
      (∃ j, Json.parse (used.report true) = .ok j ∧
        j.get? "success" = some (.bool false) ∧
        j.get? "state" = some (.string "new") ∧
        j.get? "output" =
          some (.array [.string
            "error: Name cannot be empty in the Definition attribute"]) ∧
        j.get? "validation_error" =
          some (.string "Name cannot be empty in the Definition attribute")) ∧
      again.report true = used.report true ∧ again.metadata = used.metadata := by
  let entry : EntryPoint :=
    { name := "run"
      arity := 0
      attributes := [.definition (.named "cpu" " " "ops")]
      call := fun _ => .ok (.value .null) }
  let handle : Handle Id :=
    { diagnostics := .ok []
      signature := .canonical
      emit := .ok ⟨"unit", fun _ => .ok entry⟩
      save := fun path => .ok path
      artifact := .ok ⟨"unit", ""⟩ }
  let refusing : Compiler Id := ⟨"refusing", fun _ _ _ => .ok handle⟩
  let used :=
    (ofUnit (.inline "") none none .default).run [.prepare refusing, .dispose]
  let again := (ofUnit (.inline "") none none .default).run
    [.prepare refusing, .prepare refusing, .dispose]
  have hreports : again.report true = used.report true := rfl
  obtain ⟨⟨j, hparse, told, -, -⟩, hsame⟩ :=
    report_recovers (.inline "") (.inline "") none none none none .default .default
      [.prepare refusing, .dispose] [.prepare refusing, .prepare refusing, .dispose]
  refine ⟨refusing, ⟨j, hparse, told.success, told.stage, told.output,
    told.violation⟩, hreports, ?_⟩
  exact (hsame hreports).2.2.1

end Run

end Host

end DetectorBench
