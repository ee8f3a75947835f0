import DetectorBench.Artifact
import DetectorBench.Proofs.Record.Tagged
import DetectorBench.Proofs.Report.RoundTrip
import DetectorBench.Settings
import DetectorBench.SourceUnit

/-!
# Records that cross the boundary

Whoever uses a host hands it records as JSON and is handed records as JSON.
Every one of them survives its own wire form (`wire_round_trip`): the compact
text that is written for it is read as that record again, whatever strings,
lists and values it holds. Of numbers it takes that they are integers of 64
bits.

Most of the codecs are lawful. The place of a diagnostic is kept as long as its
two counts can be written at all, so for diagnostics the law is had value by
value.
-/

namespace DetectorBench

open Json Codec

/-- A record is restored from its compact text. -/
def Codec.Restores {α : Type} (c : Codec α) (x : α) : Prop :=
  Json.Restores c.read c.encode x

/-- What a codec keeps it restores, if the brackets suffice at that value. -/
theorem Codec.Keeps.restores {α : Type} {c : Codec α} {x : α}
    (keeps : c.Keeps x) {height : Nat}
    (follows : c.FollowsAt height (c.encode x)) (hn : height ≤ maxDepth) :
    c.Restores x :=
  (follows.finds hn keeps.decode_encode).restores keeps.exact

/-- A lawful codec restores every value, if the brackets suffice at all. -/
theorem Codec.Lawful.restores {α : Type} {c : Codec α} (lawful : c.Lawful)
    {height : Nat} (follows : c.Follows height) (hn : height ≤ maxDepth)
    (x : α) : c.Restores x :=
  (lawful.keeps x).restores (follows.at _) hn

/-! ## Diagnostics -/

/-- A severity may be written as an object of one key, so there is a bracket. -/
theorem Severity.codec_follows : Severity.codec.Follows 1 :=
  Choices.codec_follows _ _

theorem Severity.codec_lawful : Severity.codec.Lawful := by
  refine Choices.codec_lawful ?_
  intro severity
  cases severity <;> rfl

/-- A count of 64 bits is kept. -/
theorem Codec.count_keeps {n : Nat} (hn : n ≤ maxUnsigned) : count.Keeps n where
  exact := ⟨n, rfl, by omega, by omega⟩
  decode_encode := rfl

/-- Only a count of 64 bits is read as it is decoded. -/
theorem Codec.count_followsAt {n : Nat} (hn : n ≤ maxUnsigned) :
    count.FollowsAt 0 (count.encode n) := by
  intro t rest input depth value hr hi _
  refine Or.inl ⟨n, rfl, ?_⟩
  cases value with
  | number _ integer =>
    have htext : t = symbols (Text.digits n) := (integer n rfl).2
    have hread := readNumber_digits false hn hr
    obtain ⟨s, u, hs, hdigit⟩ := (wholePart_digits n).starts
    rw [htext, hs, List.cons_append] at hi
    rw [hs, List.cons_append] at hread
    unfold count
    simp only [hi]
    -- a digit is no sign
    split
    next heq => cases heq
    next heq => cases heq; exact absurd hdigit (by decide)
    next heq =>
      cases heq
      rw [if_pos hdigit, hread]
      rfl

/-- Line and column are counts of 64 bits. -/
def Location.InRange (l : Location) : Prop :=
  l.line ≤ maxUnsigned ∧ l.column ≤ maxUnsigned

/-- A place that is in range is kept. -/
theorem Location.codec_keeps {l : Location} (h : l.InRange) :
    Location.codec.Keeps l := by
  refine Keeps.map (Record.codec_keeps ?_ (by decide)) rfl
  exact ⟨Field.required_keeps _ (count_keeps h.1),
    Field.required_keeps _ (count_keeps h.2), trivial⟩

/-- A place that is in range is read as it is decoded. -/
theorem Location.codec_followsAt {l : Location} (h : l.InRange) :
    Location.codec.FollowsAt 1 (Location.codec.encode l) := by
  refine FollowsAt.map (Record.codec_followsAt_encode (l.line, l.column, ()) ?_
    (by decide)) _ _
  exact ⟨count_followsAt h.1, count_followsAt h.2, trivial⟩

namespace Diagnostic

/-- The place of a diagnostic, if it has one, is in range. -/
def InRange (d : Diagnostic) : Prop :=
  ∀ l, d.location = some l → l.InRange

/-- A diagnostic is kept if its place is. -/
theorem codec_keeps {d : Diagnostic} (h : d.InRange) : codec.Keeps d := by
  have hnull : ∀ l, Location.codec.encode l ≠ .null := fun _ => nofun
  have hlocation : Location.codec.optional.Keeps d.location :=
    Keeps.optional hnull fun l hl => Location.codec_keeps (h l hl)
  refine Keeps.map (Record.codec_keeps ?_ (by decide)) rfl
  exact ⟨Field.required_keeps _ (Severity.codec_lawful.keeps _),
    Field.required_keeps _ (text_lawful.keeps _), Field.maybe_keeps _ hlocation,
    trivial⟩

/-- A diagnostic is read as it is decoded: a place is one bracket more. -/
theorem codec_followsAt {d : Diagnostic} (h : d.InRange) :
    codec.FollowsAt 2 (codec.encode d) := by
  have hlocation : Location.codec.optional.FollowsAt 1
      (Location.codec.optional.encode d.location) := by
    refine optional_followsAt fun hne => ?_
    cases hl : d.location with
    | none =>
      rw [hl] at hne
      exact absurd rfl hne
    | some l => exact Location.codec_followsAt (h l hl)
  refine FollowsAt.map
    (Record.codec_followsAt_encode (d.severity, d.message, d.location, ()) ?_
      (by decide)) _ _
  exact ⟨Severity.codec_follows.at _, text_follows.at _, hlocation, trivial⟩

end Diagnostic

/-! ## The other records -/

/-- The name of a kind is the kind again. -/
theorem UnitKind.codec_lawful : UnitKind.codec.Lawful := by
  refine Choices.codec_lawful ?_
  intro kind
  cases kind <;> rfl

/-- The kind of a unit is one bracket more. -/
theorem SourceUnit.codec_follows : SourceUnit.codec.Follows 2 := by
  have hlocation :=
    optional_follows ((textAs_follows "path string").mono (Nat.zero_le 1))
  refine Follows.map (Record.codec_follows ?_) _ _
  exact ⟨text_follows, hlocation, Choices.codec_follows _ _, trivial⟩

theorem SourceUnit.codec_lawful : SourceUnit.codec.Lawful := by
  refine Lawful.map (Record.codec_lawful ?_ (by decide)) fun _ => rfl
  exact ⟨Field.required_lawful _ text_lawful,
    Field.maybe_lawful _ (textAs_lawful "path string") fun _ => nofun,
    Field.withDefault_lawful _ UnitKind.codec_lawful _, trivial⟩

/-- An artifact is a flat record. -/
theorem Artifact.codec_follows : Artifact.codec.Follows 1 := by
  refine Follows.map (Record.codec_follows ?_) _ _
  exact ⟨text_follows, text_follows, trivial⟩

theorem Artifact.codec_lawful : Artifact.codec.Lawful := by
  refine Lawful.map (Record.codec_lawful ?_ (by decide)) fun _ => rfl
  exact ⟨Field.required_lawful _ text_lawful,
    Field.required_lawful _ text_lawful, trivial⟩

/-- Settings are a flat record. -/
theorem Settings.codec_follows : Settings.codec.Follows 1 := by
  refine Follows.map (Record.codec_follows ?_) _ _
  exact ⟨text_follows, text_follows, flag_follows, trivial⟩

theorem Settings.codec_lawful : Settings.codec.Lawful := by
  refine Lawful.map (Record.codec_lawful ?_ (by decide)) fun _ => rfl
  exact ⟨Field.withDefault_lawful _ text_lawful _,
    Field.withDefault_lawful _ text_lawful _,
    Field.withDefault_lawful _ flag_lawful _, trivial⟩

/-- Rules are a flat record. -/
theorem Rules.codec_follows : Rules.codec.Follows 1 := by
  refine Follows.map (Record.codec_follows ?_) _ _
  exact ⟨text_follows, flag_follows, trivial⟩

theorem Rules.codec_lawful : Rules.codec.Lawful := by
  refine Lawful.map (Record.codec_lawful ?_ (by decide)) fun _ => rfl
  exact ⟨Field.required_lawful _ text_lawful,
    Field.required_lawful _ flag_lawful, trivial⟩

/-- A signature is a flat record. -/
theorem Signature.codec_follows : Signature.codec.Follows 1 := by
  refine Follows.map (Record.codec_follows ?_) _ _
  exact ⟨text_follows, trivial⟩

/-- A signature is the name it is written with. -/
theorem Signature.codec_lawful : Signature.codec.Lawful := by
  refine Lawful.map (Record.codec_lawful ?_ (by decide)) fun _ => rfl
  exact ⟨Field.required_lawful _ text_lawful, trivial⟩

/-! ## Variants -/

/-- **Attributes are restored**, each as an attribute of its kind. -/
theorem Attribute.restores (a : Attribute) :
    Json.Restores Attribute.read Attribute.encode a :=
  (read_finds (by decide) a).restores a.encode_exact

/-- An output is restored if the value in it is portable. -/
theorem Output.restores {o : Output} (portable : o.Portable) :
    Json.Restores Output.read Output.encode o :=
  (read_finds portable).restores (encode_exact portable)

/-- Two values that are restored from one text are one value. -/
theorem Json.Restores.unique {α : Type} {read : Nat → Reader α}
    {encode : α → Json} {x y : α} (hx : Json.Restores read encode x)
    (hy : Json.Restores read encode y)
    (h : (encode x).compact = (encode y).compact) : x = y := by
  unfold Json.Restores at hx hy
  rw [h, hy] at hx
  exact (Except.ok.inj hx).symm

/-! ## The boundary -/

/-- **Every record survives its own wire form.** What is written for it, in the
compact layout, is read as the same record; so no variant is ever taken for
another one, and a value that is `null` is told from no value. -/
theorem wire_round_trip :
    (∀ d : Diagnostic, d.InRange → Diagnostic.codec.Restores d) ∧
      (∀ u : SourceUnit, SourceUnit.codec.Restores u) ∧
      (∀ d : Definition, Definition.codec.Restores d) ∧
      (∀ t : SupportTopic, SupportTopic.codec.Restores t) ∧
      (∀ f : ResourceFilter, ResourceFilter.codec.Restores f) ∧
      (∀ f : SystemFilter, SystemFilter.codec.Restores f) ∧
      (∀ m : Metadata, Metadata.codec.Restores m) ∧
      (∀ a : Artifact, Artifact.codec.Restores a) ∧
      (∀ s : Settings, Settings.codec.Restores s) ∧
      (∀ r : Rules, Rules.codec.Restores r) ∧
      (∀ s : Signature, Signature.codec.Restores s) ∧
      (∀ a : Attribute, Json.Restores Attribute.read Attribute.encode a) ∧
      (∀ o : Output, o.Portable → Json.Restores Output.read Output.encode o) ∧
      (∀ a b : Attribute, a.kind ≠ b.kind → a.encode.compact ≠ b.encode.compact) ∧
      ∀ v, (Output.value v).Portable →
        (Output.value v).encode.compact ≠ Output.noValue.encode.compact := by
  refine ⟨fun d h => (Diagnostic.codec_keeps h).restores
    (Diagnostic.codec_followsAt h) (by decide),
    SourceUnit.codec_lawful.restores SourceUnit.codec_follows (by decide),
    Definition.codec_lawful.restores Definition.codec_follows (by decide),
    SupportTopic.codec_lawful.restores SupportTopic.codec_follows (by decide),
    ResourceFilter.codec_lawful.restores ResourceFilter.codec_follows (by decide),
    SystemFilter.codec_lawful.restores SystemFilter.codec_follows (by decide),
    Metadata.codec_lawful.restores Metadata.codec_follows (by decide),
    Artifact.codec_lawful.restores Artifact.codec_follows (by decide),
    Settings.codec_lawful.restores Settings.codec_follows (by decide),
    Rules.codec_lawful.restores Rules.codec_follows (by decide),
    Signature.codec_lawful.restores Signature.codec_follows (by decide),
    Attribute.restores, fun o => Output.restores, ?_, ?_⟩
  · intro a b hkind heq
    exact hkind (congrArg Attribute.kind (a.restores.unique b.restores heq))
  · intro v portable heq
    have houtput :=
      (Output.restores portable).unique (Output.restores (o := .noValue) trivial) heq
    cases houtput

/-- A place at the end of the range, and the least integer inside an object
under two keys. -/
theorem wire_round_trip_extremes :
    Diagnostic.codec.Restores ⟨.warning, "a \"b\"\n",
      some ⟨1, 18446744073709551615⟩⟩ ∧
      Json.Restores Output.read Output.encode
        (.value (.object [("a", .null),
          ("b", .array [.number (.int (-9223372036854775808))])])) ∧
      (Output.value .null).encode.compact ≠ Output.noValue.encode.compact := by
  obtain ⟨hdiagnostic, -, -, -, -, -, -, -, -, -, -, -, houtput, -, hnull⟩ :=
    wire_round_trip
  refine ⟨hdiagnostic _ ?_, houtput _ ⟨?_, ?_, ?_⟩,
    hnull .null ⟨trivial, trivial, ?_⟩⟩
  · rintro _ ⟨⟩
    exact ⟨by decide, by decide⟩
  · exact ⟨trivial, ⟨⟨_, rfl, by decide, by decide⟩, trivial⟩, trivial⟩
  · refine ⟨?_, trivial, ⟨trivial, trivial⟩, trivial⟩
    exact List.pairwise_pair.mpr (by decide)
  · decide
  · decide

end DetectorBench
