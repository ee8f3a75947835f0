import DetectorBench.Validation

/-!
# What validation lets pass

The rules are checked one after the other and the first one violated ends the
check, so a definition passes exactly if it obeys all of them at once.
`Definition.Sound` states them as properties of the texts, with no blank test
and no search in them; `Definition.check_eq_ok_iff` says that the check comes to
that, and `Metadata.validate_eq_ok_iff` adds the rule about the two filters and
the warning.
-/

namespace DetectorBench

/-! ## Texts -/

/-- There is something in a text besides blanks. -/
def Text.HasContent (s : String) : Prop :=
  ∃ c ∈ s.toList, Text.isBlankChar c = false

theorem Text.isBlank_eq_false_iff {s : String} :
    Text.isBlank s = false ↔ Text.HasContent s := by
  unfold Text.isBlank Text.HasContent
  rw [List.all_eq_false]
  constructor
  · rintro ⟨c, hc, hblank⟩
    exact ⟨c, hc, Bool.eq_false_iff.mpr hblank⟩
  · rintro ⟨c, hc, hblank⟩
    exact ⟨c, hc, Bool.eq_false_iff.mp hblank⟩

/-- A text holds no control character and none of the reserved characters. -/
def Rules.Spares (rules : Rules) (s : String) : Prop :=
  ∀ c ∈ s.toList, Text.isControl c = false ∧ c ∉ rules.reserved.toList

theorem Rules.refused?_eq_none_iff {rules : Rules} {s : String} :
    rules.refused? s = none ↔ rules.Spares s := by
  unfold Rules.refused? Rules.Spares
  rw [List.find?_eq_none]
  apply forall_congr'
  intro c
  apply imp_congr_right
  intro _
  unfold Rules.refuses
  rw [Bool.not_eq_true, Bool.or_eq_false_iff, List.contains_eq_mem,
    decide_eq_false_iff_not]

/-! ## Definitions -/

/-- Both ids of a support topic say something. -/
def SupportTopic.Complete (t : SupportTopic) : Prop :=
  Text.HasContent t.id ∧ Text.HasContent t.pesId

theorem SupportTopic.isIncomplete_eq_false_iff {t : SupportTopic} :
    t.isIncomplete = false ↔ t.Complete := by
  unfold SupportTopic.isIncomplete SupportTopic.Complete
  rw [Bool.or_eq_false_iff, Text.isBlank_eq_false_iff, Text.isBlank_eq_false_iff]

/-- A definition obeys every rule that concerns it alone. -/
structure Definition.Sound (d : Definition) (rules : Rules) : Prop where
  id : Text.HasContent d.id
  name : Text.HasContent d.name
  author : Text.HasContent d.author
  id_usable : rules.Spares d.id
  author_usable : rules.Spares d.author
  topics : ∀ t ∈ d.supportTopics, t.Complete

theorem Definition.topics_complete_iff {d : Definition} :
    d.supportTopics.findIdx? SupportTopic.isIncomplete = none ↔
      ∀ t ∈ d.supportTopics, t.Complete := by
  rw [List.findIdx?_eq_none_iff]
  apply forall_congr'
  intro t
  apply imp_congr_right
  intro _
  exact SupportTopic.isIncomplete_eq_false_iff

/-- **The check of a definition** passes exactly the sound ones. -/
theorem Definition.check_eq_ok_iff {d : Definition} {rules : Rules} :
    d.check rules = .ok () ↔ d.Sound rules := by
  unfold Definition.check
  constructor
  · -- each test that was passed gives one property
    intro h
    split at h
    next => cases h
    next hid =>
    split at h
    next => cases h
    next hname =>
    split at h
    next => cases h
    next hauthor =>
    split at h
    next => cases h
    next hidChars =>
    split at h
    next => cases h
    next hauthorChars =>
    split at h
    next => cases h
    next htopics =>
    exact
      { id := Text.isBlank_eq_false_iff.mp (Bool.eq_false_iff.mpr hid)
        name := Text.isBlank_eq_false_iff.mp (Bool.eq_false_iff.mpr hname)
        author := Text.isBlank_eq_false_iff.mp (Bool.eq_false_iff.mpr hauthor)
        id_usable := Rules.refused?_eq_none_iff.mp hidChars
        author_usable := Rules.refused?_eq_none_iff.mp hauthorChars
        topics := Definition.topics_complete_iff.mp htopics }
  · intro h
    rw [Text.isBlank_eq_false_iff.mpr h.id, Text.isBlank_eq_false_iff.mpr h.name,
      Text.isBlank_eq_false_iff.mpr h.author,
      Rules.refused?_eq_none_iff.mpr h.id_usable,
      Rules.refused?_eq_none_iff.mpr h.author_usable,
      Definition.topics_complete_iff.mpr h.topics]
    rfl

/-! ## Metadata -/

namespace Metadata

/-- A detector for internal operators that lists support topics all the same. -/
def Exposes (m : Metadata) : Prop :=
  ∃ d f, m.definition = some d ∧ d.supportTopics ≠ [] ∧ m.resourceFilter = some f ∧
    f.internalOnly = true

theorem exposesInternal_iff {m : Metadata} :
    m.exposesInternal = true ↔ m.Exposes := by
  unfold exposesInternal hasSupportTopics Exposes
  rw [Bool.and_eq_true, Option.any_eq_true, Option.any_eq_true]
  constructor
  · rintro ⟨⟨d, hd, htopics⟩, f, hf, hinternal⟩
    refine ⟨d, f, hd, ?_, hf, hinternal⟩
    intro hempty
    rw [hempty] at htopics
    cases htopics
  · rintro ⟨d, f, hd, htopics, hf, hinternal⟩
    refine ⟨⟨d, hd, ?_⟩, f, hf, hinternal⟩
    rw [Bool.not_eq_true', List.isEmpty_eq_false_iff]
    exact htopics

/-- The definition, if there is one, is sound, and the two filters are not both
declared beside it. -/
def Sound (m : Metadata) (rules : Rules) : Prop :=
  ∀ d, m.definition = some d →
    d.Sound rules ∧ (m.resourceFilter = none ∨ m.systemFilter = none)

/-- The lines that validation adds to what a pass has to say. -/
def warnings (m : Metadata) (rules : Rules) : List String :=
  if rules.warnInternalTopics && m.exposesInternal then [internalTopicsWarning]
  else []

theorem not_both_iff {m : Metadata} :
    (m.resourceFilter.isSome && m.systemFilter.isSome) = false ↔
      m.resourceFilter = none ∨ m.systemFilter = none := by
  rw [Bool.and_eq_false_iff, Option.isSome_eq_false_iff, Option.isSome_eq_false_iff,
    Option.isNone_iff_eq_none, Option.isNone_iff_eq_none]

/-- **Validation** lets sound metadata pass and nothing else; what it has to say
then is the warning or nothing. -/
theorem validate_eq_ok_iff {m : Metadata} {rules : Rules} {verdict : Verdict} :
    m.validate rules = .ok verdict ↔
      m.Sound rules ∧ verdict = ⟨m.definition.isSome, m.warnings rules⟩ := by
  unfold validate Sound
  cases hd : m.definition with
  | none =>
    -- without a definition there are no topics to warn of
    have hwarnings : m.warnings rules = [] := by
      unfold warnings exposesInternal hasSupportTopics
      rw [hd, Option.any_none, Bool.false_and, Bool.and_false]
      rfl
    rw [hwarnings]
    constructor
    · intro h
      cases h
      exact ⟨nofun, rfl⟩
    · rintro ⟨-, rfl⟩
      rfl
  | some d =>
    have hsound : (∀ d', some d = some d' →
        d'.Sound rules ∧ (m.resourceFilter = none ∨ m.systemFilter = none)) ↔
        d.check rules = .ok () ∧
        (m.resourceFilter.isSome && m.systemFilter.isSome) = false := by
      rw [Definition.check_eq_ok_iff, not_both_iff]
      constructor
      · intro h
        exact h d rfl
      · rintro h _ ⟨⟩
        exact h
    rw [hsound]
    dsimp only
    cases d.check rules with
    | error v => exact ⟨nofun, fun h => nomatch h.1.1⟩
    | ok _ =>
      cases m.resourceFilter.isSome && m.systemFilter.isSome with
      | true => exact ⟨nofun, fun h => nomatch h.1.2⟩
      | false =>
        constructor
        · intro h
          cases h
          exact ⟨⟨rfl, rfl⟩, rfl⟩
        · rintro ⟨-, rfl⟩
          rfl

end Metadata

end DetectorBench
