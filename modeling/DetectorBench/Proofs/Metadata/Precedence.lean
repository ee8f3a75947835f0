import DetectorBench.Proofs.Metadata.Validation

/-!
# Which rule is reported

The rules stand in an order, and a violation is reported only where every rule
before it is obeyed. `Metadata.FirstViolation` says so rule by rule, with the
place at which a rule is broken first: the first refused character of a text,
the least index of an incomplete support topic. Validation reports exactly that
violation (`validate_eq_error_iff`), so it reports no other, and is silent where
there is none.

More reserved characters may change which rule is reported, but they let nothing
pass that was refused before: soundness under the longer list implies soundness
under the shorter one (`Definition.Sound.of_reserves`).
-/

namespace DetectorBench

/-! ## Texts -/

/-- A text is blank if it has no content. -/
theorem Text.isBlank_iff {s : String} :
    Text.isBlank s = true ↔ ¬Text.HasContent s := by
  rw [← Text.isBlank_eq_false_iff, Bool.not_eq_false]

/-- A character of a text is refused, and none before it is. -/
def Rules.FirstRefused (rules : Rules) (s : String) (c : Char) : Prop :=
  ∃ before after, s.toList = before ++ c :: after ∧
    (Text.isControl c = true ∨ c ∈ rules.reserved.toList) ∧
    ∀ other ∈ before, Text.isControl other = false ∧ other ∉ rules.reserved.toList

/-- Rules refuse control characters and those they reserve. -/
theorem Rules.refuses_iff {rules : Rules} {c : Char} :
    rules.refuses c = true ↔ Text.isControl c = true ∨
      c ∈ rules.reserved.toList := by
  unfold Rules.refuses
  rw [Bool.or_eq_true, List.contains_iff_mem]

/-- The character that is reported is the first that is refused. -/
theorem Rules.refused?_eq_some_iff {rules : Rules} {s : String} {c : Char} :
    rules.refused? s = some c ↔ rules.FirstRefused s c := by
  have hbefore : ∀ other, (!rules.refuses other) = true ↔
      Text.isControl other = false ∧ other ∉ rules.reserved.toList := by
    intro other
    rw [Bool.not_eq_true', Bool.eq_false_iff, Ne, Rules.refuses_iff, not_or,
      Bool.not_eq_true]
  unfold Rules.refused? Rules.FirstRefused
  rw [List.find?_eq_some_iff_append, Rules.refuses_iff]
  constructor
  · rintro ⟨hc, before, after, hs, hnone⟩
    exact ⟨before, after, hs, hc, fun other hother => (hbefore other).mp
      (hnone other hother)⟩
  · rintro ⟨before, after, hs, hc, hnone⟩
    exact ⟨hc, before, after, hs, fun other hother => (hbefore other).mpr
      (hnone other hother)⟩

/-! ## Definitions -/

/-- A support topic stands at an index that lacks an id, and all those before it
are complete. -/
def FirstIncomplete (topics : List SupportTopic) (index : Nat) : Prop :=
  (∃ t, topics[index]? = some t ∧ ¬t.Complete) ∧
    ∀ i < index, ∀ t, topics[i]? = some t → t.Complete

/-- The support topic that is reported is the first that is incomplete. -/
theorem findIdx?_isIncomplete_iff {topics : List SupportTopic} {index : Nat} :
    topics.findIdx? SupportTopic.isIncomplete = some index ↔
      FirstIncomplete topics index := by
  have hcomplete : ∀ t : SupportTopic, ¬t.isIncomplete = true ↔ t.Complete := by
    intro t
    rw [Bool.not_eq_true, SupportTopic.isIncomplete_eq_false_iff]
  have hincomplete : ∀ t : SupportTopic, t.isIncomplete = true ↔ ¬t.Complete := by
    intro t
    rw [← SupportTopic.isIncomplete_eq_false_iff, Bool.not_eq_false]
  rw [List.findIdx?_eq_some_iff_getElem]
  constructor
  · rintro ⟨hindex, hfound, hnone⟩
    refine ⟨⟨topics[index], List.getElem?_eq_getElem hindex,
      (hincomplete _).mp hfound⟩, ?_⟩
    intro i hi t ht
    obtain ⟨_, rfl⟩ := List.getElem?_eq_some_iff.mp ht
    exact (hcomplete _).mp (hnone i hi)
  · rintro ⟨⟨t, ht, hfound⟩, hnone⟩
    obtain ⟨hindex, rfl⟩ := List.getElem?_eq_some_iff.mp ht
    refine ⟨hindex, (hincomplete _).mpr hfound, ?_⟩
    intro i hi
    exact (hcomplete _).mpr (hnone i hi _ (List.getElem?_eq_getElem _))

/-- The text of a field that has to be usable as a file name. -/
def NameField.text (d : Definition) : NameField → String
  | id => d.id
  | author => d.author

/-- The id, the name and the author of a definition all say something. -/
structure Definition.Filled (d : Definition) : Prop where
  id : Text.HasContent d.id
  name : Text.HasContent d.name
  author : Text.HasContent d.author

/-- The rule that a definition violates, every rule before it being obeyed. -/
inductive Definition.FirstViolation (d : Definition) (rules : Rules) :
    Violation → Prop where
  | emptyId (id : ¬Text.HasContent d.id) : FirstViolation d rules .emptyId
  | emptyName (id : Text.HasContent d.id) (name : ¬Text.HasContent d.name) :
    FirstViolation d rules .emptyName
  | emptyAuthor (id : Text.HasContent d.id) (name : Text.HasContent d.name)
    (author : ¬Text.HasContent d.author) : FirstViolation d rules .emptyAuthor
  /-- The author is looked at once there is nothing to say against the id. -/
  | reservedCharacter {field : NameField} {c : Char} (filled : d.Filled)
    (id : field = .author → rules.Spares d.id)
    (first : rules.FirstRefused (field.text d) c) :
    FirstViolation d rules (.reservedCharacter field (field.text d) c)
  | incompleteTopic {index : Nat} (filled : d.Filled) (id : rules.Spares d.id)
    (author : rules.Spares d.author)
    (first : FirstIncomplete d.supportTopics index) :
    FirstViolation d rules (.incompleteTopic index)

/-- What the check of a definition reports is violated, and no rule before it
is. -/
theorem Definition.firstViolation_of_check {d : Definition} {rules : Rules}
    {v : Violation} (h : d.check rules = .error v) :
    d.FirstViolation rules v := by
  unfold Definition.check at h
  -- the tests that were passed are the rules before the one that is reported
  split at h
  next hid =>
    cases h
    exact .emptyId (Text.isBlank_iff.mp hid)
  next hid =>
  have hid := Text.isBlank_eq_false_iff.mp (Bool.eq_false_iff.mpr hid)
  split at h
  next hname =>
    cases h
    exact .emptyName hid (Text.isBlank_iff.mp hname)
  next hname =>
  have hname := Text.isBlank_eq_false_iff.mp (Bool.eq_false_iff.mpr hname)
  split at h
  next hauthor =>
    cases h
    exact .emptyAuthor hid hname (Text.isBlank_iff.mp hauthor)
  next hauthor =>
  have filled : d.Filled :=
    ⟨hid, hname, Text.isBlank_eq_false_iff.mp (Bool.eq_false_iff.mpr hauthor)⟩
  split at h
  next c hfirst =>
    cases h
    have hid : rules.FirstRefused (NameField.id.text d) c :=
      Rules.refused?_eq_some_iff.mp hfirst
    have hne : NameField.id ≠ .author := by decide
    exact .reservedCharacter filled (fun h => absurd h hne) hid
  next hspared =>
  have hspared := Rules.refused?_eq_none_iff.mp hspared
  split at h
  next c hfirst =>
    cases h
    have hauthor : rules.FirstRefused (NameField.author.text d) c :=
      Rules.refused?_eq_some_iff.mp hfirst
    exact .reservedCharacter filled (fun _ => hspared) hauthor
  next hauthor =>
  split at h
  next index hfirst =>
    cases h
    exact .incompleteTopic filled hspared (Rules.refused?_eq_none_iff.mp hauthor)
      (findIdx?_isIncomplete_iff.mp hfirst)
  next => cases h

/-- **The first violation is what is reported.** -/
theorem Definition.check_of_firstViolation {d : Definition} {rules : Rules}
    {v : Violation} (h : d.FirstViolation rules v) :
    d.check rules = .error v := by
  unfold Definition.check
  cases h with
  | emptyId id => rw [if_pos (Text.isBlank_iff.mpr id)]
  | emptyName id name =>
    rw [Text.isBlank_eq_false_iff.mpr id, Text.isBlank_iff.mpr name]
    rfl
  | emptyAuthor id name author =>
    rw [Text.isBlank_eq_false_iff.mpr id, Text.isBlank_eq_false_iff.mpr name,
      Text.isBlank_iff.mpr author]
    rfl
  | @reservedCharacter field c filled id first =>
    rw [Text.isBlank_eq_false_iff.mpr filled.id,
      Text.isBlank_eq_false_iff.mpr filled.name,
      Text.isBlank_eq_false_iff.mpr filled.author]
    cases field with
    | id =>
      have hid : rules.refused? d.id = some c := Rules.refused?_eq_some_iff.mpr first
      rw [hid]
      rfl
    | author =>
      have hauthor : rules.refused? d.author = some c :=
        Rules.refused?_eq_some_iff.mpr first
      rw [Rules.refused?_eq_none_iff.mpr (id rfl), hauthor]
      rfl
  | incompleteTopic filled id author first =>
    rw [Text.isBlank_eq_false_iff.mpr filled.id,
      Text.isBlank_eq_false_iff.mpr filled.name,
      Text.isBlank_eq_false_iff.mpr filled.author, Rules.refused?_eq_none_iff.mpr id,
      Rules.refused?_eq_none_iff.mpr author, findIdx?_isIncomplete_iff.mpr first]
    rfl

/-- **The check of a definition** reports the first rule that is violated. -/
theorem Definition.check_eq_error_iff {d : Definition} {rules : Rules}
    {v : Violation} :
    d.check rules = .error v ↔ d.FirstViolation rules v :=
  ⟨firstViolation_of_check, check_of_firstViolation⟩

/-- Whoever obeys the rules with more reserved characters obeys them with
fewer. -/
theorem Definition.Sound.of_reserves {d : Definition} {rules rules' : Rules}
    (h : d.Sound rules')
    (more : ∀ c ∈ rules.reserved.toList, c ∈ rules'.reserved.toList) :
    d.Sound rules := by
  have hspares : ∀ {s : String}, rules'.Spares s → rules.Spares s := by
    intro s hs c hc
    exact ⟨(hs c hc).1, fun hmem => (hs c hc).2 (more c hmem)⟩
  exact { h with
    id_usable := hspares h.id_usable
    author_usable := hspares h.author_usable }

/-! ## Metadata -/

namespace Metadata

/-- The rule that metadata violates, every rule before it being obeyed. Without
a definition there are no rules. -/
inductive FirstViolation (m : Metadata) (rules : Rules) : Violation → Prop where
  | definition {d : Definition} {v : Violation}
    (declared : m.definition = some d) (first : d.FirstViolation rules v) :
    FirstViolation m rules v
  | conflictingFilters {d : Definition} (declared : m.definition = some d)
    (sound : d.Sound rules) (resource : m.resourceFilter ≠ none)
    (system : m.systemFilter ≠ none) :
    FirstViolation m rules .conflictingFilters

/-- Validation reports the first rule that is violated. -/
theorem validate_eq_error_iff {m : Metadata} {rules : Rules} {v : Violation} :
    m.validate rules = .error v ↔ m.FirstViolation rules v := by
  unfold validate
  cases hd : m.definition with
  | none =>
    refine ⟨nofun, fun h => ?_⟩
    cases h with
    | definition declared _ => exact nomatch hd.symm.trans declared
    | conflictingFilters declared _ _ _ => exact nomatch hd.symm.trans declared
  | some d =>
    dsimp only
    constructor
    · intro h
      cases hcheck : d.check rules with
      | error v' =>
        rw [hcheck] at h
        cases h
        exact .definition hd (Definition.check_eq_error_iff.mp hcheck)
      | ok _ =>
        rw [hcheck] at h
        dsimp only at h
        split at h
        next hboth =>
          cases h
          rw [Bool.and_eq_true, Option.isSome_iff_ne_none,
            Option.isSome_iff_ne_none] at hboth
          exact .conflictingFilters hd (Definition.check_eq_ok_iff.mp hcheck)
            hboth.1 hboth.2
        next => cases h
    · intro h
      cases h with
      | definition declared first =>
        cases hd.symm.trans declared
        rw [Definition.check_eq_error_iff.mpr first]
      | conflictingFilters declared sound resource system =>
        cases hd.symm.trans declared
        rw [Definition.check_eq_ok_iff.mpr sound,
          Option.isSome_iff_ne_none.mpr resource,
          Option.isSome_iff_ne_none.mpr system]
        rfl

/-- Metadata is sound if there is no rule to report. -/
theorem sound_iff {m : Metadata} {rules : Rules} :
    m.Sound rules ↔ ∀ v, ¬m.FirstViolation rules v := by
  constructor
  · intro h v hv
    have hok := validate_eq_ok_iff.mpr ⟨h, rfl⟩
    rw [validate_eq_error_iff.mpr hv] at hok
    cases hok
  · intro h
    cases hvalidate : m.validate rules with
    | ok verdict => exact (validate_eq_ok_iff.mp hvalidate).1
    | error v => exact absurd (validate_eq_error_iff.mp hvalidate) (h v)

/-- There is one warning at most, and what it takes. -/
theorem warnings_eq_iff {m : Metadata} {rules : Rules} {lines : List String} :
    lines = m.warnings rules ↔
      rules.warnInternalTopics = true ∧ m.Exposes ∧ lines = [internalTopicsWarning] ∨
        ¬(rules.warnInternalTopics = true ∧ m.Exposes) ∧ lines = [] := by
  unfold warnings
  by_cases h : rules.warnInternalTopics = true ∧ m.Exposes
  · rw [if_pos (by rw [Bool.and_eq_true, exposesInternal_iff]; exact h)]
    exact ⟨fun heq => Or.inl ⟨h.1, h.2, heq⟩, fun hcases =>
      hcases.elim (fun hwarned => hwarned.2.2) fun hsilent => absurd h hsilent.1⟩
  · rw [if_neg (by rw [Bool.and_eq_true, exposesInternal_iff]; exact h)]
    exact ⟨fun heq => Or.inr ⟨h, heq⟩, fun hcases =>
      hcases.elim (fun hwarned => absurd ⟨hwarned.1, hwarned.2.1⟩ h)
        fun hsilent => hsilent.2⟩

/-- Without a definition there is nothing to violate. -/
theorem validate_of_undeclared {m : Metadata} (h : m.definition = none)
    (rules : Rules) :
    m.validate rules = .ok ⟨false, []⟩ := by
  unfold validate
  rw [h]

/-- Metadata with a definition passes if there is no rule to report. -/
theorem validate_eq_ok_of_declared {m : Metadata} {rules : Rules}
    (h : m.definition ≠ none) {verdict : Verdict} :
    m.validate rules = .ok verdict ↔
      (∀ v, ¬m.FirstViolation rules v) ∧ verdict.ran = true ∧
        verdict.warnings = m.warnings rules := by
  obtain ⟨d, hd⟩ := Option.ne_none_iff_exists'.mp h
  rw [validate_eq_ok_iff, sound_iff, hd]
  apply and_congr_right
  intro _
  cases verdict
  exact Verdict.mk.injEq .. ▸ Iff.rfl

/-- What is sound by some rules is sound by rules that reserve less. -/
theorem Sound.of_reserves {m : Metadata} {rules rules' : Rules}
    (h : m.Sound rules')
    (more : ∀ c ∈ rules.reserved.toList, c ∈ rules'.reserved.toList) :
    m.Sound rules := by
  intro d hd
  exact ⟨(h d hd).1.of_reserves more, (h d hd).2⟩

/-- **Validation** skips metadata without a definition; of any other it reports
the first rule that is violated, and where there is none it says so, with the
warning if that is wanted and due. Under more reserved characters it lets
nothing pass that it refused before. -/
theorem validate_reports_first (m : Metadata) (rules : Rules) :
    (m.validate rules = .ok ⟨false, []⟩ ↔ m.definition = none) ∧
      (∀ v, m.validate rules = .error v ↔ m.FirstViolation rules v) ∧
      (∀ verdict, m.validate rules = .ok verdict ↔
        m.definition = none ∧ verdict = ⟨false, []⟩ ∨
          m.definition ≠ none ∧ (∀ v, ¬m.FirstViolation rules v) ∧
            verdict.ran = true ∧
            (rules.warnInternalTopics = true ∧ m.Exposes ∧
                verdict.warnings = [internalTopicsWarning] ∨
              ¬(rules.warnInternalTopics = true ∧ m.Exposes) ∧
                verdict.warnings = [])) ∧
      ∀ rules' : Rules, (∀ c ∈ rules.reserved.toList, c ∈ rules'.reserved.toList) →
        (∃ v, m.validate rules = .error v) → ∃ v, m.validate rules' = .error v := by
  refine ⟨?_, fun v => validate_eq_error_iff, ?_, ?_⟩
  · constructor
    · intro h
      have hran : false = m.definition.isSome :=
        congrArg Verdict.ran (validate_eq_ok_iff.mp h).2
      exact Option.isNone_iff_eq_none.mp (Option.isSome_eq_false_iff.mp hran.symm)
    · exact fun h => validate_of_undeclared h rules
  · intro verdict
    by_cases hd : m.definition = none
    · rw [validate_of_undeclared hd]
      constructor
      · intro h
        cases h
        exact Or.inl ⟨hd, rfl⟩
      · rintro (⟨-, rfl⟩ | ⟨hdeclared, -⟩)
        · rfl
        · exact absurd hd hdeclared
    · rw [validate_eq_ok_of_declared hd, warnings_eq_iff]
      exact ⟨fun h => Or.inr ⟨hd, h⟩,
        fun h => (h.resolve_left fun hnone => hd hnone.1).2⟩
  · rintro rules' more ⟨v, hv⟩
    cases hvalidate : m.validate rules' with
    | error v' => exact ⟨v', rfl⟩
    | ok verdict =>
      have sound := (validate_eq_ok_iff.mp hvalidate).1.of_reserves more
      exact absurd (validate_eq_error_iff.mp hv) (sound_iff.mp sound v)

/-- A control character in the author is refused without any reserved character,
and the slash in the id once it is reserved. -/
theorem validate_reports_first_slash :
    let m : Metadata := ⟨some (.named "a/b" "n" "ops\x07"), none, none⟩
    m.FirstViolation ⟨"", true⟩ (.reservedCharacter .author "ops\x07" '\x07') ∧
      m.FirstViolation ⟨"/", true⟩ (.reservedCharacter .id "a/b" '/') ∧
        ∃ v, m.validate ⟨"/", true⟩ = .error v := by
  intro m
  obtain ⟨-, hnone, -, hmore⟩ := validate_reports_first m ⟨"", true⟩
  have hauthor := hnone (.reservedCharacter .author "ops\x07" '\x07')
  have hid :=
    (validate_reports_first m ⟨"/", true⟩).2.1 (.reservedCharacter .id "a/b" '/')
  exact ⟨hauthor.mp rfl, hid.mp rfl, hmore ⟨"/", true⟩ nofun ⟨_, rfl⟩⟩

end Metadata

end DetectorBench
