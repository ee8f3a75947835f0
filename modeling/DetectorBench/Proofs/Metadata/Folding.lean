import DetectorBench.EntryPoint
import Mathlib.Data.List.Induction

/-!
# What attributes fold to

The fold keeps one attribute of each kind but the support topics, and stops at
the first whose kind it has already (`gather_cons`). The metadata that it has
collected is therefore described by its slots, one for each kind: what it
collected from some attributes are the attributes of that kind among them
(`Collects`), which adding an attribute of a new kind preserves. So the fold
goes through exactly when no kind is repeated, and the metadata it returns
(`Declares`) is stated by membership and by the order of the support topics
alone. Nothing else of the order of the attributes matters.
-/

namespace DetectorBench

namespace Attribute

/-- The support topic that an attribute declares, if it declares one. -/
def topic? : Attribute → Option SupportTopic
  | supportTopic t => some t
  | _ => none

/-- The support topics among attributes, in their order. -/
def topics (attributes : List Attribute) : List SupportTopic :=
  attributes.filterMap topic?

/-- One attribute more adds its support topic, if it is one. -/
theorem topics_concat (attributes : List Attribute) (a : Attribute) :
    topics (attributes ++ [a]) = topics attributes ++ a.topic?.toList := by
  unfold topics
  rw [List.filterMap_append]
  cases a <;> rfl

/-! ## Repeated kinds -/

/-- No kind but the support topics is declared twice. -/
def Once (attributes : List Attribute) : Prop :=
  ∀ k ≠ Kind.supportTopic, (attributes.map kind).count k ≤ 1

/-- An attribute declares a kind that attributes before it declared, support
topics excepted. -/
def Repeats (before : List Attribute) (a : Attribute) : Prop :=
  a.kind ≠ .supportTopic ∧ a.kind ∈ before.map kind

/-- The earliest attribute that declares a kind once more is of some kind. -/
def FirstRepeat (attributes : List Attribute) (kind : Kind) : Prop :=
  ∃ before a after, attributes = before ++ a :: after ∧ a.kind = kind ∧
    Repeats before a ∧ Once before

theorem once_nil : Once [] :=
  fun _ _ => Nat.zero_le 1

/-- One attribute more repeats a kind, or the attributes before it do. -/
theorem once_concat {attributes : List Attribute} {a : Attribute} :
    Once (attributes ++ [a]) ↔ Once attributes ∧ ¬Repeats attributes a := by
  have hcount : ∀ k, ((attributes ++ [a]).map kind).count k =
      (attributes.map kind).count k + [a.kind].count k := by
    intro k
    rw [List.map_append, List.count_append]
    rfl
  have hself : [a.kind].count a.kind = 1 := List.count_singleton_self
  constructor
  · intro h
    constructor
    · intro k hk
      have hle := h k hk
      rw [hcount] at hle
      omega
    · rintro ⟨hk, hmem⟩
      have hle := h a.kind hk
      have hpos := List.count_pos_iff.mpr hmem
      rw [hcount] at hle
      omega
  · rintro ⟨h, hfresh⟩ k hk
    rw [hcount]
    by_cases ha : a.kind = k
    · subst ha
      have hnone := List.count_eq_zero.mpr fun hmem => hfresh ⟨hk, hmem⟩
      omega
    · have hother :=
        List.count_eq_zero.mpr fun hmem => ha (List.mem_singleton.mp hmem).symm
      have hle := h k hk
      omega

/-- Attributes that repeat a kind have an earliest one that does. -/
theorem once_or_firstRepeat (attributes : List Attribute) :
    Once attributes ∨ ∃ kind, FirstRepeat attributes kind := by
  induction attributes using List.reverseRecOn with
  | nil => exact Or.inl once_nil
  | append_singleton attributes a ih =>
    rcases ih with honce | ⟨kind, before, b, after, rfl, hkind, hrepeats, honce⟩
    · by_cases hrepeats : Repeats attributes a
      · exact Or.inr ⟨a.kind, attributes, a, [], rfl, rfl, hrepeats, honce⟩
      · exact Or.inl (once_concat.mpr ⟨honce, hrepeats⟩)
    · refine Or.inr ⟨kind, before, b, after ++ [a], ?_, hkind, hrepeats, honce⟩
      rw [List.append_assoc, List.cons_append]

/-- A kind is repeated if it is declared twice. -/
theorem not_once_iff {attributes : List Attribute} :
    ¬Once attributes ↔ ∃ k ≠ Kind.supportTopic,
      2 ≤ (attributes.map kind).count k := by
  simp only [Once, not_forall, exists_prop, Nat.not_le]
  rfl

/-- Whether a kind is repeated does not depend on the order. -/
theorem Once.perm {attributes attributes' : List Attribute}
    (h : Once attributes) (hperm : attributes'.Perm attributes) :
    Once attributes' := by
  intro k hk
  rw [(hperm.map kind).count_eq]
  exact h k hk

end Attribute

namespace Metadata

open Attribute (Once Repeats FirstRepeat topics)

/-! ## Collecting -/

/-- The attribute of a kind that metadata holds. Support topics are not held
apart from the definition. -/
def slot (m : Metadata) : Attribute.Kind → Option Attribute
  | .definition => m.definition.map .definition
  | .supportTopic => none
  | .resourceFilter => m.resourceFilter.map .resourceFilter
  | .systemFilter => m.systemFilter.map .systemFilter

/-- Metadata that holds an attribute in the place of its kind. -/
def add (m : Metadata) : Attribute → Metadata
  | .definition d => { m with definition := some d }
  | .supportTopic _ => m
  | .resourceFilter f => { m with resourceFilter := some f }
  | .systemFilter f => { m with systemFilter := some f }

/-- An attribute is found in the place of its kind. -/
theorem slot_add_self (m : Metadata) {a : Attribute}
    (h : a.kind ≠ .supportTopic) :
    (m.add a).slot a.kind = some a := by
  cases a with
  | supportTopic => exact absurd rfl h
  | definition | resourceFilter | systemFilter => rfl

/-- The other slots stay as they are. -/
theorem slot_add_of_ne (m : Metadata) {a : Attribute} {kind : Attribute.Kind}
    (h : a.kind ≠ kind) :
    (m.add a).slot kind = m.slot kind := by
  cases a <;> cases kind <;> first | rfl | exact absurd rfl h

/-- One step: an attribute is refused if its slot is taken, and added
otherwise. -/
theorem gather_cons (entry : String) (a : Attribute) (rest : List Attribute)
    (m : Metadata) (found : List SupportTopic) :
    gather entry (a :: rest) m found =
      if (m.slot a.kind).isSome then .error (.duplicate entry a.kind)
      else gather entry rest (m.add a) (found ++ a.topic?.toList) := by
  cases a with
  | supportTopic => rfl
  | definition | resourceFilter | systemFilter =>
    simp only [gather, Attribute.kind, slot, Option.isSome_map, add,
      Attribute.topic?, Option.toList_none, List.append_nil]

/-- Gathering may be taken up where it went through. -/
theorem gather_append (entry : String) (attributes rest : List Attribute) :
    ∀ (m : Metadata) (found : List SupportTopic),
      gather entry (attributes ++ rest) m found =
        (gather entry attributes m found).bind fun (m, found) =>
          gather entry rest m found := by
  induction attributes with
  | nil => intro m found; rfl
  | cons a attributes ih =>
    intro m found
    rw [List.cons_append, gather_cons, gather_cons]
    split
    · rfl
    · exact ih _ _

/-- What metadata holds are the attributes of some list, each in the place of
its kind. -/
def Collects (attributes : List Attribute) (m : Metadata) : Prop :=
  ∀ kind ≠ .supportTopic, ∀ a, m.slot kind = some a ↔ a ∈ attributes ∧ a.kind = kind

/-- Of no attributes nothing is collected. -/
theorem collects_empty : Collects [] empty := by
  intro kind _ a
  refine ⟨fun h => ?_, fun h => absurd h.1 List.not_mem_nil⟩
  cases kind <;> cases h

/-- A slot is taken if a kind is declared again. -/
theorem Collects.isSome_slot_iff {attributes : List Attribute} {m : Metadata}
    (h : Collects attributes m) (a : Attribute) :
    (m.slot a.kind).isSome = true ↔ Repeats attributes a := by
  by_cases hkind : a.kind = .supportTopic
  · rw [hkind]
    exact ⟨nofun, fun hrepeats => absurd hkind hrepeats.1⟩
  · rw [Option.isSome_iff_exists]
    simp only [h a.kind hkind]
    rw [← List.mem_map]
    exact (and_iff_right hkind).symm

/-- An attribute of a new kind is collected too. -/
theorem Collects.add {attributes : List Attribute} {m : Metadata}
    (h : Collects attributes m) {a : Attribute}
    (fresh : ¬Repeats attributes a) :
    Collects (attributes ++ [a]) (m.add a) := by
  intro kind hkind b
  rw [List.mem_append, List.mem_singleton]
  by_cases ha : a.kind = kind
  · subst ha
    rw [slot_add_self m hkind]
    constructor
    · rintro ⟨⟩
      exact ⟨Or.inr rfl, rfl⟩
    · rintro ⟨hb | rfl, hbkind⟩
      · exact absurd ⟨hkind, List.mem_map.mpr ⟨b, hb, hbkind⟩⟩ fresh
      · rfl
  · rw [slot_add_of_ne m ha, h kind hkind]
    constructor
    · exact fun ⟨hb, hbkind⟩ => ⟨Or.inl hb, hbkind⟩
    · rintro ⟨hb | rfl, hbkind⟩
      · exact ⟨hb, hbkind⟩
      · exact absurd hbkind ha

/-- A run over attributes that repeat no kind. The induction is on the
attributes from the end: the last one is met with all before it collected. -/
theorem gather_of_once (entry : String) {attributes : List Attribute}
    (h : Once attributes) :
    ∃ m, gather entry attributes empty [] = .ok (m, topics attributes) ∧
      Collects attributes m := by
  induction attributes using List.reverseRecOn with
  | nil => exact ⟨empty, rfl, collects_empty⟩
  | append_singleton attributes a ih =>
    obtain ⟨honce, hfresh⟩ := Attribute.once_concat.mp h
    obtain ⟨m, hm, hcollects⟩ := ih honce
    refine ⟨m.add a, ?_, hcollects.add hfresh⟩
    rw [gather_append, hm, Attribute.topics_concat]
    change gather entry [a] m (topics attributes) = _
    rw [gather_cons, if_neg (mt (hcollects.isSome_slot_iff a).mp hfresh)]
    rfl

/-- A run ends at the first attribute that repeats a kind. -/
theorem gather_of_firstRepeat (entry : String) {attributes : List Attribute}
    {kind : Attribute.Kind} (h : FirstRepeat attributes kind) :
    gather entry attributes empty [] = .error (.duplicate entry kind) := by
  obtain ⟨before, a, after, rfl, rfl, hrepeats, honce⟩ := h
  obtain ⟨m, hm, hcollects⟩ := gather_of_once entry honce
  rw [gather_append, hm]
  change gather entry (a :: after) m (topics before) = _
  rw [gather_cons, if_pos ((hcollects.isSome_slot_iff a).mpr hrepeats)]

/-! ## Declaring -/

/-- The metadata that attributes declare. The support topics of the definition
are those that it has itself and then those declared beside it, wherever they
stand. -/
structure Declares (attributes : List Attribute) (m : Metadata) : Prop where
  definition (d : Definition) : m.definition = some d ↔
    ∃ own, .definition own ∈ attributes ∧
      d = { own with supportTopics := own.supportTopics ++ topics attributes }
  resourceFilter (f : ResourceFilter) :
    m.resourceFilter = some f ↔ .resourceFilter f ∈ attributes
  systemFilter (f : SystemFilter) :
    m.systemFilter = some f ↔ .systemFilter f ∈ attributes

/-- Attributes declare one metadata at most. -/
theorem Declares.unique {attributes : List Attribute} {m m' : Metadata}
    (h : Declares attributes m) (h' : Declares attributes m') : m = m' := by
  obtain ⟨definition, resource, system⟩ := m
  obtain ⟨definition', resource', system'⟩ := m'
  congr
  · exact Option.ext fun d => (h.definition d).trans (h'.definition d).symm
  · exact Option.ext fun f => (h.resourceFilter f).trans (h'.resourceFilter f).symm
  · exact Option.ext fun f => (h.systemFilter f).trans (h'.systemFilter f).symm

/-- The order of the support topics is all that is declared by an order. -/
theorem Declares.perm {attributes attributes' : List Attribute} {m : Metadata}
    (h : Declares attributes m) (hperm : attributes'.Perm attributes)
    (htopics : topics attributes' = topics attributes) :
    Declares attributes' m where
  definition d := by
    rw [h.definition, htopics]
    simp only [hperm.mem_iff]
  resourceFilter f := (h.resourceFilter f).trans hperm.mem_iff.symm
  systemFilter f := (h.systemFilter f).trans hperm.mem_iff.symm

/-- A part of what was collected is an attribute among those it was collected
from. -/
theorem Collects.part_iff {attributes : List Attribute} {m : Metadata}
    (h : Collects attributes m) {α : Type} {make : α → Attribute}
    (inj : Function.Injective make) (kind : Attribute.Kind)
    (hkind : kind ≠ .supportTopic) (hmake : ∀ x, (make x).kind = kind)
    {part : Option α} (hpart : m.slot kind = part.map make) (x : α) :
    part = some x ↔ make x ∈ attributes := by
  rw [← and_iff_left (a := make x ∈ attributes) (hmake x), ← h kind hkind, hpart]
  exact (Option.map_injective inj).eq_iff.symm

/-- What was collected is declared, once the definition has its topics. -/
theorem Collects.declares {attributes : List Attribute} {m : Metadata}
    (h : Collects attributes m) :
    Declares attributes
      { m with
        definition := m.definition.map fun d =>
          { d with supportTopics := d.supportTopics ++ topics attributes } } where
  definition d := by
    have hmem : ∀ own, m.definition = some own ↔ .definition own ∈ attributes :=
      h.part_iff (fun _ _ => Attribute.definition.inj) .definition (by decide)
        (fun _ => rfl) rfl
    rw [Option.map_eq_some_iff]
    simp only [hmem, eq_comm]
  resourceFilter :=
    h.part_iff (fun _ _ => Attribute.resourceFilter.inj) .resourceFilter
      (by decide) (fun _ => rfl) rfl
  systemFilter :=
    h.part_iff (fun _ _ => Attribute.systemFilter.inj) .systemFilter (by decide)
      (fun _ => rfl) rfl

/-- **The first repetition is what is refused.** -/
theorem ofAttributes_of_firstRepeat (entry : String)
    {attributes : List Attribute} {kind : Attribute.Kind}
    (h : FirstRepeat attributes kind) :
    ofAttributes entry attributes = .error (.duplicate entry kind) := by
  unfold ofAttributes
  rw [gather_of_firstRepeat entry h]
  rfl

/-- **Without a repetition the metadata is what the attributes declare.** -/
theorem ofAttributes_of_once (entry : String) {attributes : List Attribute}
    (h : Once attributes) :
    ∃ m, ofAttributes entry attributes = .ok m ∧ Declares attributes m := by
  obtain ⟨m, hm, hcollects⟩ := gather_of_once entry h
  refine ⟨_, ?_, hcollects.declares⟩
  unfold ofAttributes
  rw [hm]
  rfl

/-- The fold goes through if no kind is repeated. -/
theorem ofAttributes_eq_ok_iff {entry : String} {attributes : List Attribute}
    {m : Metadata} :
    ofAttributes entry attributes = .ok m ↔
      Once attributes ∧ Declares attributes m := by
  constructor
  · intro h
    rcases Attribute.once_or_firstRepeat attributes with honce | ⟨kind, hrepeat⟩
    · obtain ⟨m', hm', hdeclares⟩ := ofAttributes_of_once entry honce
      rw [h] at hm'
      cases hm'
      exact ⟨honce, hdeclares⟩
    · rw [ofAttributes_of_firstRepeat entry hrepeat] at h
      cases h
  · rintro ⟨honce, hdeclares⟩
    obtain ⟨m', hm', hdeclares'⟩ := ofAttributes_of_once entry honce
    rw [hm', hdeclares'.unique hdeclares]

/-- The fold fails at the first kind that is repeated. -/
theorem ofAttributes_eq_error_iff {entry : String} {attributes : List Attribute}
    {error : ResolveError} :
    ofAttributes entry attributes = .error error ↔
      ∃ kind, FirstRepeat attributes kind ∧ error = .duplicate entry kind := by
  constructor
  · intro h
    rcases Attribute.once_or_firstRepeat attributes with honce | ⟨kind, hrepeat⟩
    · obtain ⟨m, hm, -⟩ := ofAttributes_of_once entry honce
      rw [h] at hm
      cases hm
    · rw [ofAttributes_of_firstRepeat entry hrepeat] at h
      cases h
      exact ⟨kind, hrepeat, rfl⟩
  · rintro ⟨kind, hrepeat, rfl⟩
    exact ofAttributes_of_firstRepeat entry hrepeat

/-- It fails under every name or under none, just where a kind is repeated. -/
theorem ofAttributes_fails_iff {entry : String} {attributes : List Attribute} :
    (∃ error, ofAttributes entry attributes = .error error) ↔ ¬Once attributes := by
  constructor
  · rintro ⟨error, h⟩ honce
    obtain ⟨m, hm, -⟩ := ofAttributes_of_once entry honce
    rw [h] at hm
    cases hm
  · intro h
    obtain ⟨kind, hrepeat⟩ :=
      (Attribute.once_or_firstRepeat attributes).resolve_left h
    exact ⟨_, ofAttributes_of_firstRepeat entry hrepeat⟩

end Metadata

namespace EntryPoint

open Attribute (Once FirstRepeat topics)

/-- **What an entry point declares** is refused just where a kind other than the
support topics occurs twice, and the refusal names the kind that is the first to
occur again. Otherwise it is the definition with its own support topics and all
the others behind them, and the two filters; attributes in another order declare
the same, as long as the support topics keep theirs. -/
theorem metadata_folds (e : EntryPoint) :
    ((∃ error, e.metadata = .error error) ↔
        ∃ kind ≠ .supportTopic, 2 ≤ (e.attributes.map Attribute.kind).count kind) ∧
      (∀ error, e.metadata = .error error ↔
        ∃ kind, FirstRepeat e.attributes kind ∧
          error = .compilation
            ("entry point '" ++ e.name ++ "' declares more than one " ++ kind.title
              ++ " attribute")) ∧
      (∀ m, e.metadata = .ok m ↔ Once e.attributes ∧
        Metadata.Declares e.attributes m) ∧
      ∀ e' : EntryPoint, e'.attributes.Perm e.attributes →
        topics e'.attributes = topics e.attributes →
          ∀ m, e.metadata = .ok m → e'.metadata = .ok m := by
  refine ⟨?_, fun error => Metadata.ofAttributes_eq_error_iff,
    fun m => Metadata.ofAttributes_eq_ok_iff, ?_⟩
  · rw [← Attribute.not_once_iff]
    exact Metadata.ofAttributes_fails_iff
  · intro e' hperm htopics m hm
    obtain ⟨honce, hdeclares⟩ := Metadata.ofAttributes_eq_ok_iff.mp hm
    exact Metadata.ofAttributes_eq_ok_iff.mpr
      ⟨honce.perm hperm, hdeclares.perm hperm htopics⟩

/-- A support topic before the definition goes behind those of the definition,
and may as well stand at the end. -/
theorem metadata_folds_topic_moved :
    let own : SupportTopic := ⟨"0", "99"⟩
    let beside : SupportTopic := ⟨"1", "100"⟩
    let d : Definition := (Definition.named "cpu" "CPU" "ops").addTopic own
    let filter : Attribute := .resourceFilter .internal
    let e : EntryPoint :=
      ⟨"run", 0, [.supportTopic beside, .definition d, filter],
        fun _ => .ok (.value .null)⟩
    let e' : EntryPoint :=
      { e with attributes := [filter, .definition d, .supportTopic beside] }
    e'.metadata = .ok ⟨some { d with supportTopics := [own, beside] },
      some .internal, none⟩ := by
  intro own beside d filter e e'
  obtain ⟨-, -, -, hperm⟩ := metadata_folds e
  exact hperm e' (by decide) rfl _ rfl

end EntryPoint

end DetectorBench
