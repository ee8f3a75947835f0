import DetectorBench.Manifest

/-!
# Properties that combinators carry

Much of what is to be said of a codec holds of the leaves and goes through every
combinator, whatever the names in it. Such a property (`Codec.Carried`) holds of
all codecs that are made up of texts, truth values, optional parts, lists and
records, and the codec of manifests is one (`Manifest.codec_of_carried`).
-/

namespace DetectorBench

/-- A property of the codecs of all fields. -/
def Fields.All (P : {α : Type} → Codec α → Prop) :
    {σ τ : Type} → Fields σ τ → Prop
  | _, _, .nil => True
  | _, _, .cons field rest => P field.codec ∧ rest.All P

/-- A property of codecs that the leaves have and the combinators carry
along. -/
structure Codec.Carried (P : {α : Type} → Codec α → Prop) : Prop where
  textAs : ∀ expected, P (Codec.textAs expected)
  flag : P Codec.flag
  optional : ∀ {α : Type} {c : Codec α}, P c → P c.optional
  list : ∀ {α : Type} {c : Codec α}, P c → P c.list
  map : ∀ {α β : Type} {c : Codec α}, P c →
    ∀ (wrap : α → β) (unwrap : β → α), P (c.map wrap unwrap)
  record : ∀ {σ τ : Type} {r : Record σ τ}, r.fields.All P → P r.codec

variable {P : {α : Type} → Codec α → Prop}

theorem SupportTopic.codec_of_carried (h : Codec.Carried P) :
    P SupportTopic.codec := by
  refine h.map (h.record ?_) _ _
  exact ⟨h.textAs _, h.textAs _, trivial⟩

theorem Definition.codec_of_carried (h : Codec.Carried P) :
    P Definition.codec := by
  have htext := h.textAs "a string"
  have htopics := h.list (SupportTopic.codec_of_carried h)
  refine h.map (h.record ?_) _ _
  exact ⟨htext, htext, htext, h.optional htext, h.optional htext, htopics, trivial⟩

theorem ResourceFilter.codec_of_carried (h : Codec.Carried P) :
    P ResourceFilter.codec := by
  refine h.map (h.record ?_) _ _
  exact ⟨h.textAs _, h.flag, trivial⟩

theorem SystemFilter.codec_of_carried (h : Codec.Carried P) :
    P SystemFilter.codec := by
  refine h.map (h.record ?_) _ _
  exact trivial

theorem EntryDeclaration.codec_of_carried (h : Codec.Carried P) :
    P EntryDeclaration.codec := by
  refine h.map (h.record ?_) _ _
  exact ⟨h.textAs _, h.textAs _, trivial⟩

/-- **What combinators carry holds of the codec of manifests.** -/
theorem Manifest.codec_of_carried (h : Codec.Carried P) : P Manifest.codec := by
  have hnames := h.list (h.textAs "a string")
  refine h.map (h.record ?_) _ _
  exact ⟨EntryDeclaration.codec_of_carried h,
    h.optional (Definition.codec_of_carried h),
    h.optional (ResourceFilter.codec_of_carried h),
    h.optional (SystemFilter.codec_of_carried h),
    hnames, hnames, trivial⟩

end DetectorBench
