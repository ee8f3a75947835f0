import DetectorBench.Proofs.Json.Passed
import DetectorBench.Proofs.Json.Skipping
import DetectorBench.Proofs.Json.Strays
import DetectorBench.Proofs.Record.Filling
import DetectorBench.Proofs.Record.Following

/-!
# The form of what is read

A codec looks at some of a document and passes over the rest. `Form` says of a
text which part is which, with no reader in it: a text, a truth value, a list, a
record with its fields. Whatever is looked at is a text of the JSON grammar,
keys of unknown fields included, so that no byte in it is part of no character
(`Json.SpellsString.stray_notMem`). The value of an unknown field is passed
over, and there alone the looser grammar applies (`Form.Member`).

A codec keeps to a form (`Codec.KeepsTo`) if it reads only texts of the form,
and refuses none of them for a byte that is part of no character. It may refuse
one for another reason, a missing field say, about which the form says nothing.

> `Codec.KeepsTo.spoiled`: what the codec would read if something stood in for
> the bytes that are part of no character, and is not of the form, is refused
> for such a byte.
-/

namespace DetectorBench

open Json

/-- A form that the text of a value may have. -/
abbrev Form := Input → Prop

namespace Form

/-- A string. -/
def text : Form := fun t =>
  ∃ s, SpellsString s t

/-- `true` or `false`. -/
def flag : Form := fun t =>
  t = symbols ['t', 'r', 'u', 'e'] ∨ t = symbols ['f', 'a', 'l', 's', 'e']

/-- `null`, or a text of a form. -/
def nullable (form : Form) : Form := fun t =>
  t = symbols ['n', 'u', 'l', 'l'] ∨ form t

/-- An array whose items all are of one form. -/
inductive list (form : Form) : Form where
  | items {items : List Input} {t : Input} (inside : ItemTexts true items t)
    (fits : ∀ u ∈ items, form u) : list form (.char '[' :: t)

/-- Items of one form each, in order; forms may be left over. -/
inductive InOrder : List Form → List Input → Prop where
  | nil {forms : List Form} : InOrder forms []
  | cons {form : Form} {forms : List Form} {t : Input} {items : List Input}
    (fits : form t) (rest : InOrder forms items) :
    InOrder (form :: forms) (t :: items)

/-- A key, and the text under it: the text is of the form of the field with that
key. Without such a field, it is passed over, unless the record is strict. -/
def Member (strict : Bool) (fields : List (String × Form)) (k t : Input) :
    Prop :=
  ∃ key, SpellsString key k ∧
    match fields.lookup key with
    | some form => form t
    | none => strict = false ∧ Loose t

/-- A record with some fields, as an object or as an array. -/
inductive record (strict : Bool) (fields : List (String × Form)) : Form where
  | object {members : List (Input × Input)} {t : Input}
    (inside : MemberTexts true members t)
    (fits : ∀ m ∈ members, Member strict fields m.1 m.2) :
    record strict fields (.char '\x7b' :: t)
  | array {items : List Input} {t : Input} (inside : ItemTexts true items t)
    (fits : InOrder (fields.map (·.2)) items) :
    record strict fields (.char '[' :: t)

/-- A string is not mistaken for `null`. -/
theorem text_ne_null {t : Input} (h : text t) : t.head? ≠ some (.char 'n') := by
  rintro heq
  obtain ⟨s, ⟨⟩⟩ := h
  cases heq

/-- Nor is a record. -/
theorem record_ne_null {strict : Bool} {fields : List (String × Form)}
    {t : Input} (h : record strict fields t) : t.head? ≠ some (.char 'n') := by
  intro heq
  cases h <;> cases heq

end Form

/-! ## Forms are loose -/

namespace Form

/-- Texts of a form might as well be passed over. -/
def IsLoose (form : Form) : Prop :=
  ∀ ⦃t⦄, form t → Loose t

/-- A string may be passed over. -/
theorem text_isLoose : text.IsLoose := by
  rintro t ⟨s, chars⟩
  exact .string chars.loose

/-- So may a truth value. -/
theorem flag_isLoose : flag.IsLoose := by
  rintro t (rfl | rfl)
  · exact .true
  · exact .false

/-- So may `null`. -/
theorem IsLoose.nullable {form : Form} (h : form.IsLoose) :
    (nullable form).IsLoose := by
  rintro t (rfl | ht)
  · exact .null
  · exact h ht

/-- A list may be passed over if its items may. -/
theorem IsLoose.list {form : Form} (h : form.IsLoose) : (list form).IsLoose := by
  rintro t ⟨inside, fits⟩
  exact .array inside fun u hu => h (fits u hu)

/-- Items of one form each may be passed over if each form may. -/
theorem InOrder.loose {forms : List Form} {items : List Input}
    (h : InOrder forms items) (hforms : ∀ form ∈ forms, form.IsLoose) :
    ∀ u ∈ items, Loose u := by
  induction h with
  | nil => exact List.forall_mem_nil _
  | cons fits _ ih =>
    obtain ⟨hform, hmore⟩ := List.forall_mem_cons.mp hforms
    exact List.forall_mem_cons.mpr ⟨hform fits, ih hmore⟩

/-- A member may be passed over, whether or not there is a field for it. -/
theorem Member.loose {strict : Bool} {fields : List (String × Form)}
    {k t : Input} (h : Member strict fields k t)
    (hfields : ∀ field ∈ fields, field.2.IsLoose) :
    LooseString k ∧ Loose t := by
  obtain ⟨key, name, hvalue⟩ := h
  refine ⟨name.loose, ?_⟩
  cases hlookup : fields.lookup key with
  | none =>
    rw [hlookup] at hvalue
    exact hvalue.2
  | some form =>
    rw [hlookup] at hvalue
    obtain ⟨_, _, rfl, -⟩ := List.lookup_eq_some_iff.mp hlookup
    exact hfields (key, form) (by simp) hvalue

/-- **A record may be passed over** if its fields may. -/
theorem record_isLoose {strict : Bool} {fields : List (String × Form)}
    (h : ∀ field ∈ fields, field.2.IsLoose) : (record strict fields).IsLoose := by
  rintro t (⟨inside, fits⟩ | ⟨inside, fits⟩)
  · exact .object inside (fun m hm => ((fits m hm).loose h).1)
      fun m hm => ((fits m hm).loose h).2
  · exact .array inside (fits.loose (List.forall_mem_map.mpr h))

end Form

/-! ## Outcomes -/

namespace Json

/-- An outcome that is as it should be, unless the document is refused; but it
is not refused for a byte that is part of no character. -/
def Unspoiled {α : Type} (P : α → Prop) : Except Fault α → Prop
  | .ok a => P a
  | .error fault => fault.cause.isStray = false

/-- One reader after another: the second need only be unspoiled behind what the
first can leave. -/
theorem Unspoiled.bind {α β : Type} {P : α → Prop} {Q : β → Prop}
    {x : Except Fault α} {f : α → Except Fault β} (h : Unspoiled P x)
    (hf : ∀ a, P a → Unspoiled Q (f a)) :
    Unspoiled Q (x >>= f) := by
  cases x with
  | error fault => exact h
  | ok a => exact hf a h

theorem Unspoiled.of_eq_ok {α : Type} {P : α → Prop} {x : Except Fault α}
    {a : α} (h : x = .ok a) (ha : P a) : Unspoiled P x := by
  rw [h]
  exact ha

end Json

/-! ## Codecs -/

/-- A codec reads only texts of a form, and refuses none of them for a byte that
is part of no character. -/
structure Codec.KeepsTo {α : Type} (c : Codec α) (form : Form) : Prop where
  starts : ∀ {t}, form t → ∃ s u, t = s :: u ∧ StartsValue s
  found : ∀ {depth input x rest}, c.read depth input = .ok (x, rest) →
    ∃ b t, Blank b ∧ form t ∧ input = b ++ (t ++ rest)
  unspoiled : ∀ {depth t rest input}, form t → skipBlanks input = t ++ rest →
    Unspoiled (fun result => result.2 = rest) (c.read depth input)

namespace Codec

/-- **Texts are read from strings of the grammar**, and from nothing else. -/
theorem textAs_keepsTo (expected : String) :
    (textAs expected).KeepsTo .text where
  starts := by
    rintro t ⟨s, chars⟩
    obtain ⟨u, rfl⟩ := chars.starts
    exact ⟨_, u, rfl, rfl, by decide, by decide, by decide, by decide⟩
  found := by
    intro depth input x rest h
    obtain ⟨b, hb, hinput⟩ := exists_skipBlanks input
    cases hi : skipBlanks input with
    | nil =>
      unfold textAs at h
      simp only [hi] at h
      cases h
    | cons s u =>
      rw [textAs_read hi] at h
      split at h
      next hs =>
        obtain ⟨t, ht, rfl⟩ := exists_of_readString h
        refine ⟨b, .char '"' :: t, hb, ⟨x, ht⟩, ?_⟩
        rw [hinput, hi, hs]
        rfl
      next =>
        exact absurd h refuseFound_ne_ok
  unspoiled := by
    rintro depth t rest input ⟨s, chars⟩ hi
    cases chars with
    | quoted chars =>
      rw [textAs_read hi, if_pos rfl]
      exact Unspoiled.of_eq_ok (readString_spells chars rest) rfl

/-- Flags are read from the two words. -/
theorem flag_keepsTo : flag.KeepsTo .flag where
  starts := by
    rintro t (rfl | rfl)
    · exact ⟨_, _, rfl, rfl, by decide, by decide, by decide, by decide⟩
    · exact ⟨_, _, rfl, rfl, by decide, by decide, by decide, by decide⟩
  found := by
    intro depth input x rest h
    obtain ⟨b, hb, hinput⟩ := exists_skipBlanks input
    unfold flag at h
    dsimp only at h
    split at h
    next => cases h
    next hi =>
      obtain ⟨more, hword, h⟩ := exists_of_bind_eq_ok h
      cases h
      exact ⟨b, _, hb, .inl rfl, by rw [hinput, hi, eq_of_readWord hword]; rfl⟩
    next hi =>
      obtain ⟨more, hword, h⟩ := exists_of_bind_eq_ok h
      cases h
      exact ⟨b, _, hb, .inr rfl, by rw [hinput, hi, eq_of_readWord hword]; rfl⟩
    next =>
      exact absurd h refuseFound_ne_ok
  unspoiled := by
    rintro depth t rest input (rfl | rfl) hi
    · have hword := readWord_symbols ['r', 'u', 'e'] rest
      unfold flag
      simp only [hi]
      exact Unspoiled.bind (.of_eq_ok hword rfl) fun _ h => h.symm
    · have hword := readWord_symbols ['a', 'l', 's', 'e'] rest
      unfold flag
      simp only [hi]
      exact Unspoiled.bind (.of_eq_ok hword rfl) fun _ h => h.symm

/-- A codec of other values keeps to the form of the one it is made of. -/
theorem KeepsTo.map {α β : Type} {c : Codec α} {form : Form}
    (h : c.KeepsTo form) (wrap : α → β) (unwrap : β → α) :
    (c.map wrap unwrap).KeepsTo form where
  starts := h.starts
  found := by
    intro depth input x rest hread
    obtain ⟨⟨y, more⟩, hy, hx⟩ := exists_of_bind_eq_ok hread
    cases hx
    exact h.found hy
  unspoiled ht hi := (h.unspoiled ht hi).bind fun _ hrest => hrest

/-- The form of a value that may be absent must not be mistaken for `null`. -/
theorem KeepsTo.optional {α : Type} {c : Codec α} {form : Form}
    (h : c.KeepsTo form) (hnull : ∀ t, form t → t.head? ≠ some (.char 'n')) :
    c.optional.KeepsTo (.nullable form) where
  starts := by
    rintro t (rfl | ht)
    · exact ⟨_, _, rfl, rfl, by decide, by decide, by decide, by decide⟩
    · exact h.starts ht
  found := by
    intro depth input x rest hread
    obtain ⟨b, hb, hinput⟩ := exists_skipBlanks input
    unfold Codec.optional at hread
    dsimp only at hread
    split at hread
    next hi =>
      obtain ⟨more, hword, hx⟩ := exists_of_bind_eq_ok hread
      cases hx
      exact ⟨b, _, hb, .inl rfl, by rw [hinput, hi, eq_of_readWord hword]; rfl⟩
    next =>
      obtain ⟨⟨y, more⟩, hy, hx⟩ := exists_of_bind_eq_ok hread
      cases hx
      obtain ⟨b', t, hb', ht, hi⟩ := h.found hy
      exact ⟨b ++ b', t, hb.append hb',
        .inr ht, by rw [hinput, hi, List.append_assoc]⟩
  unspoiled := by
    rintro depth t rest input (rfl | ht) hi
    · have hword := readWord_symbols ['u', 'l', 'l'] rest
      unfold Codec.optional
      simp only [hi]
      exact Unspoiled.bind (.of_eq_ok hword rfl) fun _ h => h.symm
    · obtain ⟨s, u, rfl, hs⟩ := h.starts ht
      have hn : s ≠ .char 'n' := by
        rintro rfl
        exact hnull _ ht rfl
      rw [optional_read_of_ne hi hn]
      refine (h.unspoiled ht ?_).bind fun _ hrest => hrest
      exact skipBlanks_of_not_blank hs.1 _

/-- Items that were read are of the form, up to a bracket. -/
theorem KeepsTo.items_found {α : Type} {c : Codec α} {form : Form}
    (h : c.KeepsTo form) {depth fuel : Nat} :
    ∀ {first : Bool} {input rest : Input} {xs : List α},
      readItemsFrom (c.read depth) fuel first input = .ok (xs, rest) →
      ∃ items t u, rest = .char ']' :: u ∧ ItemTexts first items t ∧
        (∀ i ∈ items, form i) ∧ input = t ++ u := by
  induction fuel with
  | zero => exact nofun
  | succ fuel ih =>
    intro first input rest xs hread
    unfold readItemsFrom at hread
    obtain ⟨⟨more, next⟩, hnext, hmore⟩ := exists_of_bind_eq_ok hread
    rcases nextItem_inv hnext with ⟨rfl, lead, hlead, rfl⟩ |
        ⟨rfl, b, u, hb, rfl, rfl⟩
    · obtain ⟨⟨x, later⟩, hx, hrest⟩ := exists_of_bind_eq_ok hmore
      obtain ⟨⟨others, last⟩, hothers, hlast⟩ := exists_of_bind_eq_ok hrest
      cases hlast
      obtain ⟨b, t, hb, ht, rfl⟩ := h.found hx
      obtain ⟨items, t', u, hclose, inside, fits, rfl⟩ := ih hothers
      refine ⟨t :: items, _, u, hclose, .item (hlead.append hb) inside, ?_, by simp⟩
      exact List.forall_mem_cons.mpr ⟨ht, fits⟩
    · cases hmore
      exact ⟨[], _, u, rfl, .close hb, List.forall_mem_nil _, by simp⟩

/-- Items of the form are read up to the bracket, if nothing else is wrong. -/
theorem KeepsTo.items_unspoiled {α : Type} {c : Codec α} {form : Form}
    (h : c.KeepsTo form) {depth fuel : Nat} :
    ∀ {first : Bool} {items : List Input} {t : Input}, ItemTexts first items t →
      (∀ i ∈ items, form i) → ∀ rest,
      Unspoiled (fun result => result.2 = .char ']' :: rest)
        (readItemsFrom (c.read depth) fuel first (t ++ rest)) := by
  induction fuel with
  | zero =>
    intros
    rfl
  | succ fuel ih =>
    intro first items t inside fits rest
    unfold readItemsFrom
    cases inside with
    | close blank =>
      rw [List.append_assoc, List.singleton_append, nextItem_close first blank]
      rfl
    | item before more =>
      obtain ⟨ht, others⟩ := List.forall_mem_cons.mp fits
      obtain ⟨s, u, rfl, hs⟩ := h.starts ht
      rw [List.append_assoc, List.append_assoc, List.cons_append,
        nextItem_lead before hs]
      refine (h.unspoiled ht (skipBlanks_of_not_blank hs.1 _)).bind ?_
      rintro ⟨x, later⟩ rfl
      exact (ih more others rest).bind fun _ hrest => hrest

/-- A list keeps to the form of lists of what its items keep to. -/
theorem KeepsTo.list {α : Type} {c : Codec α} {form : Form}
    (h : c.KeepsTo form) :
    c.list.KeepsTo (.list form) where
  starts := by
    rintro t ⟨⟩
    exact ⟨_, _, rfl, rfl, by decide, by decide, by decide, by decide⟩
  found := by
    intro depth input x rest hread
    obtain ⟨b, hb, hinput⟩ := exists_skipBlanks input
    unfold Codec.list at hread
    dsimp only at hread
    split at hread
    next => cases hread
    next u hi =>
      cases depth with
      | zero => cases hread
      | succ depth =>
        obtain ⟨⟨xs, more⟩, hitems, hend⟩ := exists_of_bind_eq_ok hread
        obtain ⟨last, hlast, hx⟩ := exists_of_bind_eq_ok hend
        cases hx
        obtain ⟨items, t, u, rfl, inside, fits, rfl⟩ := h.items_found hitems
        cases (endList_close blank_nil u).symm.trans hlast
        exact ⟨b, _, hb, .items inside fits, by rw [hinput, hi]; rfl⟩
    next =>
      exact absurd hread refuseFound_ne_ok
  unspoiled := by
    intro depth t rest input ht hi
    cases ht with
    | items inside fits =>
      unfold Codec.list
      simp only [hi]
      cases depth with
      | zero => rfl
      | succ depth =>
        refine (h.items_unspoiled inside fits rest).bind ?_
        rintro ⟨xs, more⟩ rfl
        exact Unspoiled.bind (.of_eq_ok (endList_close blank_nil rest) rfl)
          fun _ h => h.symm

end Codec

/-! ## Fields -/

/-- Fields with certain keys, whose codecs keep to certain forms. -/
inductive Fields.KeepTo : {σ τ : Type} → Fields σ τ → List (String × Form) →
    Prop where
  | nil : Fields.nil.KeepTo []
  | cons {α σ τ : Type} {field : Field α} {others : Fields σ τ} {form : Form}
    {forms : List (String × Form)} (codec : field.codec.KeepsTo form)
    (rest : others.KeepTo forms) :
    (Fields.cons field others).KeepTo ((field.key, form) :: forms)

namespace Fields

variable {σ τ : Type} {fields : Fields σ τ} {forms : List (String × Form)}

/-- A key is read into a slot if and only if a field has it. -/
theorem KeepTo.readInto_none_iff (h : fields.KeepTo forms) {key : String}
    {depth : Nat} {slots : σ} {input : Input} :
    fields.readInto key depth slots input = none ↔ forms.lookup key = none := by
  induction h with
  | nil => exact iff_of_true rfl rfl
  | @cons α σ τ field others form forms codec rest ih =>
    obtain ⟨slot, slots⟩ := slots
    unfold readInto
    by_cases hkey : key = field.key
    · rw [if_pos hkey, hkey, List.lookup_cons_self]
      cases slot <;> exact iff_of_false (Option.some_ne_none _)
        (Option.some_ne_none _)
    · rw [if_neg hkey, List.lookup_cons, beq_eq_false_iff_ne.mpr hkey,
        Option.map_eq_none_iff]
      exact ih

/-- What was read under a key is of the form of the field with that key. -/
theorem KeepTo.readInto_found (h : fields.KeepTo forms) {key : String}
    {depth : Nat} {slots slots' : σ} {input rest : Input}
    (hread : fields.readInto key depth slots input = some (.ok (slots', rest))) :
    ∃ form b b' t, forms.lookup key = some form ∧ Blank b ∧ Blank b' ∧ form t ∧
      input = b ++ .char ':' :: (b' ++ (t ++ rest)) := by
  induction h with
  | nil => cases hread
  | @cons α σ τ field others form forms codec more ih =>
    obtain ⟨slot, slots⟩ := slots
    unfold readInto at hread
    by_cases hkey : key = field.key
    · rw [if_pos hkey] at hread
      cases slot with
      | some x => cases hread
      | none =>
        simp only [Option.some.injEq] at hread
        obtain ⟨colon, hcolon, hvalue⟩ := exists_of_bind_eq_ok hread
        obtain ⟨⟨x, last⟩, hx, hlast⟩ := exists_of_bind_eq_ok hvalue
        cases hlast
        obtain ⟨b, hb, rfl⟩ := readColon_inv hcolon
        obtain ⟨b', t, hb', ht, rfl⟩ := codec.found hx
        exact ⟨form, b, b', t, by rw [hkey, List.lookup_cons_self], hb, hb', ht, rfl⟩
    · rw [if_neg hkey] at hread
      obtain ⟨result, hresult, hok⟩ := Option.map_eq_some_iff.mp hread
      obtain ⟨⟨slots'', last⟩, rfl, hlast⟩ := exists_of_bind_eq_ok hok
      cases hlast
      obtain ⟨form', b, b', t, hform, hrest⟩ := ih hresult
      refine ⟨form', b, b', t, ?_, hrest⟩
      rw [List.lookup_cons, beq_eq_false_iff_ne.mpr hkey]
      exact hform

/-- A text of the form is read under its key, if nothing else is wrong. -/
theorem KeepTo.readInto_unspoiled (h : fields.KeepTo forms) {key : String}
    {form : Form} (hform : forms.lookup key = some form) {b b' t : Input}
    (hb : Blank b) (hb' : Blank b') (ht : form t) (depth : Nat) (slots : σ)
    (rest : Input) :
    ∃ result, fields.readInto key depth slots
      (b ++ .char ':' :: (b' ++ (t ++ rest))) =
        some result ∧ Unspoiled (fun result => result.2 = rest) result := by
  induction h with
  | nil => cases hform
  | @cons α σ τ field others form' forms codec more ih =>
    obtain ⟨slot, slots⟩ := slots
    unfold readInto
    by_cases hkey : key = field.key
    · rw [hkey, List.lookup_cons_self] at hform
      cases hform
      rw [if_pos hkey]
      cases slot with
      | some x => exact ⟨_, rfl, rfl⟩
      | none =>
        refine ⟨_, rfl, ?_⟩
        obtain ⟨s, u, rfl, hs⟩ := codec.starts ht
        rw [readColon_blank hb]
        refine (codec.unspoiled ht ?_).bind fun _ hrest => hrest
        rw [hb'.skipBlanks_append]
        exact skipBlanks_of_not_blank hs.1 _
    · rw [List.lookup_cons, beq_eq_false_iff_ne.mpr hkey] at hform
      obtain ⟨result, hresult, hrest⟩ := ih hform slots
      rw [if_neg hkey, hresult]
      exact ⟨_, rfl, hrest.bind fun _ hrest => hrest⟩

/-- At the closing bracket nothing more is taken. -/
theorem readItems_bracket {shape : String} {depth index : Nat} {first : Bool}
    {u rest : Input} {x : τ}
    (hread : fields.readItems shape depth first index (.char ']' :: u) =
      .ok (x, rest)) :
    rest = .char ']' :: u := by
  induction fields generalizing first index with
  | nil =>
    cases hread
    rfl
  | cons field others ih =>
    unfold readItems at hread
    rw [show nextItem first (.char ']' :: u) =
      _ from nextItem_close first blank_nil u] at hread
    dsimp only [bind, Except.bind] at hread
    rw [if_neg Bool.false_ne_true] at hread
    split at hread
    next =>
      obtain ⟨⟨xs, last⟩, hothers, hlast⟩ := exists_of_bind_eq_ok hread
      cases hlast
      exact ih hothers
    next => cases hread

/-- Items that were read for the fields are of their forms, in order. -/
theorem KeepTo.items_found (h : fields.KeepTo forms) {shape : String}
    {depth : Nat} :
    ∀ {index : Nat} {first : Bool} {input rest last : Input} {x : τ},
      fields.readItems shape depth first index input = .ok (x, rest) →
      endList rest = .ok last →
      ∃ items t, ItemTexts first items t ∧ Form.InOrder (forms.map (·.2)) items ∧
        input = t ++ last := by
  induction h with
  | nil =>
    intro index first input rest last x hread hend
    cases hread
    obtain ⟨b, hb, rfl⟩ := endList_inv hend
    exact ⟨[], _, .close hb, .nil, by simp⟩
  | @cons α σ τ field others form forms codec more ih =>
    intro index first input rest last x hread hend
    unfold readItems at hread
    obtain ⟨⟨another, next⟩, hnext, hitem⟩ := exists_of_bind_eq_ok hread
    rcases nextItem_inv hnext with ⟨rfl, lead, hlead, rfl⟩ |
        ⟨rfl, b, u, hb, rfl, rfl⟩
    · obtain ⟨⟨y, later⟩, hy, hothers⟩ := exists_of_bind_eq_ok hitem
      obtain ⟨⟨ys, stop⟩, hys, hstop⟩ := exists_of_bind_eq_ok hothers
      cases hstop
      obtain ⟨b, t, hb, ht, rfl⟩ := codec.found hy
      obtain ⟨items, u, inside, fits, rfl⟩ := ih hys hend
      exact ⟨t :: items, _, .item (hlead.append hb) inside, .cons ht fits, by simp⟩
    · have hrest : rest = .char ']' :: u := by
        dsimp only at hitem
        rw [if_neg Bool.false_ne_true] at hitem
        split at hitem
        next =>
          obtain ⟨⟨ys, stop⟩, hys, hstop⟩ := exists_of_bind_eq_ok hitem
          cases hstop
          exact readItems_bracket hys
        next => cases hitem
      subst hrest
      cases (endList_close blank_nil u).symm.trans hend
      exact ⟨[], _, .close hb, .nil, by simp⟩

/-- Items of the forms are read up to the bracket, if nothing else is wrong. -/
theorem KeepTo.items_unspoiled (h : fields.KeepTo forms) {shape : String}
    {depth : Nat} :
    ∀ {index : Nat} {first : Bool} {items : List Input} {t : Input},
      ItemTexts first items t → Form.InOrder (forms.map (·.2)) items → ∀ rest,
      Unspoiled (fun result => ∃ b, Blank b ∧ result.2 = b ++ .char ']' :: rest)
        (fields.readItems shape depth first index (t ++ rest)) := by
  induction h with
  | nil =>
    intro index first items t inside fits rest
    cases inside with
    | close blank => exact ⟨_, blank, by simp⟩
    | item => cases fits
  | @cons α σ τ field others form forms codec more ih =>
    intro index first items t inside fits rest
    unfold readItems
    cases inside with
    | close blank =>
      rw [List.append_assoc, List.singleton_append, nextItem_close first blank]
      dsimp only [bind, Except.bind]
      rw [if_neg Bool.false_ne_true]
      cases field.default with
      | none => rfl
      | some x =>
        refine (ih (.close blank_nil) .nil rest).bind ?_
        exact fun _ hrest => hrest
    | item before inside =>
      cases fits with
      | cons ht fits =>
        obtain ⟨s, u, rfl, hs⟩ := codec.starts ht
        rw [List.append_assoc, List.append_assoc, List.cons_append,
          nextItem_lead before hs]
        refine (codec.unspoiled ht (skipBlanks_of_not_blank hs.1 _)).bind ?_
        rintro ⟨x, later⟩ rfl
        exact (ih inside fits rest).bind fun _ hrest => hrest

end Fields

/-! ## Records -/

namespace Record

variable {σ τ : Type} {r : Record σ τ} {forms : List (String × Form)}

/-- Members that were read are of the forms of the fields, or passed over. -/
theorem members_found (h : r.fields.KeepTo forms) {depth fuel : Nat} :
    ∀ {first : Bool} {slots slots' : σ} {input rest : Input},
      r.readMembersFrom depth fuel first slots input = .ok (slots', rest) →
      ∃ members t, MemberTexts first members t ∧
        (∀ m ∈ members, Form.Member r.strict forms m.1 m.2) ∧ input = t ++ rest := by
  induction fuel with
  | zero => exact nofun
  | succ fuel ih =>
    intro first slots slots' input rest hread
    unfold readMembersFrom at hread
    obtain ⟨⟨key, next⟩, hnext, hmember⟩ := exists_of_bind_eq_ok hread
    rcases nextKey_inv hnext with ⟨name, lead, k, rfl, hlead, hname,
      rfl⟩ | ⟨rfl, b, hb, rfl⟩
    · dsimp only at hmember
      cases hinto : r.fields.readInto name depth slots next with
      | none =>
        rw [hinto] at hmember
        dsimp only at hmember
        split at hmember
        next => cases hmember
        next hstrict =>
          obtain ⟨colon, hcolon, hskip⟩ := exists_of_bind_eq_ok hmember
          obtain ⟨later, hlater, hothers⟩ := exists_of_bind_eq_ok hskip
          obtain ⟨b, hb, rfl⟩ := readColon_inv hcolon
          obtain ⟨b', t, hb', loose, rfl⟩ := loose_of_skipValue hlater
          obtain ⟨members, u, inside, fits, rfl⟩ := ih hothers
          refine ⟨(k, t) :: members, _, .member hlead hb hb' inside, ?_, by simp⟩
          refine List.forall_mem_cons.mpr ⟨⟨name, hname, ?_⟩, fits⟩
          rw [h.readInto_none_iff.mp hinto]
          exact ⟨Bool.eq_false_iff.mpr hstrict, loose⟩
      | some result =>
        rw [hinto] at hmember
        obtain ⟨⟨slots'', later⟩, rfl, hothers⟩ := exists_of_bind_eq_ok hmember
        obtain ⟨form, b, b', t, hform, hb, hb', ht, rfl⟩ := h.readInto_found hinto
        obtain ⟨members, u, inside, fits, rfl⟩ := ih hothers
        refine ⟨(k, t) :: members, _, .member hlead hb hb' inside, ?_, by simp⟩
        refine List.forall_mem_cons.mpr ⟨⟨name, hname, ?_⟩, fits⟩
        rw [hform]
        exact ht
    · cases hmember
      exact ⟨[], _, .close hb, List.forall_mem_nil _, by simp⟩

/-- Members of the forms are read or passed over up to the brace, if nothing
else is wrong. -/
theorem members_unspoiled (h : r.fields.KeepTo forms) {depth fuel : Nat} :
    ∀ {first : Bool} {members : List (Input × Input)} {t : Input} {slots : σ},
      MemberTexts first members t →
      (∀ m ∈ members, Form.Member r.strict forms m.1 m.2) →
      ∀ rest, Unspoiled (fun result => result.2 = rest)
        (r.readMembersFrom depth fuel first slots (t ++ rest)) := by
  induction fuel with
  | zero =>
    intros
    rfl
  | succ fuel ih =>
    intro first members t slots inside fits rest
    unfold readMembersFrom
    cases inside with
    | close blank =>
      rw [List.append_assoc, List.singleton_append, nextKey_close first blank]
      rfl
    | @member _ lead k b b' t u members before colon gap more =>
      obtain ⟨⟨key, name, ht⟩, others⟩ := List.forall_mem_cons.mp fits
      simp only [List.append_assoc, List.cons_append]
      rw [nextKey_lead before name]
      dsimp only [bind, Except.bind]
      cases hform : forms.lookup key with
      | some form =>
        rw [hform] at ht
        obtain ⟨result, hresult, hrest⟩ :=
          h.readInto_unspoiled hform colon gap ht depth slots (u ++ rest)
        rw [hresult]
        refine hrest.bind ?_
        rintro ⟨slots', later⟩ rfl
        exact ih more others rest
      | none =>
        rw [hform] at ht
        obtain ⟨hstrict, loose⟩ := ht
        rw [h.readInto_none_iff.mpr hform, if_neg (Bool.eq_false_iff.mp hstrict),
          readColon_blank colon]
        have hskip : Json.skipValue (b' ++ (t ++ (u ++ rest))) = .ok (u ++ rest) :=
          skipValue_loose loose more.terminated
            (by rw [gap.skipBlanks_append, loose.skipBlanks_append])
        dsimp only
        rw [hskip]
        exact ih more others rest

/-- **A record keeps to its form** if its fields keep to theirs. -/
theorem codec_keepsTo (h : r.fields.KeepTo forms) :
    r.codec.KeepsTo (.record r.strict forms) where
  starts := by
    rintro t (_ | _)
    · exact ⟨_, _, rfl, rfl, by decide, by decide, by decide, by decide⟩
    · exact ⟨_, _, rfl, rfl, by decide, by decide, by decide, by decide⟩
  found := by
    intro depth input x rest hread
    obtain ⟨b, hb, hinput⟩ := exists_skipBlanks input
    change r.read depth input = _ at hread
    unfold read at hread
    split at hread
    next => cases hread
    next u hi =>
      cases depth with
      | zero => cases hread
      | succ depth =>
        obtain ⟨⟨y, more⟩, hitems, hend⟩ := exists_of_bind_eq_ok hread
        obtain ⟨last, hlast, hx⟩ := exists_of_bind_eq_ok hend
        cases hx
        obtain ⟨items, t, inside, fits, rfl⟩ := h.items_found hitems hlast
        exact ⟨b, _, hb, .array inside fits, by rw [hinput, hi]; rfl⟩
    next u hi =>
      cases depth with
      | zero => cases hread
      | succ depth =>
        obtain ⟨⟨slots, more⟩, hmembers, hend⟩ := exists_of_bind_eq_ok hread
        obtain ⟨members, t, inside, fits, rfl⟩ := members_found h hmembers
        dsimp only at hend
        split at hend
        next =>
          cases hend
          exact ⟨b, _, hb, .object inside fits, by rw [hinput, hi]; rfl⟩
        next => cases hend
    next =>
      exact absurd hread refuseFound_ne_ok
  unspoiled := by
    intro depth t rest input ht hi
    change Unspoiled _ (r.read depth input)
    cases depth with
    | zero =>
      unfold read
      cases ht <;> (simp only [hi]; rfl)
    | succ depth =>
      cases ht with
      | object inside fits =>
        rw [read_object hi]
        refine (members_unspoiled h inside fits rest).bind ?_
        rintro ⟨slots, more⟩ rfl
        dsimp only
        cases hfinish : r.fields.finish slots with
        | ok x => exact rfl
        | error cause => exact Fields.isStray_of_finish hfinish
      | array inside fits =>
        rw [read_array hi]
        refine (h.items_unspoiled inside fits rest).bind ?_
        rintro ⟨x, more⟩ ⟨b, hb, hmore⟩
        dsimp only at hmore ⊢
        rw [hmore, endList_close hb]
        rfl

end Record

/-! ## Documents -/

/-- A document of a form: blanks may stand around the text. -/
def Form.Document (form : Form) (document : Input) : Prop :=
  ∃ b t b', Blank b ∧ form t ∧ Blank b' ∧ document = b ++ (t ++ b')

/-- In a document of a form, bytes that are part of no character stand in
strings, if texts of the form might be passed over. -/
theorem Form.IsLoose.straysIn {form : Form} (h : form.IsLoose)
    {document : Input} (hdocument : form.Document document) :
    StraysIn LooseString document := by
  obtain ⟨b, t, b', hb, ht, hb', rfl⟩ := hdocument
  exact .append (straysIn_of_notMem hb.stray_notMem)
    ((h ht).straysIn.append (straysIn_of_notMem hb'.stray_notMem))

namespace Codec.KeepsTo

variable {α : Type} {c : Codec α} {form : Form} {document : Input} {x : α}

/-- Only documents of the form are read. -/
theorem document_found (h : c.KeepsTo form)
    (hread : c.readDocument document = .ok x) :
    form.Document document := by
  unfold Codec.readDocument Json.readDocument at hread
  obtain ⟨⟨y, rest⟩, hy, hend⟩ := exists_of_bind_eq_ok hread
  obtain ⟨b, t, hb, ht, rfl⟩ := h.found hy
  obtain ⟨b', hb', hrest⟩ := exists_skipBlanks rest
  dsimp only at hend
  split at hend
  next heq =>
    rw [heq, List.append_nil] at hrest
    exact ⟨b, t, rest, hb, ht, hrest ▸ hb', rfl⟩
  next => cases hend

/-- A document of the form is not refused for a byte that is part of no
character. -/
theorem document_unspoiled (h : c.KeepsTo form)
    (hform : form.Document document) :
    Unspoiled (fun _ => True) (c.readDocument document) := by
  obtain ⟨b, t, b', hb, ht, hb', rfl⟩ := hform
  unfold Codec.readDocument Json.readDocument
  obtain ⟨s, u, rfl, hs⟩ := h.starts ht
  have hi : skipBlanks (b ++ (s :: u ++ b')) = s :: u ++ b' := by
    rw [List.cons_append, hb.skipBlanks_cons hs.1]
  refine (h.unspoiled ht hi).bind ?_
  rintro ⟨y, rest⟩ rfl
  dsimp only
  split
  next => exact trivial
  next => rfl

/-- A document is read as its filling is, if it is of the form. -/
theorem readDocument_eq_ok_iff (h : c.KeepsTo form) (hm : c.Mirrored) :
    c.readDocument document = .ok x ↔
      form.Document document ∧ c.readDocument document.fill = .ok x := by
  have hmirrors := hm.readDocument document
  constructor
  · intro hread
    refine ⟨h.document_found hread, ?_⟩
    rw [hread] at hmirrors
    generalize c.readDocument document.fill = y at hmirrors ⊢
    cases hmirrors
    rfl
  · rintro ⟨hform, hfill⟩
    have hunspoiled := h.document_unspoiled hform
    rw [hfill] at hmirrors
    generalize c.readDocument document = y at hmirrors hunspoiled ⊢
    cases hmirrors with
    | ok => rfl
    | spoiled hcause =>
      change Cause.isStray _ = false at hunspoiled
      rw [hcause] at hunspoiled
      cases hunspoiled

/-- **Refusal.** A document whose filling is read, and that is not of the form,
is refused for a byte that is part of no character. -/
theorem spoiled (h : c.KeepsTo form) (hm : c.Mirrored)
    (hfill : c.readDocument document.fill = .ok x)
    (hform : ¬form.Document document) :
    ∃ left, c.readDocument document = .error ⟨.invalidCodePoint, left⟩ := by
  have hmirrors := hm.readDocument document
  have hread : ∀ y, c.readDocument document ≠ .ok y := fun y hy =>
    hform (h.document_found hy)
  rw [hfill] at hmirrors
  generalize c.readDocument document = y at hmirrors hread ⊢
  cases hmirrors with
  | ok => exact absurd rfl (hread _)
  | @spoiled fault _ hcause => exact ⟨fault.left, by rw [← hcause]⟩

end Codec.KeepsTo

end DetectorBench
