import DetectorBench.Proofs.Json.Written
import DetectorBench.Proofs.Record.Following

/-!
# What is written is read back

A codec is `Lawful` if it decodes every value that it encodes, and encodes no
number that JSON would not keep. The law is carried over the combinators in the
same way as `Follows` is. For a record it takes that no key occurs twice and
that a field is left out only when its default says the same (`Field.Lawful`).
`Keeps` is the law for one value, where it does not hold of all.

Together with `Follows` this gives the round trip through the text
(`readDocument_write`): in either layout, a document that was written is read
back as the value that it was written for.
-/

namespace DetectorBench

open Json

/-- What a codec encodes it decodes again. -/
structure Codec.Lawful {α : Type} (c : Codec α) : Prop where
  exact : ∀ x, Exact (c.encode x)
  decode_encode : ∀ x, c.decode (c.encode x) = .ok x

/-- The same for one value, where it does not hold of all. -/
structure Codec.Keeps {α : Type} (c : Codec α) (x : α) : Prop where
  exact : Exact (c.encode x)
  decode_encode : c.decode (c.encode x) = .ok x

namespace Codec

/-- A lawful codec keeps every value. -/
theorem Lawful.keeps {α : Type} {c : Codec α} (h : c.Lawful) (x : α) :
    c.Keeps x :=
  ⟨h.exact x, h.decode_encode x⟩

/-- Different values are written differently. -/
theorem Lawful.injective {α : Type} {c : Codec α} (h : c.Lawful) {x y : α}
    (hencode : c.encode x = c.encode y) : x = y := by
  have hdecode := h.decode_encode x
  rw [hencode, h.decode_encode y] at hdecode
  exact (Except.ok.inj hdecode).symm

theorem textAs_lawful (expected : String) : (textAs expected).Lawful where
  exact _ := trivial
  decode_encode _ := rfl

/-- A flag is decoded as what it is encoded as. -/
theorem flag_lawful : flag.Lawful where
  exact _ := trivial
  decode_encode _ := rfl

/-- A codec of other values keeps those that can be got back. -/
theorem Keeps.map {α β : Type} {c : Codec α} {wrap : α → β} {unwrap : β → α}
    {y : β} (h : c.Keeps (unwrap y)) (hwrap : wrap (unwrap y) = y) :
    (c.map wrap unwrap).Keeps y where
  exact := h.exact
  decode_encode := by
    show (do return wrap (← c.decode (c.encode (unwrap y)))) = _
    rw [h.decode_encode]
    exact congrArg Except.ok hwrap

/-- It is lawful if all can be got back. -/
theorem Lawful.map {α β : Type} {c : Codec α} (h : c.Lawful) {wrap : α → β}
    {unwrap : β → α} (hwrap : ∀ y, wrap (unwrap y) = y) :
    (c.map wrap unwrap).Lawful where
  exact y := ((h.keeps _).map (hwrap y)).exact
  decode_encode y := ((h.keeps _).map (hwrap y)).decode_encode

/-- An absent value is told from the others, because nothing else is written
`null`. -/
theorem Keeps.optional {α : Type} {c : Codec α}
    (hnull : ∀ x, c.encode x ≠ .null) :
    ∀ {o : Option α}, (∀ x, o = some x → c.Keeps x) → c.optional.Keeps o
  | none, _ => ⟨trivial, rfl⟩
  | some x, h => by
    have hx := h x rfl
    refine ⟨hx.exact, ?_⟩
    show c.optional.decode (c.encode x) = _
    unfold Codec.optional
    simp only
    split
    next heq => exact absurd heq (hnull x)
    next =>
      rw [hx.decode_encode]
      rfl

/-- Without a value that is null itself, a value and its absence are told
apart. -/
theorem Lawful.optional {α : Type} {c : Codec α} (h : c.Lawful)
    (hnull : ∀ x, c.encode x ≠ .null) :
    c.optional.Lawful where
  exact _ := (Keeps.optional hnull fun x _ => h.keeps x).exact
  decode_encode _ := (Keeps.optional hnull fun x _ => h.keeps x).decode_encode

/-- A list is lawful item by item. -/
theorem Lawful.list {α : Type} {c : Codec α} (h : c.Lawful) :
    c.list.Lawful where
  exact xs := by
    show ExactItems (xs.map c.encode)
    induction xs with
    | nil => trivial
    | cons x xs ih => exact ⟨h.exact x, ih⟩
  decode_encode xs := by
    show (xs.map c.encode).mapM c.decode = .ok xs
    induction xs with
    | nil => rfl
    | cons x xs ih =>
      rw [List.map_cons, List.mapM_cons, h.decode_encode, ih]
      rfl

end Codec

/-! ## Fields -/

/-- A field decodes what it encodes, and is left out only when its default says
the same. -/
structure Field.Lawful {α : Type} (field : Field α) : Prop where
  codec : field.codec.Lawful
  default_of_hidden : ∀ x, field.hidden x = true → field.default = some x

/-- The same for one value of the field. -/
structure Field.Keeps {α : Type} (field : Field α) (x : α) : Prop where
  codec : field.codec.Keeps x
  default_of_hidden : field.hidden x = true → field.default = some x

namespace Field

/-- A lawful field keeps every value. -/
theorem Lawful.keeps {α : Type} {field : Field α} (h : field.Lawful) (x : α) :
    field.Keeps x :=
  ⟨h.codec.keeps x, h.default_of_hidden x⟩

variable {α : Type} {c : Codec α}

/-- A required field is never left out. -/
theorem required_keeps (key : String) {x : α} (h : c.Keeps x) :
    (required key c).Keeps x :=
  ⟨h, nofun⟩

/-- A field that is left out if absent has absence for its default. -/
theorem maybe_keeps (key : String) {o : Option α} (h : c.optional.Keeps o) :
    (maybe key c).Keeps o where
  codec := h
  default_of_hidden hidden := by
    cases o with
    | none => rfl
    | some x => cases hidden

theorem required_lawful (key : String) (h : c.Lawful) :
    (required key c).Lawful where
  codec := h
  default_of_hidden _ hx := by cases hx

/-- A field with a default is written even if it has the default. -/
theorem withDefault_lawful (key : String) (h : c.Lawful) (default : α) :
    (withDefault key c default).Lawful where
  codec := h
  default_of_hidden _ hx := by cases hx

/-- An optional field is lawful if no value of it is null. -/
theorem maybe_lawful (key : String) (h : c.Lawful)
    (hnull : ∀ x, c.encode x ≠ .null) :
    (maybe key c).Lawful where
  codec := h.optional hnull
  default_of_hidden o :=
    (maybe_keeps key ((h.optional hnull).keeps o)).default_of_hidden

/-- A list is left out if it is empty, which is its default. -/
theorem listing_lawful (key : String) (h : c.Lawful) :
    (listing key c).Lawful where
  codec := h.list
  default_of_hidden
    | [], _ => rfl
    | _ :: _, hx => by cases hx

end Field

namespace Fields

variable {σ τ : Type}

/-- Every field is lawful. -/
def Lawful : {σ τ : Type} → Fields σ τ → Prop
  | _, _, .nil => True
  | _, _, .cons field rest =>
    field.Lawful ∧ rest.Lawful

/-- Every field keeps its value. -/
def Keep : {σ τ : Type} → Fields σ τ → τ → Prop
  | _, _, .nil, () => True
  | _, _, .cons field rest, (x, xs) => field.Keeps x ∧ rest.Keep xs

/-- Lawful fields keep all values of a record. -/
theorem Lawful.keep {fields : Fields σ τ} (h : fields.Lawful) (xs : τ) :
    fields.Keep xs := by
  induction fields with
  | nil => trivial
  | cons field others ih => exact ⟨h.1.keeps xs.1, ih h.2 xs.2⟩

/-- Every field follows at what its value is written as. -/
def FollowOwn : {σ τ : Type} → Fields σ τ → (height : Nat) → τ → Prop
  | _, _, .nil, _, () => True
  | _, _, .cons field rest, height, (x, xs) =>
    field.codec.FollowsAt height (field.codec.encode x) ∧ rest.FollowOwn height xs

/-- The slots that the members of a written record fill. -/
def filled : {σ τ : Type} → Fields σ τ → τ → σ
  | _, _, .nil, () => ()
  | _, _, .cons field rest, (x, xs) =>
    (if field.hidden x then none else some x, rest.filled xs)

/-- From the slots that a written record fills, the record is finished. -/
theorem finish_filled {fields : Fields σ τ} {xs : τ} (h : fields.Keep xs) :
    fields.finish (fields.filled xs) = .ok xs := by
  induction fields with
  | nil => rfl
  | cons field others ih =>
    obtain ⟨x, xs⟩ := xs
    obtain ⟨hfield, hothers⟩ := h
    have hfound :
        ((if field.hidden x then none else some x) <|> field.default) = some x := by
      by_cases hx : field.hidden x = true
      · rw [if_pos hx, hfield.default_of_hidden hx]
        rfl
      · rw [if_neg hx]
        rfl
    unfold finish filled
    simp only [hfound, ih hothers]
    rfl

/-- Only keys of the record are written. -/
theorem key_of_mem_encode {fields : Fields σ τ} {xs : τ}
    {member : String × Json} (h : member ∈ fields.encode xs) :
    member.1 ∈ fields.keys := by
  induction fields with
  | nil => cases h
  | cons field others ih =>
    obtain ⟨x, xs⟩ := xs
    unfold encode at h
    split at h
    next => exact List.mem_cons_of_mem _ (ih h)
    next =>
      rcases List.mem_cons.mp h with rfl | h
      · exact List.mem_cons_self
      · exact List.mem_cons_of_mem _ (ih h)

/-- Fields without a key have nothing to say about it. -/
theorem followAt_of_notMem {fields : Fields σ τ} {key : String}
    (h : key ∉ fields.keys) (height : Nat) (j : Json) :
    fields.FollowAt height key j := by
  induction fields with
  | nil => trivial
  | cons field others ih =>
    obtain ⟨hkey, hothers⟩ := not_or.mp (mt List.mem_cons.mpr h)
    exact ⟨fun heq => absurd heq hkey, ih hothers⟩

/-- A written member concerns its own field only. -/
theorem followAt_of_mem_encode {fields : Fields σ τ} {height : Nat} {xs : τ}
    (h : fields.FollowOwn height xs) (keys : fields.keys.Nodup)
    {member : String × Json} (hmember : member ∈ fields.encode xs) :
    fields.FollowAt height member.1 member.2 := by
  induction fields with
  | nil => cases hmember
  | cons field others ih =>
    obtain ⟨x, xs⟩ := xs
    obtain ⟨hkey, hdistinct⟩ := List.nodup_cons.mp keys
    have hothers : member ∈ others.encode xs →
        (Fields.cons field others).FollowAt height member.1 member.2 := by
      intro hmem
      refine ⟨fun heq => ?_, ih h.2 hdistinct hmem⟩
      exact absurd (heq ▸ key_of_mem_encode hmem) hkey
    unfold encode at hmember
    split at hmember
    next => exact hothers hmember
    next =>
      rcases List.mem_cons.mp hmember with rfl | hmem
      · exact ⟨fun _ => h.1, followAt_of_notMem hkey height _⟩
      · exact hothers hmem

/-- A record that is kept is written without a number that JSON would not
keep. -/
theorem encode_exact {fields : Fields σ τ} {xs : τ} (h : fields.Keep xs) :
    ExactMembers (fields.encode xs) := by
  induction fields with
  | nil => trivial
  | cons field others ih =>
    obtain ⟨x, xs⟩ := xs
    obtain ⟨hfield, hothers⟩ := h
    unfold encode
    split
    next => exact ih hothers
    next => exact ⟨hfield.codec.exact, ih hothers⟩

end Fields

/-! ## Records -/

namespace Record

variable {σ τ : Type}

/-- Members of the other fields do not touch the slot of the first. -/
theorem decodeMembers_frame {α : Type} {name : String} {strict : Bool}
    {field : Field α} {others : Fields σ τ} {members : List (String × Json)}
    (hkeys : ∀ member ∈ members, member.1 ≠ field.key) (slot : Option α)
    {slots filled : σ}
    (h : decodeMembers ⟨name, strict, others⟩ members slots = .ok filled) :
    decodeMembers ⟨name, strict, .cons field others⟩ members (slot, slots) =
      .ok (slot, filled) := by
  -- on the members: each moves the slots of the others on and leaves the first
  -- where it is
  induction members generalizing slots with
  | nil =>
    cases h
    rfl
  | cons member members ih =>
    obtain ⟨key, j⟩ := member
    have hkey : key ≠ field.key := hkeys (key, j) List.mem_cons_self
    have hmembers := fun m hm => hkeys m (List.mem_cons_of_mem _ hm)
    unfold decodeMembers Fields.decodeInto
    unfold decodeMembers at h
    rw [if_neg hkey]
    cases hinto : others.decodeInto key j slots with
    | none =>
      simp only [hinto] at h ⊢
      cases strict with
      | true => cases h
      | false => exact ih hmembers h
    | some result =>
      simp only [hinto] at h ⊢
      cases result with
      | error cause => cases h
      | ok slots => exact ih hmembers h

/-- The members that a record is written as fill the slots of the fields that
are written. -/
theorem decodeMembers_encode {name : String} {strict : Bool}
    {fields : Fields σ τ} {xs : τ} (h : fields.Keep xs)
    (keys : fields.keys.Nodup) :
    decodeMembers ⟨name, strict, fields⟩ (fields.encode xs) fields.empty =
      .ok (fields.filled xs) := by
  -- on the fields: the first member, if it is there, is for the first field,
  -- and no later one is
  induction fields with
  | nil => rfl
  | cons field others ih =>
    obtain ⟨x, xs⟩ := xs
    obtain ⟨hfield, hothers⟩ := h
    obtain ⟨hkey, hdistinct⟩ := List.nodup_cons.mp keys
    have hmembers := ih hothers hdistinct
    have hkeys : ∀ member ∈ others.encode xs, member.1 ≠ field.key := by
      intro member hmember heq
      exact hkey (heq ▸ Fields.key_of_mem_encode hmember)
    unfold Fields.encode Fields.filled
    by_cases hx : field.hidden x = true
    · rw [if_pos hx, if_pos hx]
      exact decodeMembers_frame hkeys none hmembers
    · rw [if_neg hx, if_neg hx]
      have hrest := decodeMembers_frame hkeys (some x) hmembers
      unfold decodeMembers Fields.decodeInto Fields.empty
      simp only [if_true, hfield.codec.decode_encode]
      exact hrest

/-- A record is kept if its fields keep their values, and no key occurs
twice. -/
theorem codec_keeps {r : Record σ τ} {xs : τ} (h : r.fields.Keep xs)
    (keys : r.fields.keys.Nodup) :
    r.codec.Keeps xs where
  exact := Fields.encode_exact h
  decode_encode := by
    show (do
      r.fields.finish (← r.decodeMembers (r.fields.encode xs) r.fields.empty)) =
        .ok xs
    rw [decodeMembers_encode h keys]
    exact Fields.finish_filled h

/-- A record follows at what it is written as if its fields do. -/
theorem codec_followsAt_encode {r : Record σ τ} {height : Nat} (xs : τ)
    (h : r.fields.FollowOwn height xs) (keys : r.fields.keys.Nodup) :
    r.codec.FollowsAt (height + 1) (r.codec.encode xs) :=
  codec_followsAt_object fun _ hmember => Fields.followAt_of_mem_encode h keys
    hmember

/-- **Records are lawful** if their fields are, and no key occurs twice. -/
theorem codec_lawful {r : Record σ τ} (h : r.fields.Lawful)
    (keys : r.fields.keys.Nodup) :
    r.codec.Lawful where
  exact xs := (codec_keeps (h.keep xs) keys).exact
  decode_encode xs := (codec_keeps (h.keep xs) keys).decode_encode

end Record

/-! ## Documents -/

/-- **Round trip**: a document that was written, in either layout, is read back
as the value that it was written for. -/
theorem Codec.readDocument_write {α : Type} {c : Codec α} {height : Nat}
    (follows : c.Follows height) (hn : height ≤ maxDepth) (lawful : c.Lawful)
    (layout : Layout) (x : α) :
    c.readDocument (symbols ((c.encode x).write layout)) = .ok x := by
  have value := write_spells layout (c.encode x) (lawful.exact x)
  have hdoc := follows.readDocument_iff hn blank_nil value blank_nil x
  rw [List.nil_append, List.append_nil] at hdoc
  exact hdoc.mpr (lawful.decode_encode x)

end DetectorBench
