import DetectorBench.Proofs.Json.Canonical
import DetectorBench.Proofs.Record.Tagged

/-!
# Records in canonical form

A value that was written can be read in two ways: as a record from the text, or
as JSON first and as a record from what was read then. The second way sees the
canonical form of what was written, and what a codec decodes from it should be
the same (`Codec.Settled`). Like `Lawful` this is a law of the leaves that is
carried over the combinators. For a record it comes from looking up: under each
of its keys the canonical form has the canonical form of what was written there
(`Fields.find_canonical`).
-/

namespace DetectorBench

open Json

/-- A codec decodes the canonical form of what it encodes to the same value. -/
def Codec.Settled {α : Type} (c : Codec α) : Prop :=
  ∀ x, c.decode (c.encode x).canonical = .ok x

namespace Codec

variable {α β : Type} {c : Codec α}

/-- The canonical form of a text is the text. -/
theorem textAs_settled (expected : String) : (textAs expected).Settled :=
  fun _ => rfl

/-- `textAs_settled` for texts that are called strings. -/
theorem text_settled : text.Settled :=
  textAs_settled _

/-- The canonical form of a flag is the flag. -/
theorem flag_settled : flag.Settled :=
  fun _ => rfl

/-- Only `null` has `null` for its canonical form. -/
theorem canonical_ne_null {j : Json} (h : j ≠ .null) : j.canonical ≠ .null := by
  cases j with
  | null => exact absurd rfl h
  | bool | number | string | array | object => exact nofun

/-- What is written in canonical form already is decoded as it is. -/
theorem Lawful.settled (h : c.Lawful)
    (hcanonical : ∀ x, (c.encode x).canonical = c.encode x) :
    c.Settled := by
  intro x
  rw [hcanonical x]
  exact h.decode_encode x

/-- A value that is not null is not null in canonical form either. -/
theorem Settled.optional (h : c.Settled) (hnull : ∀ x, c.encode x ≠ .null) :
    c.optional.Settled := by
  intro o
  cases o with
  | none => rfl
  | some x =>
    have hx := h x
    show c.optional.decode (c.encode x).canonical = _
    unfold Codec.optional
    simp only
    split
    next heq => exact absurd heq (canonical_ne_null (hnull x))
    next =>
      rw [hx]
      rfl

/-- The items of a list stay in order, so a list is settled item by item. -/
theorem Settled.list (h : c.Settled) : c.list.Settled := by
  intro xs
  show (canonicalItems (xs.map c.encode)).mapM c.decode = .ok xs
  induction xs with
  | nil => rfl
  | cons x xs ih =>
    rw [List.map_cons, canonicalItems, List.mapM_cons, h x, ih]
    rfl

/-- What is settled stays so for values that can be got back. -/
theorem Settled.map (h : c.Settled) {wrap : α → β} {unwrap : β → α}
    (hwrap : ∀ y, wrap (unwrap y) = y) : (c.map wrap unwrap).Settled := by
  intro y
  show (do return wrap (← c.decode (c.encode (unwrap y)).canonical)) = _
  rw [h (unwrap y)]
  exact congrArg Except.ok (hwrap y)

end Codec

/-! ## Fields -/

/-- A field decodes the canonical form of what it encodes, and is left out only
when its default says the same. -/
structure Field.Settled {α : Type} (field : Field α) : Prop where
  codec : field.codec.Settled
  default_of_hidden : ∀ x, field.hidden x = true → field.default = some x

namespace Field

variable {α : Type} {field : Field α} {c : Codec α}

/-- A required field is settled with its codec. -/
theorem required_settled (key : String) (h : c.Settled) :
    (required key c).Settled :=
  ⟨h, nofun⟩

theorem withDefault_settled (key : String) (h : c.Settled) (default : α) :
    (withDefault key c default).Settled :=
  ⟨h, nofun⟩

/-- An optional field is settled if no value of it is null. -/
theorem maybe_settled (key : String) (h : c.Settled)
    (hnull : ∀ x, c.encode x ≠ .null) :
    (maybe key c).Settled where
  codec := h.optional hnull
  default_of_hidden o hidden := by
    cases o with
    | none => rfl
    | some x => cases hidden

end Field

namespace Fields

variable {σ τ : Type}

/-- Every field is settled. -/
def Settled : {σ τ : Type} → Fields σ τ → Prop
  | _, _, .nil => True
  | _, _, .cons field rest => field.Settled ∧ rest.Settled

/-- The keys of a written record are keys of the fields, in their order. -/
theorem keys_encode_sublist (fields : Fields σ τ) (xs : τ) :
    ((fields.encode xs).map (·.1)).Sublist fields.keys := by
  induction fields with
  | nil => exact List.Sublist.refl _
  | cons field rest ih =>
    obtain ⟨x, xs⟩ := xs
    unfold encode
    split
    next => exact (ih xs).cons _
    next => exact (ih xs).cons_cons _

/-- What a field finds depends on the values under the keys of the fields
only. -/
theorem find_congr {fields : Fields σ τ} {get get' : String → Option Json}
    {xs : τ} (h : ∀ key ∈ fields.keys, get key = get' key) :
    fields.Find get xs ↔ fields.Find get' xs := by
  induction fields with
  | nil => exact Iff.rfl
  | cons field rest ih =>
    obtain ⟨x, xs⟩ := xs
    obtain ⟨hfield, hrest⟩ := List.forall_mem_cons.mp h
    unfold Find
    rw [hfield, ih hrest]

/-- **Fields find their values in the canonical form of what they are written
as.** -/
theorem find_canonical {fields : Fields σ τ} (settled : fields.Settled)
    (keys : fields.keys.Nodup) (xs : τ) :
    fields.Find (fun key => ((Json.object (fields.encode xs)).get? key).map
      canonical) xs := by
  -- on the fields: the first member is for the first field, or it was left out
  induction fields with
  | nil => trivial
  | cons field rest ih =>
    obtain ⟨x, xs⟩ := xs
    obtain ⟨hfield, hrest⟩ := settled
    obtain ⟨hkey, hdistinct⟩ := List.nodup_cons.mp keys
    have hothers := ih hrest hdistinct xs
    have hne : ∀ key ∈ rest.keys, field.key ≠ key :=
      fun key hmem heq => hkey (heq ▸ hmem)
    have habsent : (Json.object (rest.encode xs)).get? field.key = none :=
      get?_of_notMem fun hmem => hkey ((keys_encode_sublist rest xs).subset hmem)
    unfold encode
    by_cases hx : field.hidden x = true
    · rw [if_pos hx]
      refine ⟨?_, hothers⟩
      show field.Takes (((Json.object (rest.encode xs)).get? field.key).map
        canonical).toList x
      rw [habsent]
      exact hfield.default_of_hidden x hx
    · rw [if_neg hx]
      constructor
      · show field.Takes
          (((Json.object ((field.key, _) :: _)).get? field.key).map
            canonical).toList x
        rw [get?_cons_self]
        exact hfield.codec x
      · refine (find_congr fun key hmem => ?_).mp hothers
        rw [get?_cons_of_ne (hne key hmem)]

end Fields

/-! ## Records -/

/-- **Records are settled** if their fields are, and no key occurs twice. -/
theorem Record.codec_settled {σ τ : Type} {r : Record σ τ}
    (h : r.fields.Settled) (keys : r.fields.keys.Nodup) : r.codec.Settled := by
  intro xs
  have hsublist := Fields.keys_encode_sublist r.fields xs
  have plain : (r.codec.encode xs).canonical.Plain := ⟨nofun, nodup_keys_canonical _⟩
  refine (Record.decode_iff keys plain).mpr ⟨⟨_, rfl⟩, fun _ key hkey => ?_, ?_⟩
  · exact hsublist.subset (mem_keys_canonical hkey)
  · refine (Fields.find_congr fun key _ => ?_).mpr (Fields.find_canonical h keys xs)
    exact get?_canonical (hsublist.nodup keys) key

/-! ## Heights -/

namespace Codec

variable {α β : Type} {c : Codec α} {height : Nat}

/-- Nothing is encoded with more brackets inside one another than this. -/
def Shallow (c : Codec α) (height : Nat) : Prop :=
  ∀ x, (c.encode x).height ≤ height

/-- A codec within some brackets is within more. -/
theorem Shallow.mono {height' : Nat} (h : c.Shallow height)
    (hle : height ≤ height') :
    c.Shallow height' :=
  fun x => Nat.le_trans (h x) hle

/-- A text has no bracket. -/
theorem text_shallow : text.Shallow height :=
  fun _ => Nat.zero_le height

/-- A flag has no bracket. -/
theorem flag_shallow : flag.Shallow height :=
  fun _ => Nat.zero_le height

/-- Nor does null have one. -/
theorem Shallow.optional (h : c.Shallow height) :
    c.optional.Shallow height := by
  intro o
  cases o with
  | none => exact Nat.zero_le height
  | some x => exact h x

/-- A list is one bracket more than its items. -/
theorem Shallow.list (h : c.Shallow height) : c.list.Shallow (height + 1) := by
  intro xs
  refine Nat.succ_le_succ ?_
  induction xs with
  | nil => exact Nat.zero_le height
  | cons x xs ih => exact Nat.max_le.mpr ⟨h x, ih⟩

/-- A codec of other values writes as the one it is made of. -/
theorem Shallow.map (h : c.Shallow height) (wrap : α → β) (unwrap : β → α) :
    (c.map wrap unwrap).Shallow height :=
  fun y => h (unwrap y)

end Codec

/-- A record is one bracket more than its fields. -/
theorem Record.codec_shallow {σ τ : Type} {r : Record σ τ} {height : Nat}
    (h : r.fields.Shallow height) : r.codec.Shallow (height + 1) :=
  fun xs => Nat.succ_le_succ (Fields.heightMembers_encode h xs)

end DetectorBench
