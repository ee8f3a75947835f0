import DetectorBench.Proofs.Json.Causes
import DetectorBench.Record.Fields

/-!
# What codecs quote

A codec adds words of its own to a fault: what it expected, and the keys of its
fields. Where these are of one line, reading with the codec faults plainly
(`Codec.Plain`), for each combinator if it is so for what is combined. A strict
record is where a key of the document is quoted.
-/

namespace DetectorBench

open Json
open Text (OneLine oneLine_append oneLine_digits)

/-- Whatever is read, a fault is plain. -/
def Codec.Plain {α : Type} (c : Codec α) : Prop :=
  ∀ depth input, Plainly (c.read depth input)

namespace Codec

/-! ## Leaves and lists -/

/-- A text is refused plainly if what was expected is one line. -/
theorem textAs_plain {expected : String} (h : OneLine expected) :
    (textAs expected).Plain := by
  intro depth input
  unfold textAs
  dsimp only
  split
  next => exact plainly_fixed rfl
  next => exact readString_plainly _
  next => exact refuseFound_plainly _ h

/-- A text is refused as no string. -/
theorem text_plain : text.Plain :=
  textAs_plain (by decide)

/-- A flag is refused as no boolean. -/
theorem flag_plain : flag.Plain := by
  intro depth input
  unfold flag
  dsimp only
  split
  next => exact plainly_fixed rfl
  next => exact (readWord_plainly _ _).bind fun _ => plainly_ok _
  next => exact (readWord_plainly _ _).bind fun _ => plainly_ok _
  next => exact refuseFound_plainly _ (by decide)

/-- A value that may be null is refused as the value is. -/
theorem Plain.optional {α : Type} {c : Codec α} (h : c.Plain) :
    c.optional.Plain := by
  intro depth input
  unfold Codec.optional
  dsimp only
  split
  next => exact (readWord_plainly _ _).bind fun _ => plainly_ok _
  next => exact (h depth _).bind fun _ => plainly_ok _

/-- A list is refused as no sequence, or as its items are. -/
theorem Plain.list {α : Type} {c : Codec α} (h : c.Plain) : c.list.Plain := by
  intro depth input
  unfold Codec.list
  dsimp only
  split
  next => exact plainly_fixed rfl
  next =>
    cases depth with
    | zero => exact plainly_fixed rfl
    | succ depth =>
      refine (readItems_plainly (h depth) _).bind fun (xs, rest) => ?_
      exact (endList_plainly rest).bind fun _ => plainly_ok _
  next => exact refuseFound_plainly _ (by decide)

/-- A codec of other values refuses as the one it is made of. -/
theorem Plain.map {α β : Type} {c : Codec α} (h : c.Plain) (wrap : α → β)
    (unwrap : β → α) :
    (c.map wrap unwrap).Plain := by
  intro depth input
  exact (h depth input).bind fun _ => plainly_ok _

/-- A document is refused plainly, also for what follows the value. -/
theorem Plain.readDocument {α : Type} {c : Codec α} (h : c.Plain)
    (document : Input) :
    Plainly (c.readDocument document) :=
  readDocument_plainly (h maxDepth) document

end Codec

/-! ## Fields -/

namespace Fields

variable {σ τ : Type}

/-- Every key is one line, and every field is read plainly. -/
def Plain : {σ τ : Type} → Fields σ τ → Prop
  | _, _, .nil => True
  | _, _, .cons field rest => OneLine field.key ∧ field.codec.Plain ∧ rest.Plain

/-- Every key of plain fields is one line. -/
theorem Plain.keys {fields : Fields σ τ} (h : fields.Plain) :
    ∀ key ∈ fields.keys, OneLine key := by
  induction fields with
  | nil => exact nofun
  | cons field others ih => exact List.forall_mem_cons.mpr ⟨h.1, ih h.2.2⟩

/-- A member is refused as its field is, or for being there twice. -/
theorem readInto_plainly {fields : Fields σ τ} (h : fields.Plain) {key : String}
    {depth : Nat} {slots : σ} {input : Input}
    {result : Except Fault (σ × Input)}
    (hread : fields.readInto key depth slots input = some result) :
    Plainly result := by
  induction fields with
  | nil => cases hread
  | cons field others ih =>
    obtain ⟨slot, slots⟩ := slots
    unfold readInto at hread
    by_cases hkey : key = field.key
    · rw [if_pos hkey] at hread
      cases slot with
      | some x =>
        cases hread
        exact refuseIn_plainly _ _ (Cause.plain_duplicateField h.1)
      | none =>
        cases hread
        refine (readColon_plainly input).bind fun input => ?_
        exact (h.2.1 depth input).bind fun _ => plainly_ok _
    · rw [if_neg hkey] at hread
      obtain ⟨inner, hinner, rfl⟩ := Option.map_eq_some_iff.mp hread
      exact (ih h.2.2 hinner).bind fun _ => plainly_ok _

/-- A record in square brackets is refused as its fields are, or for its
length. -/
theorem readItems_plainly {fields : Fields σ τ} (h : fields.Plain)
    {shape : String} (hshape : OneLine shape) (depth : Nat) (first : Bool)
    (index : Nat) (input : Input) :
    Plainly (fields.readItems shape depth first index input) := by
  induction fields generalizing first index input with
  | nil => exact plainly_ok _
  | cons field others ih =>
    unfold readItems
    refine (nextItem_plainly first input).bind fun (more, input) => ?_
    cases more with
    | true =>
      refine (h.2.1 depth input).bind fun (x, input) => ?_
      exact (ih h.2.2 false (index + 1) input).bind fun _ => plainly_ok _
    | false =>
      dsimp only
      cases field.default with
      | some x => exact (ih h.2.2 first (index + 1) input).bind fun _ => plainly_ok _
      | none => exact refuseIn_plainly _ _ (Cause.plain_invalidLength index hshape)

/-- A record is refused at its end for a missing field. -/
theorem finish_plain {fields : Fields σ τ} (h : fields.Plain) {slots : σ}
    {cause : Cause} (hfinish : fields.finish slots = .error cause) :
    cause.Plain := by
  induction fields with
  | nil => cases hfinish
  | cons field others ih =>
    obtain ⟨slot, slots⟩ := slots
    unfold finish at hfinish
    split at hfinish
    next =>
      cases hothers : others.finish slots with
      | error cause' =>
        rw [hothers] at hfinish
        cases hfinish
        exact ih h.2.2 hothers
      | ok xs =>
        rw [hothers] at hfinish
        cases hfinish
    next =>
      cases hfinish
      exact Cause.plain_missingField h.1

end Fields

/-! ## Records -/

namespace Record

variable {σ τ : Type}

/-- A record in curly brackets is refused as its members are, or for a key that
is unknown. -/
theorem readMembersFrom_plainly {r : Record σ τ} (h : r.fields.Plain)
    (depth fuel : Nat) (first : Bool) (slots : σ) (input : Input) :
    Plainly (r.readMembersFrom depth fuel first slots input) := by
  induction fuel generalizing first slots input with
  | zero => exact plainly_fixed rfl
  | succ fuel ih =>
    unfold readMembersFrom
    refine (nextKey_plainly first input).bind fun (key?, input) => ?_
    cases key? with
    | none => exact plainly_ok _
    | some key =>
      dsimp only
      cases hread : r.fields.readInto key depth slots input with
      | some result =>
        exact (Fields.readInto_plainly h hread).bind fun (slots, input) =>
          ih false slots input
      | none =>
        dsimp only
        split
        next => exact refuseIn_plainly _ _ (Cause.plain_unknownField key h.keys)
        next =>
          refine (readColon_plainly input).bind fun input => ?_
          exact (skipValue_plainly input).bind fun input => ih false slots input

/-- What is expected in place of a record is named on one line if the record
is. -/
theorem oneLine_expected {r : Record σ τ} (h : OneLine r.name) :
    OneLine r.expected :=
  oneLine_append.mpr ⟨by decide, h⟩

/-- So is its shape in square brackets. -/
theorem oneLine_shape {r : Record σ τ} (h : OneLine r.name) :
    OneLine r.shape := by
  have hexpected :=
    oneLine_append.mpr ⟨oneLine_expected h, (by decide : OneLine " with ")⟩
  unfold shape
  refine oneLine_append.mpr ⟨oneLine_append.mpr ⟨hexpected, oneLine_digits _⟩, ?_⟩
  split <;> decide

/-- **Records fault plainly** if their fields do, whatever key they may
quote. -/
theorem codec_plain {r : Record σ τ} (hname : OneLine r.name)
    (h : r.fields.Plain) :
    r.codec.Plain := by
  intro depth input
  show Plainly (r.read depth input)
  unfold read
  split
  next => exact plainly_fixed rfl
  next =>
    cases depth with
    | zero => exact plainly_fixed rfl
    | succ depth =>
      refine (Fields.readItems_plainly h (oneLine_shape hname) _ _ _ _).bind
        fun (x, rest) => ?_
      exact (endList_plainly rest).bind fun _ => plainly_ok _
  next =>
    cases depth with
    | zero => exact plainly_fixed rfl
    | succ depth =>
      refine (readMembersFrom_plainly h _ _ _ _ _).bind fun (slots, rest) => ?_
      dsimp only
      cases hfinish : r.fields.finish slots with
      | ok x => exact plainly_ok _
      | error cause => exact plainly_error (Fields.finish_plain h hfinish) _
  next => exact refuseFound_plainly _ (oneLine_expected hname)

end Record

end DetectorBench
