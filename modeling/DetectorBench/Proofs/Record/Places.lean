import DetectorBench.Proofs.Json.Places
import DetectorBench.Proofs.Record.Makeup

/-!
# Where codecs place faults

A codec leaves no more of a document than it was given, and every fault of it is
placed in what it was given (`Codec.Placed`). The leaves do, and the combinators
carry it along (`Codec.carried_placed`), so it holds of every codec that is made
up of them.
-/

namespace DetectorBench

open Json

/-- Whatever is read, no more is left than there was, and a fault is placed in
what there was. -/
def Codec.Placed {α : Type} (c : Codec α) : Prop :=
  ∀ depth input, Json.Placed Prod.snd input.bytes (c.read depth input)

namespace Codec

/-- A text is read or refused in place. -/
theorem textAs_placed (expected : String) : (textAs expected).Placed := by
  intro depth input
  unfold textAs
  dsimp only
  split
  next => exact placed_error (Nat.zero_le _)
  next heq => exact (readString_placed _).mono (bytes_of_skipBlanks_cons heq)
  next => exact (refuseFound_placed _ _).mono (bytes_skipBlanks_le input)

/-- A flag is read or refused in place. -/
theorem flag_placed : flag.Placed := by
  intro depth input
  unfold flag
  dsimp only
  split
  next => exact placed_error (Nat.zero_le _)
  next heq =>
    refine Json.Placed.mono ?_ (bytes_of_skipBlanks_cons heq)
    exact (readWord_placed _ _).bind fun _ => placed_ok (Nat.le_refl _)
  next heq =>
    refine Json.Placed.mono ?_ (bytes_of_skipBlanks_cons heq)
    exact (readWord_placed _ _).bind fun _ => placed_ok (Nat.le_refl _)
  next => exact (refuseFound_placed _ _).mono (bytes_skipBlanks_le input)

/-- Null is read in place. -/
theorem Placed.optional {α : Type} {c : Codec α} (h : c.Placed) :
    c.optional.Placed := by
  intro depth input
  unfold Codec.optional
  dsimp only
  split
  next heq =>
    refine Json.Placed.mono ?_ (bytes_of_skipBlanks_cons heq)
    exact (readWord_placed _ _).bind fun _ => placed_ok (Nat.le_refl _)
  next =>
    refine Json.Placed.mono ?_ (bytes_skipBlanks_le input)
    exact (h depth _).bind fun _ => placed_ok (Nat.le_refl _)

/-- A list is read in place if its items are. -/
theorem Placed.list {α : Type} {c : Codec α} (h : c.Placed) :
    c.list.Placed := by
  intro depth input
  unfold Codec.list
  dsimp only
  split
  next => exact placed_error (Nat.zero_le _)
  next heq =>
    cases depth with
    | zero => exact placed_ahead (bytes_of_skipBlanks heq)
    | succ depth =>
      refine Json.Placed.mono ?_ (bytes_of_skipBlanks_cons heq)
      refine (readItems_placed (h depth) _).bind fun (xs, rest) => ?_
      exact (endList_placed rest).bind fun _ => placed_ok (Nat.le_refl _)
  next => exact (refuseFound_placed _ _).mono (bytes_skipBlanks_le input)

/-- Making something of the result leaves the same. -/
theorem Placed.map {α β : Type} {c : Codec α} (h : c.Placed) (wrap : α → β)
    (unwrap : β → α) :
    (c.map wrap unwrap).Placed := by
  intro depth input
  exact (h depth input).bind fun _ => placed_ok (Nat.le_refl _)

/-- **Every fault of a document lies in the document.** -/
theorem Placed.readDocument {α : Type} {c : Codec α} (h : c.Placed)
    (document : Input) :
    Json.Placed (fun _ => []) document.bytes (c.readDocument document) :=
  readDocument_placed (h maxDepth) document

end Codec

/-! ## Fields -/

namespace Fields

variable {σ τ : Type}

/-- A member is read in place if its field is. -/
theorem readInto_placed {fields : Fields σ τ} (h : fields.All Codec.Placed)
    {key : String} {depth : Nat} {slots : σ} {input : Input}
    {result : Except Fault (σ × Input)}
    (hread : fields.readInto key depth slots input = some result) :
    Placed Prod.snd input.bytes result := by
  induction fields with
  | nil => cases hread
  | cons field others ih =>
    obtain ⟨slot, slots⟩ := slots
    unfold readInto at hread
    by_cases hkey : key = field.key
    · rw [if_pos hkey] at hread
      cases slot with
      | some x =>
        cases hread
        exact refuseIn_placed _ _ _
      | none =>
        cases hread
        refine (readColon_placed input).bind fun input => ?_
        exact (h.1 depth input).bind fun _ => placed_ok (Nat.le_refl _)
    · rw [if_neg hkey] at hread
      obtain ⟨inner, hinner, rfl⟩ := Option.map_eq_some_iff.mp hread
      exact (ih h.2 hinner).bind fun _ => placed_ok (Nat.le_refl _)

/-- The fields of a record in square brackets are read in place. -/
theorem readItems_placed {fields : Fields σ τ} (h : fields.All Codec.Placed)
    (shape : String) (depth : Nat) (first : Bool) (index : Nat)
    (input : Input) :
    Placed Prod.snd input.bytes
      (fields.readItems shape depth first index input) := by
  induction fields generalizing first index input with
  | nil => exact placed_ok (Nat.le_refl _)
  | cons field others ih =>
    unfold readItems
    refine (nextItem_placed first input).bind fun (more, input) => ?_
    cases more with
    | true =>
      refine (h.1 depth input).bind fun (x, input) => ?_
      exact (ih h.2 false (index + 1) input).bind fun _ => placed_ok (Nat.le_refl _)
    | false =>
      dsimp only
      cases field.default with
      | some x =>
        exact (ih h.2 first (index + 1) input).bind fun _ =>
          placed_ok (Nat.le_refl _)
      | none => exact refuseIn_placed _ _ _

end Fields

/-! ## Records -/

namespace Record

variable {σ τ : Type}

/-- So are the members of one in curly brackets. -/
theorem readMembersFrom_placed {r : Record σ τ} (h : r.fields.All Codec.Placed)
    (depth fuel : Nat) (first : Bool) (slots : σ) (input : Input) :
    Placed Prod.snd input.bytes
      (r.readMembersFrom depth fuel first slots input) := by
  induction fuel generalizing first slots input with
  | zero => exact placed_ahead (Nat.le_refl _)
  | succ fuel ih =>
    unfold readMembersFrom
    refine (nextKey_placed first input).bind fun (key?, input) => ?_
    cases key? with
    | none => exact placed_ok (Nat.le_refl _)
    | some key =>
      dsimp only
      cases hread : r.fields.readInto key depth slots input with
      | some result =>
        exact (Fields.readInto_placed h hread).bind fun (slots, input) =>
          ih false slots input
      | none =>
        dsimp only
        split
        next => exact refuseIn_placed _ _ _
        next =>
          refine (readColon_placed input).bind fun input => ?_
          exact (skipValue_placed input).bind fun input => ih false slots input

/-- **A record is read in place if its fields are.** -/
theorem codec_placed {r : Record σ τ} (h : r.fields.All Codec.Placed) :
    r.codec.Placed := by
  intro depth input
  show Placed Prod.snd input.bytes (r.read depth input)
  unfold read
  split
  next => exact placed_error (Nat.zero_le _)
  next heq =>
    cases depth with
    | zero => exact placed_ahead (bytes_of_skipBlanks heq)
    | succ depth =>
      refine Json.Placed.mono ?_ (bytes_of_skipBlanks_cons heq)
      refine (Fields.readItems_placed h _ _ _ _ _).bind fun (x, rest) => ?_
      exact (endList_placed rest).bind fun _ => placed_ok (Nat.le_refl _)
  next heq =>
    cases depth with
    | zero => exact placed_ahead (bytes_of_skipBlanks heq)
    | succ depth =>
      refine Json.Placed.mono ?_ (bytes_of_skipBlanks_cons heq)
      refine (readMembersFrom_placed h _ _ _ _ _).bind fun (slots, rest) => ?_
      dsimp only
      cases r.fields.finish slots with
      | ok x => exact placed_ok (Nat.le_refl _)
      | error cause => exact placed_error (Nat.le_refl _)
  next => exact (refuseFound_placed _ _).mono (bytes_skipBlanks_le input)

end Record

/-- Reading in place is carried along by the combinators. -/
theorem Codec.carried_placed : Codec.Carried Codec.Placed where
  textAs := textAs_placed
  flag := flag_placed
  optional := Placed.optional
  list := Placed.list
  map := Placed.map
  record := Record.codec_placed

end DetectorBench
