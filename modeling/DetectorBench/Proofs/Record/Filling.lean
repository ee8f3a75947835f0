import DetectorBench.Proofs.Json.Filling
import DetectorBench.Proofs.Record.Makeup

/-!
# Codecs on documents with bytes that are part of no character

A codec reads a document of bytes as it reads the text that these are shown as,
save that it may refuse the document for a byte that is part of no character
(`Codec.Mirrored`). The combinators carry this along (`Codec.carried_mirrored`).
The texts that a codec compares, keys above all, have been read by then, so they
are the same in both.
-/

namespace DetectorBench

open Json

/-- Whatever is read, it is read of the filling too. -/
def Codec.Mirrored {α : Type} (c : Codec α) : Prop :=
  ∀ depth input, Mirrors fillRest (c.read depth input) (c.read depth input.fill)

namespace Codec

/-- A text is compared with nothing while it is read. -/
theorem textAs_mirrored (expected : String) : (textAs expected).Mirrored := by
  intro depth input
  unfold textAs
  dsimp only
  rw [skipBlanks_fill]
  rcases skipBlanks input with _ | ⟨c | _, rest⟩
  · exact .error _ _ rfl
  · rw [fill_char]
    by_cases hquote : c = '"'
    · subst hquote
      exact readString_mirrors rest
    simp only [List.cons.injEq, Symbol.char.injEq, false_and, imp_self,
      implies_true, hquote]
    exact refuseFound_mirrors _ (.char c :: rest) expected
  · exact refuseFound_mirrors _ (.stray :: rest) expected

/-- Flags are words of ASCII. -/
theorem flag_mirrored : flag.Mirrored := by
  intro depth input
  unfold flag
  dsimp only
  rw [skipBlanks_fill]
  rcases skipBlanks input with _ | ⟨c | _, rest⟩
  · exact .error _ _ rfl
  · rw [fill_char]
    by_cases htrue : c = 't'
    · subst htrue
      exact readWord_return_mirrors (by decide) true rest
    by_cases hfalse : c = 'f'
    · subst hfalse
      exact readWord_return_mirrors (by decide) false rest
    simp only [List.cons.injEq, Symbol.char.injEq, false_and, imp_self,
      implies_true, htrue, hfalse]
    exact refuseFound_mirrors _ (.char c :: rest) "a boolean"
  · exact refuseFound_mirrors _ (.stray :: rest) "a boolean"

/-- Reading a value and marking it as present does the same with a filling. -/
theorem Mirrored.present {α : Type} {c : Codec α} (h : c.Mirrored) (depth : Nat)
    (input : Input) :
    Mirrors fillRest (do let (x, rest) ← c.read depth input; return (some x, rest))
      (do let (x, rest) ← c.read depth input.fill; return (some x, rest)) :=
  (h depth input).bind fun (x, rest) => .ok (some x, rest)

/-- Null is told by the word for it, which is of ASCII. -/
theorem Mirrored.optional {α : Type} {c : Codec α} (h : c.Mirrored) :
    c.optional.Mirrored := by
  intro depth input
  unfold Codec.optional
  dsimp only
  rw [skipBlanks_fill]
  rcases skipBlanks input with _ | ⟨d | _, rest⟩
  · exact h.present depth []
  · rw [fill_char]
    by_cases hnull : d = 'n'
    · subst hnull
      exact readWord_return_mirrors (by decide) none rest
    simp only [List.cons.injEq, Symbol.char.injEq, false_and, imp_self,
      implies_true, hnull]
    exact h.present depth (.char d :: rest)
  · exact h.present depth (.stray :: rest)

/-- A list is mirrored if its items are. -/
theorem Mirrored.list {α : Type} {c : Codec α} (h : c.Mirrored) :
    c.list.Mirrored := by
  intro depth input
  unfold Codec.list
  dsimp only
  rw [skipBlanks_fill]
  rcases skipBlanks input with _ | ⟨d | _, rest⟩
  · exact .error _ _ rfl
  · rw [fill_char]
    by_cases hbracket : d = '['
    · subst hbracket
      cases depth with
      | zero => exact .error _ _ rfl
      | succ depth =>
        refine (readItems_mirrors (h depth) rest).bind fun (xs, rest) => ?_
        exact (endList_mirrors rest).bind fun rest => .ok (xs, rest)
    simp only [List.cons.injEq, Symbol.char.injEq, false_and, imp_self,
      implies_true, hbracket]
    exact refuseFound_mirrors _ (.char d :: rest) "a sequence"
  · exact refuseFound_mirrors _ (.stray :: rest) "a sequence"

/-- What is made of the result does not depend on what is left. -/
theorem Mirrored.map {α β : Type} {c : Codec α} (h : c.Mirrored) (wrap : α → β)
    (unwrap : β → α) :
    (c.map wrap unwrap).Mirrored := by
  intro depth input
  exact (h depth input).bind fun (x, rest) => .ok (wrap x, rest)

/-- A document is read as its filling, also at its end. -/
theorem Mirrored.readDocument {α : Type} {c : Codec α} (h : c.Mirrored)
    (document : Input) :
    Mirrors id (c.readDocument document) (c.readDocument document.fill) :=
  readDocument_mirrors (h maxDepth) document

end Codec

/-! ## Fields -/

namespace Fields

variable {σ τ : Type}

/-- The same field is read, if any is. -/
theorem readInto_mirrors {fields : Fields σ τ} (h : fields.All Codec.Mirrored)
    (key : String) (depth : Nat) (slots : σ) (input : Input) :
    (fields.readInto key depth slots input = none ∧
        fields.readInto key depth slots input.fill = none) ∨
      ∃ result result', fields.readInto key depth slots input = some result ∧
        fields.readInto key depth slots input.fill = some result' ∧
          Mirrors fillRest result result' := by
  induction fields with
  | nil => exact Or.inl ⟨rfl, rfl⟩
  | cons field others ih =>
    obtain ⟨slot, slots⟩ := slots
    unfold readInto
    by_cases hkey : key = field.key
    · rw [if_pos hkey, if_pos hkey]
      refine Or.inr ?_
      cases slot with
      | some x => exact ⟨_, _, rfl, rfl, .error _ _ rfl⟩
      | none =>
        refine ⟨_, _, rfl, rfl, (readColon_mirrors input).bind fun input => ?_⟩
        exact (h.1 depth input).bind fun (x, rest) => .ok ((some x, slots), rest)
    · rw [if_neg hkey, if_neg hkey]
      rcases ih h.2 slots with ⟨hnone, hnone'⟩ |
          ⟨result, result', hsome, hsome', hmirrors⟩
      · rw [hnone, hnone']
        exact Or.inl ⟨rfl, rfl⟩
      · rw [hsome, hsome']
        refine Or.inr ⟨_, _, rfl, rfl, ?_⟩
        exact hmirrors.bind fun (slots, rest) => .ok ((slot, slots), rest)

/-- The fields of a record in square brackets are read of a filling alike. -/
theorem readItems_mirrors {fields : Fields σ τ} (h : fields.All Codec.Mirrored)
    (shape : String) (depth : Nat) (first : Bool) (index : Nat)
    (input : Input) :
    Mirrors fillRest (fields.readItems shape depth first index input)
      (fields.readItems shape depth first index input.fill) := by
  induction fields generalizing first index input with
  | nil => exact .ok ((), input)
  | cons field others ih =>
    unfold readItems
    refine (nextItem_mirrors first input).bind fun (more, input) => ?_
    cases more with
    | true =>
      refine (h.1 depth input).bind fun (x, input) => ?_
      exact (ih h.2 false (index + 1) input).bind fun (xs, rest) =>
        .ok ((x, xs), rest)
    | false =>
      dsimp only [fillRest]
      cases field.default with
      | some x =>
        exact (ih h.2 first (index + 1) input).bind fun (xs, rest) =>
          .ok ((x, xs), rest)
      | none => exact .error _ _ rfl

/-- What is wrong with a record that was read to its end is not about the bytes
of it. -/
theorem isStray_of_finish {fields : Fields σ τ} {slots : σ} {cause : Cause}
    (h : fields.finish slots = .error cause) : cause.isStray = false := by
  induction fields with
  | nil => cases h
  | cons field others ih =>
    obtain ⟨slot, slots⟩ := slots
    unfold finish at h
    split at h
    next =>
      cases hothers : others.finish slots with
      | error cause' =>
        rw [hothers] at h
        cases h
        exact ih hothers
      | ok xs =>
        rw [hothers] at h
        cases h
    next =>
      cases h
      rfl

end Fields

/-! ## Records -/

namespace Record

variable {σ τ : Type}

/-- So are the members of one in curly brackets, as their keys are compared
after reading. -/
theorem readMembersFrom_mirrors {r : Record σ τ}
    (h : r.fields.All Codec.Mirrored) (depth fuel : Nat) (first : Bool)
    (slots : σ) (input : Input) :
    Mirrors fillRest (r.readMembersFrom depth fuel first slots input)
      (r.readMembersFrom depth fuel first slots input.fill) := by
  induction fuel generalizing first slots input with
  | zero => exact .error _ _ rfl
  | succ fuel ih =>
    unfold readMembersFrom
    refine (nextKey_mirrors first input).bind fun (key?, input) => ?_
    cases key? with
    | none => exact .ok (slots, input)
    | some key =>
      dsimp only [fillRest]
      rcases Fields.readInto_mirrors h key depth slots input with
        ⟨hnone, hnone'⟩ | ⟨result, result', hsome, hsome', hmirrors⟩
      · rw [hnone, hnone']
        dsimp only
        split
        next => exact .error _ _ rfl
        next =>
          refine (readColon_mirrors input).bind fun input => ?_
          exact (skipValue_mirrors input).bind fun input => ih false slots input
      · rw [hsome, hsome']
        exact hmirrors.bind fun (slots, input) => ih false slots input

/-- **A record is mirrored if its fields are.** -/
theorem codec_mirrored {r : Record σ τ} (h : r.fields.All Codec.Mirrored) :
    r.codec.Mirrored := by
  intro depth input
  show Mirrors fillRest (r.read depth input) (r.read depth input.fill)
  unfold read
  rw [skipBlanks_fill]
  rcases skipBlanks input with _ | ⟨c | _, rest⟩
  · exact .error _ _ rfl
  · rw [fill_char]
    by_cases hbracket : c = '['
    · subst hbracket
      cases depth with
      | zero => exact .error _ _ rfl
      | succ depth =>
        refine (Fields.readItems_mirrors h r.shape depth true 0 rest).bind
          fun (x, rest) => ?_
        exact (endList_mirrors rest).bind fun rest => .ok (x, rest)
    by_cases hbrace : c = '\x7b'
    · subst hbrace
      cases depth with
      | zero => exact .error _ _ rfl
      | succ depth =>
        have hmembers : Mirrors fillRest
            (r.readMembersFrom depth (rest.length + 1) true r.fields.empty rest)
            (r.readMembersFrom depth ((Input.fill rest).length + 1) true
              r.fields.empty (Input.fill rest)) := by
          rw [length_fill]
          exact readMembersFrom_mirrors h depth _ true r.fields.empty rest
        refine hmembers.bind fun (slots, rest) => ?_
        dsimp only [fillRest]
        cases hfinish : r.fields.finish slots with
        | ok x => exact .ok (x, rest)
        | error cause => exact .error _ _ (Fields.isStray_of_finish hfinish)
    simp only [List.cons.injEq, Symbol.char.injEq, false_and, imp_self,
      implies_true, hbracket, hbrace]
    exact refuseFound_mirrors _ (.char c :: rest) r.expected
  · exact refuseFound_mirrors _ (.stray :: rest) r.expected

end Record

/-- Being mirrored is carried along by the combinators. -/
theorem Codec.carried_mirrored : Codec.Carried Codec.Mirrored where
  textAs := textAs_mirrored
  flag := flag_mirrored
  optional := Mirrored.optional
  list := Mirrored.list
  map := Mirrored.map
  record := Record.codec_mirrored

end DetectorBench
