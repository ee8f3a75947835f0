import DetectorBench.Proofs.Record.RoundTrip
import DetectorBench.Record.Choice

/-!
# Reading enumerations

Enumerations follow and are lawful, like the other codecs: a name is read as it
is decoded, and so is the object form, a name with `null` behind it. The object
form has one member; what reading refuses at the second one, decoding refuses by
the number of members.

A table is lawful for a function that names the values if every value is found
by its name.
-/

namespace DetectorBench

open Json

namespace Codec

theorem unit_refuses {depth : Nat} {input u : Input} {s : Symbol}
    (hi : skipBlanks input = s :: u) (hs : s ≠ .char 'n') :
    unit.read depth input = refuseFound (s :: u) "unit" := by
  unfold unit
  simp only [hi]
  split
  next heq => cases heq
  next heq => cases heq; exact absurd rfl hs
  next => rfl

theorem unit_follows : unit.Follows 0 := by
  intro j t rest input depth h hr hi _
  obtain ⟨s, u, rfl, opens⟩ := h.opens
  cases opens with
  | null =>
    cases h with
    | null =>
      have hread : unit.read depth input = .ok ((), rest) := by
        unfold unit
        simp only [hi]
        show (do return ((), ← readWord ['u', 'l', 'l']
          (symbols ['u', 'l', 'l'] ++ rest))) = _
        rw [readWord_symbols]
        rfl
      rw [hread]
      exact agrees_ok () rest
  | digit digit =>
    rw [unit_refuses hi (ne_of_digit digit rfl)]
    exact agrees_refuseFound _ _ _ _
  | _ =>
    rw [unit_refuses hi (by decide)]
    exact agrees_refuseFound _ _ _ _

end Codec

namespace Choices

variable {α : Type} {table : Choices α}

/-- A name is looked up where it ends. -/
theorem readName_spells {cs : List Char} {t : Input} (h : SpellsChars cs t)
    (rest : Input) :
    table.readName (.char '"' :: (t ++ rest)) =
      match table.find (String.ofList cs) with
      | .ok x => .ok (x, rest)
      | .error cause => .error (.here rest cause) := by
  unfold readName
  rw [skipBlanks_of_not_blank (by decide)]
  simp only [readString_spells h]
  rfl

theorem readName_follows {cs : List Char} {t : Input} (h : SpellsChars cs t)
    (rest : Input) :
    Agrees (table.find (String.ofList cs))
      (table.readName (.char '"' :: (t ++ rest))) rest := by
  rw [readName_spells h]
  cases table.find (String.ofList cs) with
  | ok x => exact agrees_ok x rest
  | error cause => exact agrees_error cause _ rest

/-- Behind the opening brace a name is read as it is anywhere else. -/
theorem readKey_spells {b k : Input} {key : String} (blank : Blank b)
    (name : SpellsString key k) (rest : Input) :
    Agrees (table.find key) (table.readKey (b ++ (k ++ rest))) rest := by
  cases name with
  | quoted chars =>
    unfold readKey
    rw [List.cons_append, blank.skipBlanks_cons (by decide)]
    exact readName_follows chars rest

/-- What has to come after the member of the object form. -/
def closeForm (x : α) (input : Input) : Except Fault (α × Input) :=
  match skipBlanks input with
  | .char '\x7d' :: rest => .ok (x, rest)
  | [] => .error (.here [] .endOfObject)
  | rest => .error (.here rest .expectedValue)

/-- The form closes behind its only member, and a second one is not taken. -/
theorem closeForm_follows {members : List (String × Json)} {u : Input}
    (h : SpellsMembers false members u) (rest : Input) (x : α) (cause : Cause) :
    Agrees (match members with | [] => .ok x | _ => .error cause)
      (closeForm x (u ++ rest)) rest := by
  unfold closeForm
  cases h with
  | close blank =>
    rw [List.append_assoc, List.singleton_append, blank.skipBlanks_cons (by decide)]
    exact agrees_ok x rest
  | member before =>
    cases before with
    | next before after =>
      simp only [List.append_assoc, List.cons_append]
      rw [before.skipBlanks_cons (by decide)]
      exact agrees_error _ _ rest

/-- The object form behind its opening brace. -/
def readForm (table : Choices α) (depth : Nat) : Reader α := fun input => do
  let (x, rest) ← table.readKey input
  let rest ← readColon rest
  let ((), rest) ← Codec.unit.read depth rest
  closeForm x rest

theorem read_object {depth : Nat} {input u : Input}
    (hi : skipBlanks input = .char '\x7b' :: u) :
    table.read (depth + 1) input = table.readForm depth u := by
  unfold read
  generalize skipBlanks input = found at hi ⊢
  subst hi
  rfl

/-- A value that opens neither form is refused. -/
theorem read_refuses {depth : Nat} {input u : Input} {s : Symbol}
    (hi : skipBlanks input = s :: u)
    (hs : s ≠ .char '"') (hs' : s ≠ .char '\x7b') :
    table.read depth input = .error (.ahead (s :: u) .expectedValue) := by
  unfold read
  simp only [hi]
  split
  next heq => cases heq
  next heq => cases heq; exact absurd rfl hs
  next heq => cases heq; exact absurd rfl hs'
  next => rfl

/-- Without a member there is no name to read. -/
theorem readKey_close {b : Input} (blank : Blank b) (rest : Input) :
    table.readKey (b ++ .char '\x7d' :: rest) =
      .error (.ahead (.char '\x7d' :: rest) .expectedValue) := by
  unfold readKey
  rw [blank.skipBlanks_cons (by decide)]
  rfl

/-- The object form is read as it is decoded, however many members it has. -/
theorem readForm_follows {members : List (String × Json)} {t : Input}
    {depth : Nat} (inside : SpellsMembers true members t) (rest : Input) :
    Agrees (table.decode (.object members)) (table.readForm depth (t ++ rest))
      rest := by
  cases inside with
  | close blank =>
    unfold readForm
    rw [List.append_assoc, List.singleton_append, readKey_close blank]
    exact agrees_error _ _ rest
  | @member _ lead k b b' v u key j more before name colon gap value tail =>
    cases before with
    | first blank =>
      let surplus : Cause :=
        .invalidValue (.object ((key, j) :: more)) "map with a single key"
      -- decoding counts the members first; in the order of reading it would
      -- count them last
      have hread : Agrees
          (do
            let x ← table.find key
            let () ← Codec.unit.decode j
            match more with | [] => .ok x | _ => .error surplus)
          (table.readForm depth
            (lead ++ (k ++ (b ++ .char ':' :: (b' ++ (v ++ u)))) ++ rest))
          rest := by
        have hunit : Agrees (Codec.unit.decode j)
            (Codec.unit.read depth (b' ++ (v ++ (u ++ rest)))) (u ++ rest) :=
          Codec.unit_follows value tail.terminated
            (by rw [gap.skipBlanks_append, value.skipBlanks_append]) (Nat.zero_le _)
        unfold readForm
        simp only [List.append_assoc, List.cons_append]
        refine (readKey_spells blank name _).bind fun x => ?_
        simp only [readColon_blank colon]
        exact hunit.bind fun _ => closeForm_follows tail rest x surplus
      cases more with
      | nil => exact hread
      | cons =>
        rcases hread with ⟨x, hd, -⟩ | ⟨_, fault, -, hr⟩
        · cases hfind : table.find key with
          | error => rw [hfind] at hd; cases hd
          | ok =>
            cases hdecode : Codec.unit.decode j with
            | error => rw [hfind, hdecode] at hd; cases hd
            | ok => rw [hfind, hdecode] at hd; cases hd
        · exact Or.inr ⟨surplus, fault, rfl, hr⟩

/-- **Enumerations follow**: the object form takes one bracket. -/
theorem codec_follows (table : Choices α) (name : α → String) :
    (table.codec name).Follows 1 := by
  intro j t rest input depth h hr hi hn
  obtain ⟨depth, rfl⟩ : ∃ k, depth = k + 1 := ⟨depth - 1, by omega⟩
  obtain ⟨s, u, rfl, opens⟩ := h.opens
  show Agrees (table.decode j) (table.read (depth + 1) input) rest
  cases opens with
  | string =>
    cases h with
    | string chars =>
      cases chars with
      | quoted chars =>
        have hread : table.read (depth + 1) input =
            table.readName (.char '"' :: (u ++ rest)) := by
          unfold read
          simp only [hi]
          rfl
        rw [hread]
        exact readName_follows chars rest
  | object =>
    cases h with
    | object inside =>
      rw [List.cons_append] at hi
      rw [read_object hi]
      exact readForm_follows inside rest
  | digit digit =>
    rw [read_refuses hi (Codec.ne_of_digit digit rfl) (Codec.ne_of_digit digit rfl)]
    exact agrees_error _ _ rest
  | _ =>
    rw [read_refuses hi (by decide) (by decide)]
    exact agrees_error _ _ rest

/-- Enumerations are lawful if every value is found by its name. -/
theorem codec_lawful {name : α → String}
    (h : ∀ x, table.find (name x) = .ok x) :
    (table.codec name).Lawful where
  exact _ := trivial
  decode_encode x := h x

end Choices

end DetectorBench
