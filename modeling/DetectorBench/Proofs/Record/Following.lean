import DetectorBench.Proofs.Json.Skipping
import DetectorBench.Record.Fields

/-!
# Reading follows decoding

A codec reads from a document and decodes a value that has been read already.
`Follows` says that the two agree: on every text of a value, reading takes the
text and gives what decoding the value gives, or both refuse. Given that, what
is accepted can be found out on values alone, and a round trip has to be shown
for `decode` only.

Reading a bracketed form needs brackets to spare; how many is known for each
codec (`height`) and does not depend on the value, because what no field asks
for is passed over at any depth.

The law is shown for the leaves and carried over each combinator:
`optional_follows`, `list_follows`, `Follows.map`, and for records
`Record.codec_follows`, in both of their forms, with unknown keys and repeated
ones, in whatever order the keys come. Where it does not hold of every value, as
for a count, which decoding takes of any size, it is said of one value at a time
(`FollowsAt`).
-/

namespace DetectorBench

open Json

/-- Both accept with one result, and then exactly `rest` is left; or both
refuse. -/
def Agrees {α : Type} (decoded : Except Cause α)
    (read : Except Fault (α × Input)) (rest : Input) :
    Prop :=
  (∃ x, decoded = .ok x ∧ read = .ok (x, rest)) ∨
    ∃ cause fault, decoded = .error cause ∧ read = .error fault

theorem agrees_ok {α : Type} (x : α) (rest : Input) :
    Agrees (.ok x) (.ok (x, rest)) rest :=
  Or.inl ⟨x, rfl, rfl⟩

theorem agrees_error {α : Type} (cause : Cause) (fault : Fault) (rest : Input) :
    Agrees (α := α) (.error cause) (.error fault) rest :=
  Or.inr ⟨cause, fault, rfl, rfl⟩

theorem agrees_refuseFound {α : Type} (cause : Cause) (input : Input)
    (expected : String) (rest : Input) :
    Agrees (α := α) (.error cause) (refuseFound input expected) rest := by
  obtain ⟨fault, hfault⟩ := refuseFound_error (α := α × Input) input expected
  exact Or.inr ⟨cause, fault, rfl, hfault⟩

/-- What comes after two that agree agrees, if it does so for their common
result. -/
theorem Agrees.bind {α β : Type} {decoded : Except Cause α}
    {read : Except Fault (α × Input)} {between rest : Input}
    (h : Agrees decoded read between) {f : α → Except Cause β}
    {g : α × Input → Except Fault (β × Input)}
    (hfg : ∀ x, Agrees (f x) (g (x, between)) rest) :
    Agrees (decoded >>= f) (read >>= g) rest := by
  rcases h with ⟨x, rfl, rfl⟩ | ⟨cause, fault, rfl, rfl⟩
  · exact hfg x
  · exact agrees_error cause fault rest

/-- Making something of the result does not disturb the agreement. -/
theorem Agrees.map {α β : Type} {decoded : Except Cause α}
    {read : Except Fault (α × Input)} {rest : Input}
    (h : Agrees decoded read rest) (f : α → β) :
    Agrees (do return f (← decoded))
      (do let (x, rest) ← read; return (f x, rest)) rest := by
  exact h.bind fun x => agrees_ok (f x) rest

/-- Taking what closes a form after its contents changes nothing. -/
theorem Agrees.close {α : Type} {decoded : Except Cause α}
    {read : Except Fault (α × Input)} {between rest : Input}
    (h : Agrees decoded read between) {g : α × Input → Except Fault (α × Input)}
    (hg : ∀ x, g (x, between) = .ok (x, rest)) :
    Agrees decoded (read >>= g) rest := by
  rcases h with ⟨x, rfl, rfl⟩ | ⟨cause, fault, rfl, rfl⟩
  · exact Or.inl ⟨x, rfl, hg x⟩
  · exact agrees_error cause fault rest

/-- Reading a text of a value comes to what decoding the value comes to, if
`height` brackets may still be opened. -/
def Codec.Follows {α : Type} (c : Codec α) (height : Nat) : Prop :=
  ∀ ⦃j : Json⦄ ⦃t rest input : Input⦄ ⦃depth : Nat⦄, Spells j t → Terminated rest →
    skipBlanks input = t ++ rest → height ≤ depth →
    Agrees (c.decode j) (c.read depth input) rest

/-- The same for the texts of one value. -/
def Codec.FollowsAt {α : Type} (c : Codec α) (height : Nat) (j : Json) : Prop :=
  ∀ ⦃t rest input : Input⦄ ⦃depth : Nat⦄, Spells j t → Terminated rest →
    skipBlanks input = t ++ rest → height ≤ depth →
    Agrees (c.decode j) (c.read depth input) rest

namespace Codec

theorem Follows.at {α : Type} {c : Codec α} {height : Nat}
    (h : c.Follows height) (j : Json) :
    c.FollowsAt height j := by
  intro t rest input depth hj hr hi hn
  exact h hj hr hi hn

/-- With more brackets to spare, all the more so. -/
theorem FollowsAt.mono {α : Type} {c : Codec α} {j : Json} {m n : Nat}
    (h : c.FollowsAt m j) (hmn : m ≤ n) : c.FollowsAt n j := by
  intro t rest input depth hj hr hi hn
  exact h hj hr hi (Nat.le_trans hmn hn)

/-- With more brackets to spare, a codec still follows. -/
theorem Follows.mono {α : Type} {c : Codec α} {m n : Nat} (h : c.Follows m)
    (hmn : m ≤ n) :
    c.Follows n := by
  intro j
  exact (h.at j).mono hmn

/-- A codec of other values follows where the codec it is made of does. -/
theorem FollowsAt.map {α β : Type} {c : Codec α} {j : Json} {height : Nat}
    (h : c.FollowsAt height j) (wrap : α → β) (unwrap : β → α) :
    (c.map wrap unwrap).FollowsAt height j := by
  intro t rest input depth hj hr hi hn
  exact (h hj hr hi hn).map wrap

/-- So it follows everywhere if that does. -/
theorem Follows.map {α β : Type} {c : Codec α} {height : Nat}
    (h : c.Follows height) (wrap : α → β) (unwrap : β → α) :
    (c.map wrap unwrap).Follows height := by
  intro j
  exact (h.at j).map wrap unwrap

/-! ## Leaves -/

/-- A digit is no other character. -/
theorem ne_of_digit {s : Symbol} {c : Char} (digit : s.digit?.isSome = true)
    (hc : (Symbol.char c).digit? = none) : s ≠ .char c := by
  rintro rfl
  rw [hc] at digit
  cases digit

/-- A text is read behind its quotation mark, and everything else refused. -/
theorem textAs_read {expected : String} {depth : Nat} {input u : Input}
    {s : Symbol} (hi : skipBlanks input = s :: u) :
    (textAs expected).read depth input =
      if s = .char '"' then readString u else refuseFound (s :: u) expected := by
  unfold textAs
  simp only [hi]
  split
  next heq => cases heq
  next heq =>
    cases heq
    rw [if_pos rfl]
  next hquote =>
    rw [if_neg]
    rintro rfl
    exact hquote _ rfl

/-- Texts need no bracket: another value is refused whatever it is. -/
theorem textAs_follows (expected : String) : (textAs expected).Follows 0 := by
  intro j t rest input depth h hr hi _
  obtain ⟨s, u, rfl, opens⟩ := h.opens
  rw [textAs_read hi]
  by_cases hs : s = .char '"'
  · subst hs
    cases opens with
    | digit digit => exact absurd rfl (ne_of_digit digit rfl)
    | string =>
      cases h with
      | string chars =>
        cases chars with
        | quoted chars =>
          rw [if_pos rfl, List.append_eq, readString_spells chars]
          exact agrees_ok _ rest
  · rw [if_neg hs]
    cases opens with
    | string => exact absurd rfl hs
    | _ => exact agrees_refuseFound _ _ _ _

/-- What does not begin like a flag is named and refused. -/
theorem flag_refuses {depth : Nat} {input u : Input} {s : Symbol}
    (hi : skipBlanks input = s :: u) (ht : s ≠ .char 't') (hf : s ≠ .char 'f') :
    flag.read depth input = refuseFound (s :: u) "a boolean" := by
  unfold flag
  simp only [hi]
  split
  next heq => cases heq
  next heq => cases heq; exact absurd rfl ht
  next heq => cases heq; exact absurd rfl hf
  next => rfl

/-- Flags need no bracket. -/
theorem flag_follows : flag.Follows 0 := by
  intro j t rest input depth h hr hi _
  obtain ⟨s, u, rfl, opens⟩ := h.opens
  cases opens with
  | true =>
    cases h with
    | true =>
      have hread : flag.read depth input = .ok (true, rest) := by
        unfold flag
        simp only [hi]
        show (do return (true, ← readWord ['r', 'u', 'e']
          (symbols ['r', 'u', 'e'] ++ rest))) = _
        rw [readWord_symbols]
        rfl
      rw [hread]
      exact agrees_ok true rest
  | false =>
    cases h with
    | false =>
      have hread : flag.read depth input = .ok (false, rest) := by
        unfold flag
        simp only [hi]
        show (do
          return (false, ← readWord ['a', 'l', 's', 'e']
            (symbols ['a', 'l', 's', 'e'] ++ rest))) = _
        rw [readWord_symbols]
        rfl
      rw [hread]
      exact agrees_ok false rest
  | digit digit =>
    rw [flag_refuses hi (ne_of_digit digit rfl) (ne_of_digit digit rfl)]
    exact agrees_refuseFound _ _ _ _
  | _ =>
    rw [flag_refuses hi (by decide) (by decide)]
    exact agrees_refuseFound _ _ _ _

/-! ## Optional values and lists -/

/-- What does not start like `null` is left to the codec of the value. -/
theorem optional_read_of_ne {α : Type} {c : Codec α} {depth : Nat}
    {input u : Input} {s : Symbol} (hi : skipBlanks input = s :: u)
    (hs : s ≠ .char 'n') :
    c.optional.read depth input =
      (do let (x, rest) ← c.read depth (s :: u); return (some x, rest)) := by
  unfold optional
  simp only [hi]
  split
  next heq => cases heq; exact absurd rfl hs
  next => rfl

/-- Null is told by its first letter, every other value is left to the codec. -/
theorem optional_followsAt {α : Type} {c : Codec α} {j : Json} {height : Nat}
    (h : j ≠ .null → c.FollowsAt height j) : c.optional.FollowsAt height j := by
  intro t rest input depth hj hr hi hn
  have hc := fun hne => h hne hj hr (hj.skipBlanks_append rest) hn
  obtain ⟨s, u, rfl, opens⟩ := hj.opens
  cases opens with
  | null =>
    cases hj with
    | null =>
      unfold optional
      simp only [hi]
      show Agrees (.ok none)
        (do return (none, ← readWord ['u', 'l', 'l']
          (symbols ['u', 'l', 'l'] ++ rest))) rest
      rw [readWord_symbols]
      exact agrees_ok none rest
  | digit digit =>
    rw [optional_read_of_ne hi (ne_of_digit digit rfl)]
    exact (hc nofun).map some
  | _ =>
    rw [optional_read_of_ne hi (by decide)]
    exact (hc nofun).map some

/-- An optional value needs no bracket of its own. -/
theorem optional_follows {α : Type} {c : Codec α} {height : Nat}
    (h : c.Follows height) :
    c.optional.Follows height := by
  intro j
  exact optional_followsAt fun _ => h.at j

/-- The items of a list are read as they are decoded. -/
theorem readItemsFrom_follows {α : Type} {c : Codec α} {height depth : Nat}
    (h : c.Follows height) (hn : height ≤ depth) {items : List Json} :
    ∀ {first : Bool} {t : Input}, SpellsItems first items t →
      ∀ (fuel : Nat) (rest : Input),
      items.length < fuel →
      Agrees (items.mapM c.decode)
        (readItemsFrom (c.read depth) fuel first (t ++ rest))
        (.char ']' :: rest) := by
  induction items with
  | nil =>
    intro first t ht fuel rest hfuel
    obtain ⟨fuel, rfl⟩ : ∃ k, fuel = k + 1 := ⟨fuel - 1, by omega⟩
    cases ht with
    | close blank =>
      rw [List.append_assoc, readItemsFrom, List.singleton_append,
        nextItem_close first blank]
      exact agrees_ok [] _
  | cons j items ih =>
    intro first t ht fuel rest hfuel
    obtain ⟨fuel, rfl⟩ : ∃ k, fuel = k + 1 := ⟨fuel - 1, by omega⟩
    cases ht with
    | @item _ lead v u _ _ before value more =>
      have hitem :
          Agrees (c.decode j) (c.read depth (v ++ (u ++ rest))) (u ++ rest) :=
        h value more.terminated (value.skipBlanks_append _) hn
      have hmore := ih more fuel rest (Nat.lt_of_succ_lt_succ hfuel)
      obtain ⟨s, v, rfl, opens⟩ := value.opens
      rw [List.append_assoc, List.append_assoc, readItemsFrom, List.cons_append,
        nextItem_lead before opens.startsValue, List.mapM_cons]
      exact hitem.bind fun x => hmore.bind fun xs => agrees_ok (x :: xs) _

/-- A list is read between its brackets, and everything else refused. -/
theorem list_refuses {α : Type} {c : Codec α} {depth : Nat} {input u : Input}
    {s : Symbol}
    (hi : skipBlanks input = s :: u) (hs : s ≠ .char '[') :
    c.list.read depth input = refuseFound (s :: u) "a sequence" := by
  unfold list
  simp only [hi]
  split
  next heq => cases heq
  next heq => cases heq; exact absurd rfl hs
  next => rfl

/-- A list is one bracket more than its items. -/
theorem list_follows {α : Type} {c : Codec α} {height : Nat}
    (h : c.Follows height) :
    c.list.Follows (height + 1) := by
  intro j t rest input depth hj hr hi hn
  obtain ⟨s, u, rfl, opens⟩ := hj.opens
  cases opens with
  | array =>
    cases hj with
    | array inside =>
      obtain ⟨depth, rfl⟩ : ∃ k, depth = k + 1 := ⟨depth - 1, by omega⟩
      -- one symbol for each item at least, so the fuel that is supplied is
      -- enough
      have hlength := inside.length_lt
      have hitems := readItemsFrom_follows h (Nat.le_of_succ_le_succ hn) inside
        ((u ++ rest).length + 1) rest (by simp only [List.length_append]; omega)
      unfold list
      simp only [hi]
      refine hitems.close fun xs => ?_
      show (do return (xs, ← endList ([] ++ Symbol.char ']' :: rest))) = _
      rw [endList_close blank_nil]
      rfl
  | digit digit =>
    rw [list_refuses hi (ne_of_digit digit rfl)]
    exact agrees_refuseFound _ _ _ _
  | _ =>
    rw [list_refuses hi (by decide)]
    exact agrees_refuseFound _ _ _ _

end Codec

/-! ## Fields -/

namespace Fields

variable {σ τ : Type}

/-- Every field follows with the same number of brackets. -/
def Follow : {σ τ : Type} → Fields σ τ → (height : Nat) → Prop
  | _, _, .nil, _ => True
  | _, _, .cons field rest, height => field.codec.Follows height ∧ rest.Follow height

/-- The field that has a key, if there is one, follows at the value under it. -/
def FollowAt : {σ τ : Type} → Fields σ τ → (height : Nat) → (key : String) →
    Json → Prop
  | _, _, .nil, _, _, _ => True
  | _, _, .cons field rest, height, key, j =>
    (key = field.key → field.codec.FollowsAt height j) ∧ rest.FollowAt height key j

/-- Fields that follow do so at any key and value. -/
theorem Follow.at {fields : Fields σ τ} {height : Nat}
    (h : fields.Follow height) (key : String) (j : Json) :
    fields.FollowAt height key j := by
  induction fields with
  | nil => trivial
  | cons field others ih => exact ⟨fun _ => h.1.at j, ih h.2⟩

/-- Both take items off a list with one result and leave texts of the same
items, which the closing bracket and `rest` follow; or both refuse. -/
def AgreesLeaving {α : Type} (decoded : Except Cause (α × List Json))
    (read : Except Fault (α × Input)) (rest : Input) : Prop :=
  (∃ x surplus first u, SpellsItems first surplus u ∧ decoded = .ok (x, surplus) ∧
      read = .ok (x, u ++ rest)) ∨
    ∃ cause fault, decoded = .error cause ∧ read = .error fault

/-- Making something of what was taken leaves the same items. -/
theorem AgreesLeaving.map {α β : Type} {decoded : Except Cause (α × List Json)}
    {read : Except Fault (α × Input)} {rest : Input}
    (h : AgreesLeaving decoded read rest) (f : α → β) :
    AgreesLeaving (do let (x, items) ← decoded; return (f x, items))
      (do let (x, input) ← read; return (f x, input)) rest := by
  rcases h with ⟨x, surplus, first, u, hu, rfl, rfl⟩ | ⟨cause, fault, rfl, rfl⟩
  · exact Or.inl ⟨f x, surplus, first, u, hu, rfl, rfl⟩
  · exact Or.inr ⟨cause, fault, rfl, rfl⟩

/-- One item after another: what is left of the first is where the second
starts. -/
theorem AgreesLeaving.bind {α β : Type} {decoded : Except Cause α}
    {read : Except Fault (α × Input)} {between rest : Input}
    (h : Agrees decoded read between) {f : α → Except Cause (β × List Json)}
    {g : α × Input → Except Fault (β × Input)}
    (hfg : ∀ x, AgreesLeaving (f x) (g (x, between)) rest) :
    AgreesLeaving (decoded >>= f) (read >>= g) rest := by
  rcases h with ⟨x, rfl, rfl⟩ | ⟨cause, fault, rfl, rfl⟩
  · exact hfg x
  · exact Or.inr ⟨cause, fault, rfl, rfl⟩

/-- Either no field has the key, or the value after the colon is read as it is
decoded. -/
theorem readInto_follows {fields : Fields σ τ} {height depth : Nat}
    {key : String} {j : Json} (h : fields.FollowAt height key j)
    (hn : height ≤ depth) {b b' t : Input} (colon : Blank b) (gap : Blank b')
    (value : Spells j t) {rest : Input} (hr : Terminated rest) (slots : σ) :
    (fields.decodeInto key j slots = none ∧
      fields.readInto key depth slots (b ++ .char ':' :: (b' ++ (t ++ rest))) =
        none) ∨
    ∃ decoded read, fields.decodeInto key j slots = some decoded ∧
      fields.readInto key depth slots (b ++ .char ':' :: (b' ++ (t ++ rest))) =
        some read ∧
      Agrees decoded read rest := by
  induction fields with
  | nil => exact Or.inl ⟨rfl, rfl⟩
  | cons field others ih =>
    obtain ⟨slot, slots⟩ := slots
    unfold decodeInto readInto
    by_cases hkey : key = field.key
    · rw [if_pos hkey, if_pos hkey]
      refine Or.inr ?_
      cases slot with
      -- the key was met before, and neither side looks at the value any more
      | some x => exact ⟨_, _, rfl, rfl, agrees_error _ _ _⟩
      | none =>
        refine ⟨_, _, rfl, rfl, ?_⟩
        have hread : skipBlanks (b' ++ (t ++ rest)) = t ++ rest := by
          rw [gap.skipBlanks_append, value.skipBlanks_append]
        rw [readColon_blank colon]
        exact (h.1 hkey value hr hread hn).map fun x => (some x, slots)
    · rw [if_neg hkey, if_neg hkey]
      rcases ih h.2 slots with ⟨hd, hread⟩ | ⟨decoded, read, hd, hread, hagree⟩
      · rw [hd, hread]
        exact Or.inl ⟨rfl, rfl⟩
      · rw [hd, hread]
        exact Or.inr ⟨_, _, rfl, rfl, hagree.map fun slots => (slot, slots)⟩

/-- Fields take the items that they find, the same ones on both sides, and leave
the same ones. -/
theorem readItems_follows {fields : Fields σ τ} {height depth : Nat}
    (h : fields.Follow height) (hn : height ≤ depth) (shape : String)
    (rest : Input) {items : List Json} {t : Input} :
    ∀ {first : Bool} (index : Nat), SpellsItems first items t →
      AgreesLeaving (fields.decodeItems shape index items)
        (fields.readItems shape depth first index (t ++ rest)) rest := by
  induction fields generalizing items t with
  | nil =>
    intro first index inside
    exact Or.inl ⟨(), items, first, t, inside, rfl, rfl⟩
  | cons field others ih =>
    intro first index inside
    cases inside with
    | close blank =>
      have hothers :=
        ih h.2 (index + 1) (SpellsItems.close blank_nil : SpellsItems first [] _)
      rw [List.append_assoc, List.singleton_append]
      unfold decodeItems readItems
      rw [nextItem_close first blank]
      -- no item is left for this field, and so none for the others
      cases field.default with
      | none => exact Or.inr ⟨_, _, rfl, rfl⟩
      | some x => exact hothers.map fun xs => (x, xs)
    | @item _ lead v u _ _ before value more =>
      have hitem : Agrees (field.codec.decode _)
          (field.codec.read depth (v ++ (u ++ rest)))
          (u ++ rest) :=
        h.1 value more.terminated (value.skipBlanks_append _) hn
      have hothers := ih h.2 (index + 1) more
      obtain ⟨s, v, rfl, opens⟩ := value.opens
      unfold decodeItems readItems
      rw [List.append_assoc, List.append_assoc, List.cons_append,
        nextItem_lead before opens.startsValue]
      exact AgreesLeaving.bind hitem fun x => hothers.map fun xs => (x, xs)

end Fields

/-! ## Records -/

namespace Record

variable {σ τ : Type}

/-- The members of an object fill the slots alike. -/
theorem readMembersFrom_follows {r : Record σ τ} {height depth : Nat}
    {members : List (String × Json)}
    (h : ∀ member ∈ members, r.fields.FollowAt height member.1 member.2)
    (hn : height ≤ depth) (rest : Input) :
    ∀ {first : Bool} {t : Input} (fuel : Nat) (slots : σ),
      SpellsMembers first members t →
      members.length < fuel →
      Agrees (r.decodeMembers members slots)
        (r.readMembersFrom depth fuel first slots (t ++ rest)) rest := by
  induction members with
  | nil =>
    intro first t fuel slots inside hfuel
    obtain ⟨fuel, rfl⟩ : ∃ k, fuel = k + 1 := ⟨fuel - 1, by omega⟩
    cases inside with
    | close blank =>
      rw [List.append_assoc, List.singleton_append, readMembersFrom,
        nextKey_close first blank]
      exact agrees_ok slots rest
  | cons member members ih =>
    intro first t fuel slots inside hfuel
    obtain ⟨fuel, rfl⟩ : ∃ k, fuel = k + 1 := ⟨fuel - 1, by omega⟩
    obtain ⟨hmember, hmembers⟩ := List.forall_mem_cons.mp h
    cases inside with
    | @member _ lead k b b' v u key j _ before name colon gap value more =>
      have hmore : ∀ slots, Agrees (r.decodeMembers members slots)
          (r.readMembersFrom depth fuel false slots (u ++ rest)) rest :=
        fun slots => ih hmembers fuel slots more (Nat.lt_of_succ_lt_succ hfuel)
      have hend : Terminated (u ++ rest) := more.terminated
      have hinto := Fields.readInto_follows hmember hn colon gap value hend slots
      simp only [List.append_assoc, List.cons_append]
      rw [readMembersFrom, nextKey_lead before name]
      -- some field has the key, or it depends on the record what becomes of the
      -- value
      unfold decodeMembers
      rcases hinto with ⟨hd, hread⟩ | ⟨decoded, read, hd, hread, hagree⟩
      · rw [hd]
        simp only [hread, bind, Except.bind]
        cases r.strict with
        | true => exact agrees_error _ _ _
        | false =>
          have hskip : Json.skipValue (b' ++ (v ++ (u ++ rest))) = .ok (u ++ rest) :=
            skipValue_spells value hend
              (by rw [gap.skipBlanks_append, value.skipBlanks_append])
          rw [if_neg Bool.false_ne_true, if_neg Bool.false_ne_true,
            readColon_blank colon]
          simp only [hskip]
          exact hmore slots
      · rw [hd]
        simp only [hread, bind, Except.bind]
        exact hagree.bind fun slots => hmore slots

/-- A record is read between its brackets, and everything else refused. -/
theorem read_refuses {r : Record σ τ} {depth : Nat} {input u : Input} {s : Symbol}
    (hi : skipBlanks input = s :: u) (hs : s ≠ .char '[') (hs' : s ≠ .char '\x7b') :
    r.read depth input = refuseFound (s :: u) r.expected := by
  unfold read
  simp only [hi]
  split
  next heq => cases heq
  next heq => cases heq; exact absurd rfl hs
  next heq => cases heq; exact absurd rfl hs'
  next => rfl

/-- A record in square brackets is read field by field. -/
theorem read_array {r : Record σ τ} {depth : Nat} {input u : Input}
    (hi : skipBlanks input = .char '[' :: u) :
    r.read (depth + 1) input =
      (do
        let (x, rest) ← r.fields.readItems r.shape depth true 0 u
        return (x, ← endList rest)) := by
  unfold read
  generalize skipBlanks input = found at hi ⊢
  subst hi
  rfl

/-- A record in curly brackets is read member by member, and finished at the
end. -/
theorem read_object {r : Record σ τ} {depth : Nat} {input u : Input}
    (hi : skipBlanks input = .char '\x7b' :: u) :
    r.read (depth + 1) input =
      (do
        let (slots, rest) ← r.readMembersFrom depth (u.length + 1) true
          r.fields.empty u
        match r.fields.finish slots with
        | .ok x => return (x, rest)
        | .error cause => .error (.here rest cause)) := by
  unfold read
  generalize skipBlanks input = found at hi ⊢
  subst hi
  rfl

/-- What is left of a list when all its fields are taken has to be its end. -/
theorem endList_follows {α : Type} {surplus : List Json} {first : Bool}
    {u : Input} (h : SpellsItems first surplus u) (rest : Input) (x : α)
    (cause : Cause) :
    Agrees (match surplus with | [] => .ok x | _ => .error cause)
      (do return (x, ← endList (u ++ rest))) rest := by
  cases h with
  | close blank =>
    rw [List.append_assoc, List.singleton_append, endList_close blank]
    exact agrees_ok x rest
  | @item _ _ _ w _ _ before value more =>
    obtain ⟨s, v, rfl, opens⟩ := value.opens
    obtain ⟨fault, hfault⟩ :=
      endList_lead before opens.startsValue (v ++ (w ++ rest))
    rw [List.append_assoc, List.append_assoc, List.cons_append, hfault]
    exact agrees_error cause fault rest

/-- An object is read as it is decoded if the fields follow at its members. -/
theorem codec_followsAt_object {r : Record σ τ} {height : Nat}
    {members : List (String × Json)}
    (h : ∀ member ∈ members, r.fields.FollowAt height member.1 member.2) :
    r.codec.FollowsAt (height + 1) (.object members) := by
  intro t rest input depth hj hr hi hn
  obtain ⟨depth, rfl⟩ : ∃ k, depth = k + 1 := ⟨depth - 1, by omega⟩
  cases hj with
  | @object _ u inside =>
    have hlength := inside.length_lt
    have hmembers := readMembersFrom_follows h (Nat.le_of_succ_le_succ hn) rest
      ((u ++ rest).length + 1) r.fields.empty inside
      (by simp only [List.length_append]; omega)
    show Agrees (r.decode (.object members)) (r.read (depth + 1) input) rest
    rw [List.cons_append] at hi
    rw [read_object hi, decode]
    refine hmembers.bind fun slots => ?_
    show Agrees (r.fields.finish slots)
      (match r.fields.finish slots with
        | .ok x => .ok (x, rest)
        | .error cause => .error (.here rest cause)) rest
    cases r.fields.finish slots with
    | ok x => exact agrees_ok x rest
    | error cause => exact agrees_error _ _ _

/-- **Records follow**: one more bracket is needed than their fields need. -/
theorem codec_follows {r : Record σ τ} {height : Nat}
    (h : r.fields.Follow height) :
    r.codec.Follows (height + 1) := by
  intro j t rest input depth hj hr hi hn
  show Agrees (r.decode j) (r.read depth input) rest
  obtain ⟨s, u, rfl, opens⟩ := hj.opens
  cases opens with
  | object => exact codec_followsAt_object (fun member _ =>
      h.at member.1 member.2) hj hr hi hn
  | array =>
    obtain ⟨depth, rfl⟩ : ∃ k, depth = k + 1 := ⟨depth - 1, by omega⟩
    rw [List.cons_append] at hi
    cases hj with
    | array inside =>
      rw [read_array hi, decode]
      rcases Fields.readItems_follows h (Nat.le_of_succ_le_succ hn) r.shape rest
        0 inside with
        ⟨xs, surplus, first, v, hv, hd, hread⟩ | ⟨cause, fault, hd, hread⟩
      · have hend := endList_follows hv rest xs
        rw [hd, hread]
        -- only one of the two sides counts the surplus, but both refuse it
        cases surplus with
        | nil => exact hend (.invalidLength 0 "")
        | cons => exact hend _
      · rw [hd, hread]
        exact agrees_error cause fault rest
  | digit digit =>
    rw [read_refuses hi (Codec.ne_of_digit digit rfl) (Codec.ne_of_digit digit rfl)]
    exact agrees_refuseFound _ _ _ _
  | _ =>
    rw [read_refuses hi (by decide) (by decide)]
    exact agrees_refuseFound _ _ _ _

end Record

/-! ## Documents -/

/-- A document is what a text of a value decodes to, with any blanks around
it. -/
theorem Codec.Follows.readDocument_iff {α : Type} {c : Codec α} {height : Nat}
    (h : c.Follows height) (hn : height ≤ maxDepth) {b t b' : Input} {j : Json}
    (before : Blank b) (value : Spells j t) (after : Blank b') (x : α) :
    c.readDocument (b ++ (t ++ b')) = .ok x ↔ c.decode j = .ok x := by
  have hafter : Terminated b' := by
    rw [← List.append_nil b']
    exact after.terminated terminated_nil
  have hskip : skipBlanks (b ++ (t ++ b')) = t ++ b' := by
    rw [before.skipBlanks_append, value.skipBlanks_append]
  have hend : skipBlanks b' = [] := by
    rw [← List.append_nil b', after.skipBlanks_append]
    rfl
  unfold Codec.readDocument Json.readDocument
  rcases h value hafter hskip hn with ⟨y, hd, hread⟩ | ⟨cause, fault, hd, hread⟩
  · rw [hd, hread]
    simp only [bind, Except.bind, hend]
    constructor <;>
    · intro hx
      cases hx
      rfl
  · rw [hd, hread]
    constructor <;> (intro hx; cases hx)

end DetectorBench
