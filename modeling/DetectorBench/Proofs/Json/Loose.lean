import DetectorBench.Proofs.Json.Grammar

/-!
# Loose texts

A value that nobody asked for is passed over without being built, and more
texts are passed over than are texts of a value. `Loose t` says which: brackets,
words, numbers and escapes are as they have to be, but a code unit may be half
of a pair, and between the quotation marks of a string or of a key a byte may
stand that is part of no character. It may stand nowhere else.

`Spells.loose` : every text of a value is loose.

How items and members stand between brackets is said apart from what they are
(`ItemTexts`, `MemberTexts`).
-/

namespace DetectorBench.Json

/-! ## Inside brackets -/

/-- Texts as the items of an array, with its closing bracket. -/
inductive ItemTexts : (first : Bool) → List Input → Input → Prop where
  | close {first : Bool} {b : Input} (blank : Blank b) :
    ItemTexts first [] (b ++ [.char ']'])
  | item {first : Bool} {lead t u : Input} {items : List Input}
    (before : Lead first lead) (rest : ItemTexts false items u) :
    ItemTexts first (t :: items) (lead ++ (t ++ u))

/-- Texts as the keys and the values of an object, with its closing brace. -/
inductive MemberTexts : (first : Bool) → List (Input × Input) → Input → Prop where
  | close {first : Bool} {b : Input} (blank : Blank b) :
    MemberTexts first [] (b ++ [.char '\x7d'])
  | member {first : Bool} {lead k b b' t u : Input}
    {members : List (Input × Input)} (before : Lead first lead)
    (colon : Blank b) (gap : Blank b') (rest : MemberTexts false members u) :
    MemberTexts first ((k, t) :: members)
      (lead ++ (k ++ (b ++ .char ':' :: (b' ++ (t ++ u)))))

/-- What follows an item ends the item. -/
theorem ItemTexts.terminated {items : List Input} {t rest : Input}
    (h : ItemTexts false items t) : Terminated (t ++ rest) := by
  cases h with
  | close blank =>
    rw [List.append_assoc]
    exact blank.terminated
      (terminated_cons (by decide) (by decide) (by decide) (by decide))
  | item before rest =>
    rw [List.append_assoc]
    exact before.terminated

/-- What follows a member ends its value. -/
theorem MemberTexts.terminated {members : List (Input × Input)} {t rest : Input}
    (h : MemberTexts false members t) : Terminated (t ++ rest) := by
  cases h with
  | close blank =>
    rw [List.append_assoc]
    exact blank.terminated
      (terminated_cons (by decide) (by decide) (by decide) (by decide))
  | member before colon gap rest =>
    rw [List.append_assoc]
    exact before.terminated

/-- There is a bracket at least. -/
theorem ItemTexts.length_pos {first : Bool} {items : List Input} {t : Input}
    (h : ItemTexts first items t) : 0 < t.length := by
  induction h with
  | close => simp
  | item _ _ ih =>
    simp only [List.length_append]
    omega

/-- There is a brace at least. -/
theorem MemberTexts.length_pos {first : Bool} {members : List (Input × Input)}
    {t : Input} (h : MemberTexts first members t) : 0 < t.length := by
  cases h with
  | close => simp
  | member =>
    simp only [List.length_append, List.length_cons]
    omega

/-! ## Values that are passed over -/

/-- The symbols of a string that is passed over, after the opening quotation
mark and up to the closing one. A byte that is part of no character may be one
of them, but not in an escape. -/
inductive LooseChars : Input → Prop where
  | close : LooseChars [.char '"']
  | plain {c : Char} {t : Input} (quote : c ≠ '"') (slash : c ≠ '\\')
    (control : 0x20 ≤ c.toNat) (rest : LooseChars t) : LooseChars (.char c :: t)
  | stray {t : Input} (rest : LooseChars t) : LooseChars (.stray :: t)
  | short {e c : Char} {t : Input} (escape : shortEscape? e = some c)
    (rest : LooseChars t) : LooseChars (.char '\\' :: .char e :: t)
  | code {n : Nat} {q t : Input} (quad : Quad n q) (rest : LooseChars t) :
    LooseChars (.char '\\' :: .char 'u' :: (q ++ t))

/-- A string that is passed over. -/
inductive LooseString : Input → Prop where
  | quoted {t : Input} (chars : LooseChars t) : LooseString (.char '"' :: t)

/-- The texts that are passed over where a value is expected. -/
inductive Loose : Input → Prop where
  | null : Loose (symbols ['n', 'u', 'l', 'l'])
  | true : Loose (symbols ['t', 'r', 'u', 'e'])
  | false : Loose (symbols ['f', 'a', 'l', 's', 'e'])
  | number {t : Input} (numeral : Numeral t) : Loose t
  | string {t : Input} (chars : LooseString t) : Loose t
  | array {items : List Input} {t : Input}
    (inside : ItemTexts Bool.true items t) (values : ∀ u ∈ items, Loose u) :
    Loose (.char '[' :: t)
  | object {members : List (Input × Input)} {t : Input}
    (inside : MemberTexts Bool.true members t)
    (keys : ∀ m ∈ members, LooseString m.1)
    (values : ∀ m ∈ members, Loose m.2) :
    Loose (.char '\x7b' :: t)

/-- A numeral starts with a digit or the sign. -/
theorem Numeral.starts {t : Input} (h : Numeral t) :
    ∃ s u, t = s :: u ∧ StartsValue s := by
  cases h with
  | negative => exact ⟨_, _, rfl, rfl, by decide, by decide, by decide, by decide⟩
  | positive whole =>
    obtain ⟨s, u, rfl, hs⟩ := whole.starts
    exact ⟨s, _, rfl, startsValue_of_digit hs⟩

/-- A loose text starts where a value can start. -/
theorem Loose.starts {t : Input} (h : Loose t) :
    ∃ s u, t = s :: u ∧ StartsValue s := by
  cases h with
  | number numeral => exact numeral.starts
  | string chars =>
    cases chars
    exact ⟨_, _, rfl, rfl, by decide, by decide, by decide, by decide⟩
  | _ => exact ⟨_, _, rfl, rfl, by decide, by decide, by decide, by decide⟩

theorem Loose.length_pos {t : Input} (h : Loose t) : 0 < t.length := by
  obtain ⟨s, u, rfl, -⟩ := h.starts
  exact Nat.succ_pos _

/-! ## Texts of values are loose -/

/-- The characters of a string may be passed over. -/
theorem SpellsChars.loose {cs : List Char} {t : Input} (h : SpellsChars cs t) :
    LooseChars t := by
  induction h with
  | close => exact .close
  | plain quote slash control _ ih => exact .plain quote slash control ih
  | short escape _ ih => exact .short escape ih
  | code quad _ _ _ ih => exact .code quad ih
  | pair first second _ _ _ ih => exact .code first (.code second ih)

theorem SpellsString.loose {s : String} {t : Input} (h : SpellsString s t) :
    LooseString t := by
  cases h with
  | quoted chars => exact .quoted chars.loose

mutual

/-- A text of a value may be passed over. -/
theorem Spells.loose {j : Json} {t : Input} : Spells j t → Loose t
  | .null => .null
  | .true => .true
  | .false => .false
  | .number numeral _ => .number numeral
  | .string chars => .string chars.loose
  | .array inside =>
    let ⟨_, texts, values⟩ := inside.loose
    .array texts values
  | .object inside =>
    let ⟨_, texts, keys, values⟩ := inside.loose
    .object texts keys values

theorem SpellsItems.loose {first : Bool} {items : List Json} {t : Input} :
    SpellsItems first items t →
      ∃ texts, ItemTexts first texts t ∧ ∀ u ∈ texts, Loose u
  | .close blank => ⟨[], .close blank, List.forall_mem_nil _⟩
  | .item before value rest =>
    let ⟨_, texts, values⟩ := rest.loose
    ⟨_, .item before texts, List.forall_mem_cons.mpr ⟨value.loose, values⟩⟩

theorem SpellsMembers.loose {first : Bool} {members : List (String × Json)}
    {t : Input} : SpellsMembers first members t →
      ∃ texts, MemberTexts first texts t ∧ (∀ m ∈ texts, LooseString m.1) ∧
        ∀ m ∈ texts, Loose m.2
  | .close blank => ⟨[], .close blank, List.forall_mem_nil _, List.forall_mem_nil _⟩
  | .member before name colon gap value rest =>
    let ⟨_, texts, keys, values⟩ := rest.loose
    ⟨_, .member before colon gap texts,
      List.forall_mem_cons.mpr ⟨name.loose, keys⟩,
      List.forall_mem_cons.mpr ⟨value.loose, values⟩⟩

end

end DetectorBench.Json
