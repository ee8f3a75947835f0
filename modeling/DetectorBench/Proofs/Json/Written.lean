import DetectorBench.Proofs.Json.Grammar

/-!
# Written values are texts of the grammar

Whatever the layout, `write` gives a text of the value (`write_spells`): the
gaps are blanks, the escapes resolve to the characters that they stand for, and
the digits of an integer are a numeral. For numbers that are no integers this is
not claimed; `Exact` says that there are none. `Spelled` is what a text of a
value is as a source, with blanks around it.
-/

namespace DetectorBench.Json

/-! ## Digits -/

theorem digit?_char (c : Char) :
    (Symbol.char c).digit? = if '0' ≤ c ∧ c ≤ '9' then
      some (c.toNat - '0'.toNat) else none := rfl

/-- A character that is a digit is read as its value. -/
theorem digit?_of_isDigit {c : Char} (h : c.isDigit = true) :
    (Symbol.char c).digit? = some (c.toNat - '0'.toNat) := by
  rw [digit?_char, if_pos]
  simpa [Char.isDigit, Char.le_def, UInt32.le_iff_toNat_le] using h

/-- A number is written with digits. -/
theorem digits_symbols (n : Nat) : Digits (symbols (Text.digits n)) := by
  refine ⟨?_, ?_⟩
  · intro h
    exact Nat.toDigits_ne_nil (List.map_eq_nil_iff.mp h)
  · intro s hs
    obtain ⟨c, hc, rfl⟩ := List.mem_map.mp hs
    rw [digit?_of_isDigit (Nat.isDigit_of_mem_toDigits (by omega) (by omega) hc)]
    rfl

/-- Only zero is written with a zero in front. -/
theorem head?_digits {n : Nat} (hn : n ≠ 0) :
    (Text.digits n).head? ≠ some '0' := by
  unfold Text.digits
  induction n using Nat.strongRecOn with
  | _ n ih =>
    rcases Nat.lt_or_ge n 10 with hlt | hge
    · rw [Nat.toDigits_of_lt_base hlt]
      simp [hn]
    · have hfront := ih (n / 10) (by omega) (by omega)
      rw [Nat.toDigits_of_base_le (by omega) hge]
      obtain ⟨c, cs, hcs⟩ :=
        List.exists_cons_of_ne_nil (Nat.toDigits_ne_nil (b := 10) (n := n / 10))
      rw [hcs] at hfront ⊢
      exact hfront

/-- It is written without a zero in front. -/
theorem wholePart_digits (n : Nat) : WholePart (symbols (Text.digits n)) := by
  by_cases hn : n = 0
  · subst hn
    exact Or.inl rfl
  · refine Or.inr ⟨digits_symbols n, ?_⟩
    intro h
    have hd := head?_digits hn
    cases ht : Text.digits n with
    | nil => exact Nat.toDigits_ne_nil ht
    | cons c cs =>
      rw [ht] at h hd
      simp only [symbols, List.map_cons, List.head?_cons, Option.some.injEq,
        Symbol.char.injEq] at h
      exact hd (by rw [h]; rfl)

/-- The text of an integer is a numeral. -/
theorem numeral_int (i : Int) : Numeral (symbols (Number.int i).text) := by
  have whole := wholePart_digits i.natAbs
  rw [Number.text]
  split
  next =>
    have numeral := Numeral.negative whole .none .none
    simpa [symbols_cons] using numeral
  next =>
    have numeral := Numeral.positive whole .none .none
    simpa using numeral

/-! ## Strings -/

/-- The hexadecimal digit of a number stands for it. -/
theorem hexDigit?_digitChar {d : Nat} (h : d < 16) :
    (Symbol.char (Nat.digitChar d)).hexDigit? = some d := by
  have all : ∀ d, d < 16 → (Symbol.char (Nat.digitChar d)).hexDigit? =
      some d := by decide
  exact all d h

/-- A control character is escaped by its code. -/
theorem spells_control {c : Char} {cs : List Char} {t : Input}
    (hc : c.toNat < 0x20) (rest : SpellsChars cs t) :
    SpellsChars (c :: cs)
      (symbols ['\\', 'u', '0', '0', Nat.digitChar (c.toNat / 16),
        Nat.digitChar (c.toNat % 16)] ++ t) := by
  have zero : (Symbol.char '0').hexDigit? = some 0 := by decide
  -- below thirty-two the first two digits are zeros
  have quad :=
    Quad.digits zero zero (hexDigit?_digitChar (d := c.toNat / 16) (by omega))
    (hexDigit?_digitChar (d := c.toNat % 16) (by omega))
  have hn : ((0 * 16 + 0) * 16 + c.toNat / 16) * 16 + c.toNat % 16 =
      c.toNat := by omega
  rw [hn] at quad
  have high : isHighSurrogate c.toNat = false := by
    simp [isHighSurrogate]
    omega
  have low : isLowSurrogate c.toNat = false := by
    simp [isLowSurrogate]
    omega
  have code := SpellsChars.code quad high low rest
  rw [Char.ofNat_toNat] at code
  exact code

/-- An escaped character is a text of that character. -/
theorem escapeChar_spells (c : Char) {cs : List Char} {t : Input}
    (rest : SpellsChars cs t) :
    SpellsChars (c :: cs) (symbols (escapeChar c) ++ t) := by
  unfold escapeChar
  split
  next h => subst h; exact .short (by decide) rest
  next hquote =>
  split
  next h => subst h; exact .short (by decide) rest
  next hslash =>
  split
  next h => subst h; exact .short (by decide) rest
  split
  next h => subst h; exact .short (by decide) rest
  split
  next h => subst h; exact .short (by decide) rest
  split
  next h => subst h; exact .short (by decide) rest
  split
  next h => subst h; exact .short (by decide) rest
  split
  next h => exact spells_control h rest
  next h => exact .plain hquote hslash (Nat.le_of_not_lt h) rest

/-- Characters that are escaped one by one spell the text. -/
theorem flatMap_escapeChar_spells (cs : List Char) :
    SpellsChars cs (symbols (cs.flatMap escapeChar ++ ['"'])) := by
  induction cs with
  | nil => exact .close
  | cons c cs ih =>
    rw [List.flatMap_cons, List.append_assoc, symbols_append]
    exact escapeChar_spells c ih

/-- **A string is written as a text of it.** -/
theorem writeString_spells (s : String) :
    SpellsString s (symbols (writeString s)) := by
  have quoted := SpellsString.quoted (flatMap_escapeChar_spells s.toList)
  rw [String.ofList_toList] at quoted
  exact quoted

/-! ## Values -/

mutual

/-- Every number of a value is an integer of 64 bits. -/
def Exact : Json → Prop
  | .number n => ∃ i, n = .int i ∧ InRange i
  | .array items => ExactItems items
  | .object members => ExactMembers members
  | _ => True

def ExactItems : List Json → Prop
  | [] => True
  | x :: xs => Exact x ∧ ExactItems xs

def ExactMembers : List (String × Json) → Prop
  | [] => True
  | (_, v) :: rest => Exact v ∧ ExactMembers rest

end

/-- After the colon a layout writes blanks or nothing. -/
theorem blank_colon (layout : Layout) :
    ∃ b, symbols layout.colon = .char ':' :: b ∧ Blank b := by
  cases layout with
  | compact => exact ⟨[], rfl, blank_nil⟩
  | pretty depth =>
    refine ⟨[.char ' '], rfl, ?_⟩
    intro s hs
    rw [List.mem_singleton.mp hs]
    rfl

/-- What stands before an item that a layout writes. -/
theorem lead_gap (layout : Layout) : Lead true (symbols layout.gap) :=
  .first (blank_gap layout)

/-- So it does after a comma. -/
theorem lead_comma (layout : Layout) :
    Lead false (.char ',' :: symbols layout.gap) :=
  .next blank_nil (blank_gap layout)

/-- A member that a layout writes. -/
theorem member_spells {first : Bool} {lead t u : Input} (key : String)
    {j : Json} {members : List (String × Json)} (layout : Layout)
    (before : Lead first lead) (value : Spells j t)
    (rest : SpellsMembers false members u) :
    SpellsMembers first ((key, j) :: members)
      (lead ++ (symbols (writeString key) ++
        (symbols layout.colon ++ (t ++ u)))) := by
  obtain ⟨b, hcolon, hb⟩ := blank_colon layout
  rw [hcolon]
  exact .member before (writeString_spells key) blank_nil hb value rest

mutual

/-- **What is written is a text of the value**, in either layout. -/
theorem write_spells (layout : Layout) :
    ∀ (j : Json), Exact j → Spells j (symbols (j.write layout))
  | .null, _ => .null
  | .bool true, _ => .true
  | .bool false, _ => .false
  | .number n, h => by
    obtain ⟨i, rfl, hi⟩ := h
    refine .number (numeral_int i) ?_
    intro i' heq
    cases heq
    exact ⟨hi, rfl⟩
  | .string s, _ => .string (writeString_spells s)
  | .array [], _ => .array (.close blank_nil)
  | .array (x :: xs), h => by
    have head := write_spells layout.inner x h.1
    have tail := writeItems_spells layout.inner xs h.2 (blank_gap layout)
    have inside := SpellsItems.item (lead_gap layout.inner) head tail
    simpa [write, symbols_append, symbols_cons, symbols_nil] using Spells.array
      inside
  | .object [], _ => .object (.close blank_nil)
  | .object ((k, v) :: rest), h => by
    have head := write_spells layout.inner v h.1
    have tail := writeMembers_spells layout.inner rest h.2 (blank_gap layout)
    have inside := member_spells k layout (lead_gap layout.inner) head tail
    simpa [write, symbols_append, symbols_cons, symbols_nil] using Spells.object
      inside

/-- The items after the first, up to the closing bracket. -/
theorem writeItems_spells (layout : Layout) :
    ∀ (xs : List Json), ExactItems xs → ∀ {b : Input}, Blank b →
      SpellsItems false xs (symbols (writeItems layout xs) ++ (b ++ [.char ']']))
  | [], _, b, hb => .close hb
  | x :: xs, h, b, hb => by
    have head := write_spells layout x h.1
    have tail := writeItems_spells layout xs h.2 hb
    have inside := SpellsItems.item (lead_comma layout) head tail
    simpa [writeItems, symbols_append, symbols_cons] using inside

/-- The members after the first, up to the closing brace. -/
theorem writeMembers_spells (layout : Layout) :
    ∀ (members : List (String × Json)), ExactMembers members → ∀ {b : Input},
      Blank b → SpellsMembers false members
        (symbols (writeMembers layout members) ++ (b ++ [.char '\x7d']))
  | [], _, b, hb => .close hb
  | (k, v) :: rest, h, b, hb => by
    have head := write_spells layout v h.1
    have tail := writeMembers_spells layout rest h.2 hb
    have inside := member_spells k layout (lead_comma layout) head tail
    simpa [writeMembers, symbols_append, symbols_cons] using inside

end

/-! ## Sources -/

/-- A source is a text of a value, with any blanks around it. -/
def Spelled (j : Json) (source : String) : Prop :=
  ∃ b t b', Blank b ∧ Spells j t ∧ Blank b' ∧ symbolsOfText source = b ++ (t ++ b')

/-- The compact text of a value is a text of it. -/
theorem spelled_compact {j : Json} (exact : Exact j) : j.Spelled j.compact := by
  refine ⟨[], symbols (j.write .compact), [], blank_nil,
    write_spells .compact j exact, blank_nil, ?_⟩
  show (String.ofList (j.write .compact)).toList.map Symbol.char = _
  rw [String.toList_ofList, List.append_nil]
  rfl

end DetectorBench.Json
