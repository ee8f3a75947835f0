import DetectorBench.Proofs.Json.Loose

/-!
# Where bytes stand that are part of no character

The readers decode a document to symbols before anything else, and a byte that
is part of no character is a symbol like any other. `StraysIn part t` says that
it may only be found in certain parts of `t`: each such byte has something
before and behind it with which it makes up a part of that kind.

> `Loose.straysIn`: in a value that is passed over, such bytes stand in strings.

In what is read there is none: neither in strings (`SpellsString.stray_notMem`)
nor in numbers, nor between tokens.
-/

namespace DetectorBench.Json

variable {part : Input → Prop} {t u : Input}

/-! ## Parts of a text -/

/-- Each byte of a text that is part of no character stands inside a part of the
text of some kind. -/
def StraysIn (part : Input → Prop) (t : Input) : Prop :=
  ∀ ⦃before after : Input⦄, t = before ++ .stray :: after →
    ∃ outer inner inner' outer', before = outer ++ inner ∧
      after = inner' ++ outer' ∧ part (inner ++ .stray :: inner')

/-- Where there is no such byte, there is nothing to ask. -/
theorem straysIn_of_notMem (h : .stray ∉ t) : StraysIn part t := by
  rintro before after rfl
  exact absurd (List.mem_append_right _ List.mem_cons_self) h

/-- A text may be such a part itself. -/
theorem StraysIn.of_part (h : part t) : StraysIn part t := by
  rintro before after rfl
  exact ⟨[], before, after, [], rfl, (List.append_nil after).symm, h⟩

/-- A byte in two texts is in one of them. -/
theorem StraysIn.append (h : StraysIn part t) (h' : StraysIn part u) :
    StraysIn part (t ++ u) := by
  intro before after heq
  rcases List.append_eq_append_iff.mp heq with ⟨c, rfl, hu⟩ | ⟨c, ht, hafter⟩
  · obtain ⟨outer, inner, inner', outer', rfl, rfl, hpart⟩ := h' hu
    exact ⟨t ++ outer, inner, inner', outer', (List.append_assoc ..).symm, rfl, hpart⟩
  · cases c with
    | nil =>
      -- the byte is the first of the second text
      obtain ⟨outer, inner, inner', outer', hnil, rfl, hpart⟩ :=
        @h' [] after hafter.symm
      obtain ⟨rfl, rfl⟩ := List.append_eq_nil_iff.mp hnil.symm
      exact ⟨before, [], inner', outer', (List.append_nil before).symm, rfl, hpart⟩
    | cons s c =>
      obtain ⟨rfl, rfl⟩ := List.cons.inj hafter
      obtain ⟨outer, inner, inner', outer', rfl, rfl, hpart⟩ := h ht
      exact ⟨outer, inner, inner', outer' ++ u, rfl, List.append_assoc .., hpart⟩

/-- A character in front changes nothing. -/
theorem StraysIn.cons (c : Char) (h : StraysIn part t) :
    StraysIn part (.char c :: t) :=
  StraysIn.append (t := [.char c]) (straysIn_of_notMem (by simp)) h

/-! ## Between tokens -/

/-- Such a byte is no blank. -/
theorem Blank.stray_notMem (h : Blank t) : .stray ∉ t := by
  intro hmem
  cases h _ hmem

/-- No such byte stands before an item. -/
theorem Lead.stray_notMem {first : Bool} (h : Lead first t) : .stray ∉ t := by
  cases h with
  | first blank => exact blank.stray_notMem
  | next before after => simp [before.stray_notMem, after.stray_notMem]

/-- In an array such bytes stand where they stand in its items. -/
theorem ItemTexts.straysIn {first : Bool} {items : List Input}
    (h : ItemTexts first items t) (hitems : ∀ u ∈ items, StraysIn part u) :
    StraysIn part t := by
  induction h with
  | close blank =>
    exact .append (straysIn_of_notMem blank.stray_notMem)
      (straysIn_of_notMem (by simp))
  | item before _ ih =>
    obtain ⟨hitem, hmore⟩ := List.forall_mem_cons.mp hitems
    exact .append (straysIn_of_notMem before.stray_notMem)
      (hitem.append (ih hmore))

/-- In an object they stand where they stand in its keys and values. -/
theorem MemberTexts.straysIn {first : Bool} {members : List (Input × Input)}
    (h : MemberTexts first members t)
    (hmembers : ∀ m ∈ members, StraysIn part m.1 ∧ StraysIn part m.2) :
    StraysIn part t := by
  induction h with
  | close blank =>
    exact .append (straysIn_of_notMem blank.stray_notMem)
      (straysIn_of_notMem (by simp))
  | member before colon gap _ ih =>
    obtain ⟨⟨hkey, hvalue⟩, hmore⟩ := List.forall_mem_cons.mp hmembers
    exact .append (straysIn_of_notMem before.stray_notMem)
      (hkey.append (.append (straysIn_of_notMem colon.stray_notMem)
        (.cons ':' (.append (straysIn_of_notMem gap.stray_notMem)
          (hvalue.append (ih hmore))))))

/-! ## Numbers and strings -/

/-- Such a byte is no digit. -/
theorem Digits.stray_notMem (h : Digits t) : .stray ∉ t := by
  intro hmem
  cases h.2 _ hmem

theorem WholePart.stray_notMem (h : WholePart t) : .stray ∉ t := by
  rcases h with rfl | ⟨digits, -⟩
  · simp
  · exact digits.stray_notMem

theorem FractionPart.stray_notMem (h : FractionPart t) : .stray ∉ t := by
  cases h with
  | none => simp
  | some digits => simp [digits.stray_notMem]

theorem ExponentPart.stray_notMem (h : ExponentPart t) : .stray ∉ t := by
  cases h with
  | none => simp
  | some _ signed digits =>
    rcases signed with rfl | rfl | rfl <;> simp [digits.stray_notMem]

/-- No such byte stands in a number. -/
theorem Numeral.stray_notMem (h : Numeral t) : .stray ∉ t := by
  cases h with
  | positive whole fraction exponent | negative whole fraction exponent =>
    simp [whole.stray_notMem, fraction.stray_notMem, exponent.stray_notMem]

/-- Such a byte is no hexadecimal digit. -/
theorem Quad.stray_notMem {n : Nat} (h : Quad n t) : .stray ∉ t := by
  obtain ⟨ha, hb, hc, hd⟩ := h
  intro hmem
  simp only [List.mem_cons, List.not_mem_nil, or_false] at hmem
  rcases hmem with rfl | rfl | rfl | rfl
  · cases ha
  · cases hb
  · cases hc
  · cases hd

theorem SpellsChars.stray_notMem {cs : List Char} (h : SpellsChars cs t) :
    .stray ∉ t := by
  induction h with
  | close => simp
  | plain _ _ _ _ ih | short _ _ ih => simpa using ih
  | code first _ _ _ ih => simpa using ⟨first.stray_notMem, ih⟩
  | pair first second _ _ _ ih =>
    simpa using ⟨first.stray_notMem, second.stray_notMem, ih⟩

/-- A string that is read is stricter than one that is passed over: no such byte
stands in it. -/
theorem SpellsString.stray_notMem {s : String} (h : SpellsString s t) :
    .stray ∉ t := by
  cases h with
  | quoted chars => simpa using chars.stray_notMem

/-! ## Values that are passed over -/

/-- **In a value that is passed over, bytes that are part of no character stand
in strings**, those that are keys included. -/
theorem Loose.straysIn (h : Loose t) : StraysIn LooseString t := by
  -- on what stands inside the brackets
  induction h with
  | null | true | false => exact straysIn_of_notMem (by decide)
  | number numeral => exact straysIn_of_notMem numeral.stray_notMem
  | string chars => exact .of_part chars
  | array inside _ ih => exact (inside.straysIn ih).cons '['
  | object inside keys _ ih =>
    exact (inside.straysIn fun m hm => ⟨.of_part (keys m hm), ih m hm⟩).cons '\x7b'

end DetectorBench.Json
