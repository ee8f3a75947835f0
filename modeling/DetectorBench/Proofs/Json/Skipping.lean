import DetectorBench.Proofs.Json.Loose
import DetectorBench.Proofs.Json.Reading

/-!
# Passing over a text

A value that nobody asked for is passed over whole: `skipValue_loose` says that
after any loose text exactly what follows the text is left, and
`skipValue_spells` says so of any text of any value, at any depth and with any
numbers in it. The fuel that `skipValue` supplies is enough because every second
step at least takes a symbol, so that twice the length of a text bounds the
steps over it.
-/

namespace DetectorBench.Json

/-! ## Strings -/

/-- Four hexadecimal digits are passed over, whatever they stand for. -/
theorem skipStringFrom_quad {n : Nat} {q : Input} (h : Quad n q)
    (rest : Input) :
    skipStringFrom (.hex 4) (q ++ rest) = skipStringFrom .plain rest := by
  cases h with
  | digits ha hb hc hd =>
    simp only [List.cons_append, List.nil_append]
    rw [skipStringFrom, ha]
    simp only [show ¬4 ≤ 1 by omega, if_false]
    rw [skipStringFrom, hb]
    simp only [show ¬4 - 1 ≤ 1 by omega, if_false]
    rw [skipStringFrom, hc]
    simp only [show ¬4 - 1 - 1 ≤ 1 by omega, if_false]
    rw [skipStringFrom, hd]
    simp only [show 4 - 1 - 1 - 1 ≤ 1 by omega, if_true]

/-- A string is passed over up to its closing quotation mark. -/
theorem skipString_loose {t : Input} (h : LooseChars t) (rest : Input) :
    skipString (t ++ rest) = .ok rest := by
  unfold skipString
  induction h with
  | close => rw [List.cons_append, skipStringFrom, if_pos rfl, List.nil_append]
  | plain quote slash control _ ih =>
    rw [List.cons_append, skipStringFrom, if_neg quote, if_neg slash,
      if_neg (by omega), ih]
  | stray _ ih => rw [List.cons_append, skipStringFrom, ih]
  | short escape _ ih =>
    rw [List.cons_append, List.cons_append, skipStringFrom, if_neg (by decide),
      if_pos rfl, skipStringFrom, if_neg (ne_u_of_shortEscape escape), escape]
    exact ih
  | code quad _ ih =>
    rw [List.cons_append, List.cons_append, List.append_assoc, skipStringFrom,
      if_neg (by decide), if_pos rfl, skipStringFrom, if_pos rfl,
      skipStringFrom_quad quad, ih]

/-! ## Numbers -/

/-- Digits are read up to the first symbol that is none. -/
theorem readDigits_append {t : Input} (ht : ∀ s ∈ t, s.digit?.isSome = true)
    {rest : Input} (hr : ∀ s ∈ rest.head?, s.digit? = none) :
    readDigits (t ++ rest) = (t.filterMap Symbol.digit?, rest) := by
  induction t with
  | nil =>
    cases rest with
    | nil => rfl
    | cons s rest =>
      rw [List.nil_append, readDigits, hr s rfl]
      rfl
  | cons s t ih =>
    obtain ⟨d, hd⟩ := Option.isSome_iff_exists.mp (ht s List.mem_cons_self)
    rw [List.cons_append, readDigits, hd]
    simp only [ih fun s' hs' => ht s' (List.mem_cons_of_mem _ hs'),
      List.filterMap_cons, hd]

/-- Digits are not nothing. -/
theorem filterMap_digits_ne_nil {t : Input} (ht : Digits t) :
    t.filterMap Symbol.digit? ≠ [] := by
  obtain ⟨s, u, rfl⟩ := List.exists_cons_of_ne_nil ht.1
  obtain ⟨d, hd⟩ := Option.isSome_iff_exists.mp (ht.2 s List.mem_cons_self)
  rw [List.filterMap_cons, hd]
  exact List.cons_ne_nil _ _

/-- Only the digit zero stands for zero. -/
theorem eq_zero_of_digit? {s : Symbol} (h : s.digit? = some 0) :
    s = .char '0' := by
  cases s with
  | stray => cases h
  | char c =>
    rw [Symbol.digit?] at h
    split at h
    next hc =>
      have hle : '0'.toNat ≤ c.toNat := by
        simpa [Char.le_def, UInt32.le_iff_toNat_le] using hc.1
      have heq : c.toNat = '0'.toNat := by
        simp only [Option.some.injEq] at h
        omega
      rw [Char.toNat_inj.mp heq]
    next => cases h

/-- The digits before the point are read, and there is no zero before another of
them. -/
theorem readDigits_whole {w : Input} (hw : WholePart w) {rest : Input}
    (hr : ∀ s ∈ rest.head?, s.digit? = none) :
    ∃ d ds, readDigits (w ++ rest) = (d :: ds, rest) ∧ (d = 0 → ds = []) := by
  rcases hw with rfl | ⟨hd, hzero⟩
  · exact ⟨0, [], readDigits_append (by decide) hr, fun _ => rfl⟩
  · obtain ⟨s, u, rfl⟩ := List.exists_cons_of_ne_nil hd.1
    obtain ⟨d, hs⟩ := Option.isSome_iff_exists.mp (hd.2 s List.mem_cons_self)
    refine ⟨d, u.filterMap Symbol.digit?, ?_, ?_⟩
    · rw [readDigits_append hd.2 hr, List.filterMap_cons, hs]
    · rintro rfl
      exact absurd (congrArg some (eq_zero_of_digit? hs)) hzero

/-- Digits do not start with a sign. -/
theorem Digits.head {t : Input} (h : Digits t) :
    ∃ s u, t = s :: u ∧ s ≠ .char '+' ∧ s ≠ .char '-' := by
  obtain ⟨s, u, rfl⟩ := List.exists_cons_of_ne_nil h.1
  have hs := h.2 s List.mem_cons_self
  refine ⟨s, u, rfl, ?_, ?_⟩ <;>
  · rintro rfl
    exact absurd hs (by decide)

/-- An exponent after its letter is passed over. -/
theorem skipExponent_spells {sign t rest : Input}
    (signed : sign = [] ∨ sign = [.char '+'] ∨ sign = [.char '-'])
    (digits : Digits t) (hr : Terminated rest) :
    skipExponent (sign ++ (t ++ rest)) = .ok rest := by
  have hread : readDigits (t ++ rest) = (t.filterMap Symbol.digit?, rest) :=
    readDigits_append digits.2 fun s hs => (hr s hs).1
  obtain ⟨s, u, rfl, hplus, hminus⟩ := digits.head
  have hunsigned : skipExponent ((s :: u) ++ rest) = .ok rest := by
    rw [List.cons_append] at hread ⊢
    unfold skipExponent
    split
    next heq =>
      cases heq
      exact absurd rfl hplus
    next heq =>
      cases heq
      exact absurd rfl hminus
    next =>
      dsimp only
      rw [hread]
      split
      next heq =>
        simp only [Prod.mk.injEq] at heq
        exact absurd heq.1 (filterMap_digits_ne_nil digits)
      next heq =>
        simp only [Prod.mk.injEq] at heq
        rw [heq.2]
  -- a sign is dropped, and no second one is
  have hsigned : ∀ c : Char, c = '+' ∨ c = '-' →
      skipExponent (.char c :: ((s :: u) ++ rest)) =
        skipExponent ((s :: u) ++ rest) := by
    intro c hc
    conv => rhs; rw [List.cons_append]; unfold skipExponent
    split
    next heq =>
      cases heq
      exact absurd rfl hplus
    next heq =>
      cases heq
      exact absurd rfl hminus
    next => rcases hc with rfl | rfl <;> rfl
  rcases signed with rfl | rfl | rfl
  · exact hunsigned
  · exact (hsigned _ (Or.inl rfl)).trans hunsigned
  · exact (hsigned _ (Or.inr rfl)).trans hunsigned

/-- An exponent is passed over, and so is its absence. -/
theorem skipExponent?_spells {x rest : Input} (hx : ExponentPart x)
    (hr : Terminated rest) :
    skipExponent? (x ++ rest) = .ok rest := by
  cases hx with
  | none =>
    rw [List.nil_append]
    unfold skipExponent?
    split
    next => exact absurd rfl (hr (.char 'e') rfl).2.2.1
    next => exact absurd rfl (hr (.char 'E') rfl).2.2.2
    next => rfl
  | some letter signed digits =>
    rw [List.cons_append, List.append_assoc]
    rcases letter with rfl | rfl <;> exact skipExponent_spells signed digits hr

/-- What follows the digits before the point is no digit. -/
theorem head?_fraction {f x rest : Input} (hf : FractionPart f)
    (hx : ExponentPart x) (hr : Terminated rest) :
    ∀ s ∈ (f ++ (x ++ rest)).head?, s.digit? = none := by
  intro s hs
  cases hf with
  | some digits =>
    cases hs
    rfl
  | none =>
    cases hx with
    | some letter signed digits =>
      cases hs
      rcases letter with rfl | rfl <;> rfl
    | none => exact (hr s hs).1

/-- Neither an exponent nor what follows it begins with a digit. -/
theorem head?_exponent {x rest : Input} (hx : ExponentPart x)
    (hr : Terminated rest) :
    ∀ s ∈ (x ++ rest).head?, s.digit? = none :=
  head?_fraction .none hx hr

/-- A number after its sign is passed over. -/
theorem skipNumber_spells {w f x rest : Input} (hw : WholePart w)
    (hf : FractionPart f) (hx : ExponentPart x) (hr : Terminated rest) :
    skipNumber (w ++ (f ++ (x ++ rest))) = .ok rest := by
  obtain ⟨d, ds, hread, hzero⟩ := readDigits_whole hw (head?_fraction hf hx hr)
  unfold skipNumber
  rw [hread]
  split
  next heq => cases heq
  next heq =>
    cases heq
    cases hzero rfl
  next heq =>
    -- a point follows, so there is a fraction
    cases hf with
    | some digits =>
      simp only [Prod.mk.injEq, List.cons_append, List.cons.injEq, true_and] at heq
      rw [← heq.2, readDigits_append digits.2 (head?_exponent hx hr)]
      split
      next heq =>
        simp only [Prod.mk.injEq] at heq
        exact absurd heq.1 (filterMap_digits_ne_nil digits)
      next heq =>
        simp only [Prod.mk.injEq] at heq
        rw [← heq.2]
        exact skipExponent?_spells hx hr
    | none =>
      cases hx with
      | some letter signed digits =>
        cases heq
        rcases letter with h | h <;> exact absurd h (by decide)
      | none =>
        cases heq
        exact absurd rfl (hr _ rfl).2.1
  next hpoint heq =>
    cases hf with
    | some digits =>
      cases heq
      exact (hpoint _ rfl).elim
    | none =>
      cases heq
      exact skipExponent?_spells hx hr

/-! ## Values -/

/-- A key is passed over with its colon. -/
theorem skipKey_loose {k b rest : Input} (name : LooseString k)
    (colon : Blank b) {input : Input}
    (hi : skipBlanks input = k ++ (b ++ .char ':' :: rest)) :
    skipKey input = .ok rest := by
  cases name with
  | quoted chars =>
    unfold skipKey
    rw [hi, List.cons_append]
    split
    next heq =>
      cases heq
      show (skipString (_ ++ (b ++ Symbol.char ':' :: rest)) >>= _) = _
      rw [skipString_loose chars]
      simp only [bind, Except.bind]
      rw [colon.skipBlanks_cons (by decide)]
      rfl
    next heq => cases heq
    next hquote heq => exact (hquote _ rfl).elim

/-- A number is passed over, with its sign or without. -/
theorem skipValueFrom_numeral {t rest input : Input} (h : Numeral t)
    (hr : Terminated rest) (fuel : Nat) (hi : skipBlanks input = t ++ rest) :
    skipValueFrom (fuel + 1) input = .ok rest := by
  rw [skipValueFrom, hi]
  cases h with
  | negative hw hf hx =>
    rw [List.cons_append, List.append_assoc, List.append_assoc]
    exact skipNumber_spells hw hf hx hr
  | positive hw hf hx =>
    have hskip := skipNumber_spells hw hf hx hr
    obtain ⟨s, u, rfl, hs⟩ := hw.starts
    rw [List.append_assoc, List.append_assoc]
    -- none of the letters and brackets that open another kind of value is a
    -- digit
    split
    next heq => cases heq
    next heq => cases heq; exact absurd hs (by decide)
    next heq => cases heq; exact absurd hs (by decide)
    next heq => cases heq; exact absurd hs (by decide)
    next heq => cases heq; exact absurd hs (by decide)
    next heq => cases heq; exact absurd hs (by decide)
    next heq => cases heq; exact absurd hs (by decide)
    next heq => cases heq; exact absurd hs (by decide)
    next heq =>
      cases heq
      rw [if_pos hs]
      exact hskip

/-- There are no blanks before a loose text. -/
theorem Loose.skipBlanks_append {t : Input} (h : Loose t) (rest : Input) :
    skipBlanks (t ++ rest) = t ++ rest := by
  obtain ⟨s, u, rfl, hs⟩ := h.starts
  exact skipBlanks_of_not_blank hs.1 _

/-- The fuel is enough for a value: whatever text it is twice the length of, is
passed over. -/
def SkipsValues (fuel : Nat) : Prop :=
  ∀ {t : Input}, Loose t → 2 * t.length ≤ fuel → ∀ {rest input : Input},
    Terminated rest → skipBlanks input = t ++ rest →
    skipValueFrom fuel input = .ok rest

/-- The fuel is enough for the items of an array. -/
def SkipsItems (fuel : Nat) : Prop :=
  ∀ {first : Bool} {items : List Input} {t : Input}, ItemTexts first items t →
    (∀ u ∈ items, Loose u) → 2 * t.length ≤ fuel →
    ∀ (rest : Input), skipItemsFrom fuel first (t ++ rest) = .ok rest

/-- The fuel is enough for the members of an object. -/
def SkipsMembers (fuel : Nat) : Prop :=
  ∀ {first : Bool} {members : List (Input × Input)} {t : Input},
    MemberTexts first members t → (∀ m ∈ members, LooseString m.1) →
    (∀ m ∈ members, Loose m.2) → 2 * t.length ≤ fuel →
    ∀ (rest : Input), skipMembersFrom fuel first (t ++ rest) = .ok rest

/-- A value is passed over by what its brackets hold, with one less to go. -/
theorem skipsValues_succ {fuel : Nat} (hitems : SkipsItems fuel)
    (hmembers : SkipsMembers fuel) : SkipsValues (fuel + 1) := by
  intro t h hfuel rest input hr hi
  cases h with
  | number numeral => exact skipValueFrom_numeral numeral hr fuel hi
  | null =>
    rw [skipValueFrom, hi]
    exact readWord_symbols ['u', 'l', 'l'] rest
  | true =>
    rw [skipValueFrom, hi]
    exact readWord_symbols ['r', 'u', 'e'] rest
  | false =>
    rw [skipValueFrom, hi]
    exact readWord_symbols ['a', 'l', 's', 'e'] rest
  | string chars =>
    cases chars with
    | quoted chars =>
      rw [skipValueFrom, hi]
      exact skipString_loose chars rest
  | array inside values =>
    rw [skipValueFrom, hi]
    rw [List.length_cons] at hfuel
    exact hitems inside values (by omega) rest
  | object inside keys values =>
    rw [skipValueFrom, hi]
    rw [List.length_cons] at hfuel
    exact hmembers inside keys values (by omega) rest

/-- Behind what stands before an item, the item is passed over, and then the
others. -/
theorem skipItemsFrom_lead {first : Bool} {lead t : Input}
    (before : Lead first lead) (value : Loose t) (fuel : Nat) (w : Input) :
    ∃ input, skipBlanks input = t ++ w ∧
      skipItemsFrom (fuel + 1) first (lead ++ (t ++ w)) =
        skipValueFrom fuel input >>= skipItemsFrom fuel false := by
  rw [skipItemsFrom]
  cases before with
  | first blank =>
    refine ⟨t ++ w, value.skipBlanks_append w, ?_⟩
    obtain ⟨s, v, rfl, hs⟩ := value.starts
    rw [blank.skipBlanks_append, value.skipBlanks_append, List.cons_append]
    split
    next heq => cases heq
    next heq =>
      cases heq
      exact absurd rfl hs.2.1
    next heq =>
      cases heq
      rfl
  -- after a comma the value is skipped from its blanks on
  | @next b b' hb hb' =>
    refine ⟨b' ++
      (t ++ w), by rw [hb'.skipBlanks_append, value.skipBlanks_append], ?_⟩
    rw [List.append_assoc, List.cons_append, hb.skipBlanks_cons (by decide)]
    rfl

/-- Items are passed over one by one. -/
theorem skipsItems_succ {fuel : Nat} (hvalues : SkipsValues fuel)
    (hitems : SkipsItems fuel) : SkipsItems (fuel + 1) := by
  intro first items t h values hfuel rest
  cases h with
  | close blank =>
    rw [skipItemsFrom, List.append_assoc, List.cons_append,
      blank.skipBlanks_cons (by decide)]
    rfl
  | item before more =>
    obtain ⟨value, others⟩ := List.forall_mem_cons.mp values
    have hvalue := value.length_pos
    have hmore := more.length_pos
    simp only [List.length_append] at hfuel
    rw [List.append_assoc, List.append_assoc]
    obtain ⟨input, hi, hstep⟩ := skipItemsFrom_lead before value fuel (_ ++ rest)
    rw [hstep, hvalues value (by omega) more.terminated hi]
    exact hitems more others (by omega) rest

/-- Behind what stands before a member, its key and its value are passed over,
and then the others. -/
theorem skipMembersFrom_lead {first : Bool} {lead k b b' t : Input}
    (before : Lead first lead) (name : LooseString k) (colon : Blank b)
    (gap : Blank b') (value : Loose t) (fuel : Nat) (w : Input) :
    ∃ input, skipBlanks input = t ++ w ∧
      skipMembersFrom (fuel + 1) first
        (lead ++ (k ++ (b ++ .char ':' :: (b' ++ (t ++ w))))) =
        skipValueFrom fuel input >>= skipMembersFrom fuel false := by
  refine ⟨b' ++ (t ++ w), by rw [gap.skipBlanks_append, value.skipBlanks_append], ?_⟩
  rw [skipMembersFrom]
  cases name with
  | @quoted u chars =>
    have hquote :
        skipBlanks (.char '"' :: (u ++ (b ++ .char ':' :: (b' ++ (t ++ w))))) =
        .char '"' :: (u ++ (b ++ .char ':' :: (b' ++ (t ++ w)))) :=
      skipBlanks_of_not_blank (by decide) _
    cases before with
    | first blank =>
      rw [List.cons_append, blank.skipBlanks_append, hquote]
      show (skipKey _ >>= _) = _
      rw [skipKey_loose (.quoted chars) colon hquote]
      rfl
    | next hb hb' =>
      rw [List.append_assoc, List.cons_append, List.cons_append,
        hb.skipBlanks_cons (by decide)]
      show (skipKey _ >>= _) = _
      rw [skipKey_loose (.quoted chars) colon
        (by rw [hb'.skipBlanks_append]; exact hquote)]
      rfl

/-- Members are passed over one by one. -/
theorem skipsMembers_succ {fuel : Nat} (hvalues : SkipsValues fuel)
    (hmembers : SkipsMembers fuel) : SkipsMembers (fuel + 1) := by
  intro first members t h keys values hfuel rest
  cases h with
  | close blank =>
    rw [skipMembersFrom, List.append_assoc, List.cons_append,
      blank.skipBlanks_cons (by decide)]
    rfl
  | member before colon gap more =>
    obtain ⟨name, keys⟩ := List.forall_mem_cons.mp keys
    obtain ⟨value, others⟩ := List.forall_mem_cons.mp values
    dsimp only at name value
    have hmore := more.length_pos
    simp only [List.length_append, List.length_cons] at hfuel
    simp only [List.append_assoc, List.cons_append]
    obtain ⟨input, hi, hstep⟩ :=
      skipMembersFrom_lead before name colon gap value fuel (_ ++ rest)
    rw [hstep, hvalues value (by omega) more.terminated hi]
    exact hmembers more keys others (by omega) rest

/-- Without fuel there is nothing to pass over: no text is empty. -/
theorem skips_all (fuel : Nat) :
    SkipsValues fuel ∧ SkipsItems fuel ∧ SkipsMembers fuel := by
  -- all three at once: each goes on to the others with one less
  induction fuel with
  | zero =>
    refine ⟨?_, ?_, ?_⟩
    · intro t h hfuel
      have := h.length_pos
      omega
    · intro first items t h _ hfuel
      have := h.length_pos
      omega
    · intro first members t h _ _ hfuel
      have := h.length_pos
      omega
  | succ fuel ih =>
    obtain ⟨hvalues, hitems, hmembers⟩ := ih
    exact ⟨skipsValues_succ hitems hmembers, skipsItems_succ hvalues hitems,
      skipsMembers_succ hvalues hmembers⟩

/-- Skipping blanks adds no symbols. -/
theorem length_skipBlanks_le (input : Input) :
    (skipBlanks input).length ≤ input.length := by
  induction input with
  | nil => exact Nat.le_refl _
  | cons s rest ih =>
    cases hs : s.isBlank with
    | true =>
      rw [skipBlanks_of_blank hs]
      exact Nat.le_succ_of_le ih
    | false => exact Nat.le_of_eq (congrArg List.length
        (skipBlanks_of_not_blank hs rest))

/-- **A value that nobody asked for** is passed over exactly, whatever its
strings hold. -/
theorem skipValue_loose {t rest input : Input} (h : Loose t)
    (hr : Terminated rest) (hi : skipBlanks input = t ++ rest) :
    skipValue input = .ok rest := by
  have hlength := length_skipBlanks_le input
  rw [hi, List.length_append] at hlength
  unfold skipValue
  exact (skips_all _).1 h (by omega) hr hi

/-- **Every text of a value is passed over.** -/
theorem skipValue_spells {j : Json} {t rest input : Input} (h : Spells j t)
    (hr : Terminated rest) (hi : skipBlanks input = t ++ rest) :
    skipValue input = .ok rest :=
  skipValue_loose h.loose hr hi

end DetectorBench.Json
