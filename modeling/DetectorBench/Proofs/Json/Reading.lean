import DetectorBench.Proofs.Json.Grammar

/-!
# Reading the tokens of a text

What each of the small readers does with a text of the grammar, whatever comes
after it: blanks are passed over, a word and a string are taken up to their last
symbol, the next item and the next key are found behind what stands before them.
Readers of values are put together from these laws and look into no token reader
any more.
-/

namespace DetectorBench.Json

/-! ## Blanks -/

theorem skipBlanks_of_blank {s : Symbol} (h : s.isBlank = true) (rest : Input) :
    skipBlanks (s :: rest) = skipBlanks rest := by
  cases s with
  | stray => cases h
  | char c => rcases Symbol.isBlank_char.mp h with rfl | rfl | rfl | rfl <;> rfl

/-- Skipping blanks stops at the first symbol that is none. -/
theorem skipBlanks_of_not_blank {s : Symbol} (h : s.isBlank = false)
    (rest : Input) :
    skipBlanks (s :: rest) = s :: rest := by
  unfold skipBlanks
  split
  next heq => cases heq; exact absurd h (by decide)
  next heq => cases heq; exact absurd h (by decide)
  next heq => cases heq; exact absurd h (by decide)
  next heq => cases heq; exact absurd h (by decide)
  next => rfl

/-- Blanks say nothing. -/
theorem Blank.skipBlanks_append {b : Input} (h : Blank b) (rest : Input) :
    skipBlanks (b ++ rest) = skipBlanks rest := by
  induction b with
  | nil => rfl
  | cons s b ih =>
    rw [List.cons_append, skipBlanks_of_blank (h s List.mem_cons_self)]
    exact ih fun s' hs' => h s' (List.mem_cons_of_mem _ hs')

/-- Blanks end at the first symbol that is none. -/
theorem Blank.skipBlanks_cons {b : Input} (h : Blank b) {s : Symbol}
    (hs : s.isBlank = false) (rest : Input) :
    skipBlanks (b ++ s :: rest) = s :: rest := by
  rw [h.skipBlanks_append, skipBlanks_of_not_blank hs]

/-- There are no blanks before a text. -/
theorem Spells.skipBlanks_append {j : Json} {t : Input} (h : Spells j t)
    (rest : Input) :
    skipBlanks (t ++ rest) = t ++ rest := by
  obtain ⟨s, u, rfl, hs⟩ := h.starts
  exact skipBlanks_of_not_blank hs.1 _

/-! ## Words and strings -/

/-- A word is read where it stands. -/
theorem readWord_symbols (cs : List Char) (rest : Input) :
    readWord cs (symbols cs ++ rest) = .ok rest := by
  induction cs with
  | nil => rfl
  | cons c cs ih =>
    rw [symbols_cons, List.cons_append, readWord, if_pos rfl]
    exact ih

theorem fromStray_symbols (cs : List Char) : fromStray (symbols cs) = [] := by
  induction cs with
  | nil => rfl
  | cons c cs ih => exact ih

/-- The characters of a text are got back from its symbols. -/
theorem charsOf_symbols (cs : List Char) : charsOf (symbols cs) = cs := by
  induction cs with
  | nil => rfl
  | cons c cs ih =>
    rw [symbols_cons, charsOf, ih]

/-- A string of characters is what it was resolved to. -/
theorem closeString_symbols (cs : List Char) (rest : Input) :
    closeString (symbols cs) rest = .ok (String.ofList cs, rest) := by
  unfold closeString
  rw [fromStray_symbols, charsOf_symbols]

/-- Four hexadecimal digits after an escape are read as a code unit. -/
theorem readStringFrom_quad {n : Nat} {q : Input} (h : Quad n q)
    (high : Option Nat) (read rest : Input) :
    readStringFrom (.hex high 0 0) read (q ++ rest) =
      match high with
      | none =>
        if isLowSurrogate n then .error (.here rest .loneSurrogate)
        else if isHighSurrogate n then readStringFrom (.afterHigh n) read rest
        else readStringFrom .plain (.char (Char.ofNat n) :: read) rest
      | some h =>
        if isLowSurrogate n then readStringFrom .plain
          (.char (ofSurrogates h n) :: read) rest
        else .error (.here rest .loneSurrogate) := by
  cases h with
  | digits ha hb hc hd =>
    simp only [List.cons_append, List.nil_append]
    rw [readStringFrom, ha]
    simp only [Nat.zero_mul, Nat.zero_add, show 0 < 3 by omega, if_true]
    rw [readStringFrom, hb]
    simp only [show 1 < 3 by omega, if_true]
    rw [readStringFrom, hc]
    simp only [show 1 + 1 < 3 by omega, if_true]
    rw [readStringFrom, hd]
    refine (if_neg (show ¬1 + 1 + 1 < 3 by omega)).trans ?_
    rfl

/-- The letter of a code is no short escape. -/
theorem ne_u_of_shortEscape {e c : Char} (h : shortEscape? e = some c) :
    e ≠ 'u' := by
  rintro rfl
  cases h

/-- The characters of a string are resolved one after the other. -/
theorem readStringFrom_spells {cs : List Char} {t : Input}
    (h : SpellsChars cs t) :
    ∀ (read rest : Input), readStringFrom .plain read (t ++ rest) =
      closeString (read.reverse ++ symbols cs) rest := by
  -- `read` is what was resolved before, the last symbol first
  induction h with
  | close =>
    intro read rest
    rw [List.cons_append, readStringFrom, if_pos rfl, symbols_nil, List.append_nil]
    rfl
  | plain quote slash control _ ih =>
    intro read rest
    rw [List.cons_append, readStringFrom, if_neg quote, if_neg slash,
      if_neg (by omega), ih]
    simp [symbols_cons]
  | short escape _ ih =>
    intro read rest
    rw [List.cons_append, List.cons_append, readStringFrom, if_neg (by decide),
      if_pos rfl, readStringFrom, if_neg (ne_u_of_shortEscape escape), escape]
    simp only [ih, List.reverse_cons, List.append_assoc, symbols_cons,
      List.singleton_append]
  | code quad high low _ ih =>
    intro read rest
    rw [List.cons_append, List.cons_append, List.append_assoc, readStringFrom,
      if_neg (by decide), if_pos rfl, readStringFrom, if_pos rfl,
      readStringFrom_quad quad]
    simp only [low, high, Bool.false_eq_true, if_false, ih, List.reverse_cons,
      List.append_assoc, symbols_cons, List.singleton_append]
  | @pair n k _ _ _ _ first second high low _ ih =>
    intro read rest
    -- the first half is not refused, because no code unit is of both kinds
    have nlow : isLowSurrogate n = false := by
      simp only [isHighSurrogate, isLowSurrogate, Bool.and_eq_true,
        decide_eq_true_eq, Bool.and_eq_false_iff, decide_eq_false_iff_not] at high ⊢
      omega
    rw [List.cons_append, List.cons_append, List.append_assoc, readStringFrom,
      if_neg (by decide), if_pos rfl, readStringFrom, if_pos rfl,
      readStringFrom_quad first]
    simp only [nlow, high, Bool.false_eq_true, if_false, if_true, List.cons_append]
    rw [readStringFrom, if_pos rfl, readStringFrom, if_pos rfl, List.append_assoc,
      readStringFrom_quad second]
    simp only [low, if_true, ih, List.reverse_cons, List.append_assoc, symbols_cons,
      List.singleton_append]

/-- A string is read up to its closing quotation mark. -/
theorem readString_spells {cs : List Char} {t : Input} (h : SpellsChars cs t)
    (rest : Input) :
    readString (t ++ rest) = .ok (String.ofList cs, rest) := by
  unfold readString
  rw [readStringFrom_spells h, List.reverse_nil, List.nil_append,
    closeString_symbols]

/-! ## Items -/

/-- The next item is found behind what stands before it. -/
theorem nextItem_lead {first : Bool} {lead : Input} (h : Lead first lead)
    {s : Symbol} (hs : StartsValue s) (rest : Input) :
    nextItem first (lead ++ s :: rest) = .ok (true, s :: rest) := by
  unfold nextItem
  cases h with
  | first blank =>
    rw [blank.skipBlanks_cons hs.1]
    split
    next heq => cases heq
    next heq =>
      cases heq
      exact absurd rfl hs.2.1
    next heq =>
      cases heq
      rfl
  | next before after =>
    rw [List.append_assoc, List.cons_append, before.skipBlanks_cons (by decide)]
    split
    next heq => cases heq
    next heq => simp at heq
    next heq =>
      cases heq
      rw [if_neg Bool.false_ne_true, if_pos rfl, after.skipBlanks_cons hs.1]
      -- what starts a value is no bracket, so the comma before it is not a
      -- trailing one
      split
      next heq =>
        cases heq
        exact absurd rfl hs.2.1
      next heq => cases heq
      next => rfl

/-- At the closing bracket there is no item any more. -/
theorem nextItem_close (first : Bool) {b : Input} (h : Blank b) (rest : Input) :
    nextItem first (b ++ .char ']' :: rest) = .ok (false, .char ']' :: rest) := by
  unfold nextItem
  rw [h.skipBlanks_cons (by decide)]
  rfl

/-- A list ends at its bracket, with blanks before it. -/
theorem endList_close {b : Input} (h : Blank b) (rest : Input) :
    endList (b ++ .char ']' :: rest) = .ok rest := by
  unfold endList
  rw [h.skipBlanks_cons (by decide)]
  rfl

/-- A list does not end where another item follows. -/
theorem endList_lead {first : Bool} {lead : Input} (h : Lead first lead)
    {s : Symbol} (hs : StartsValue s) (rest : Input) :
    ∃ fault, endList (lead ++ s :: rest) = .error fault := by
  unfold endList
  cases h with
  | first blank =>
    rw [blank.skipBlanks_cons hs.1]
    split
    next heq =>
      cases heq
      exact absurd rfl hs.2.1
    next heq =>
      cases heq
      exact absurd rfl hs.2.2.2.1
    next => exact ⟨_, rfl⟩
    next => exact ⟨_, rfl⟩
  | next before after =>
    rw [List.append_assoc, List.cons_append, before.skipBlanks_cons (by decide)]
    simp only
    split <;> exact ⟨_, rfl⟩

/-! ## Members -/

/-- The next key is found behind what stands before it. -/
theorem nextKey_lead {first : Bool} {lead k : Input} {key : String}
    (h : Lead first lead) (name : SpellsString key k) (rest : Input) :
    nextKey first (lead ++ (k ++ rest)) = .ok (some key, rest) := by
  unfold nextKey
  cases name with
  | quoted chars =>
    cases h with
    | first blank =>
      rw [List.cons_append, blank.skipBlanks_cons (by decide)]
      split
      next heq => cases heq
      next heq => simp at heq
      next heq =>
        cases heq
        rw [if_pos rfl, if_pos rfl, readString_spells chars]
        rfl
    | next before after =>
      rw [List.append_assoc, List.cons_append, List.cons_append,
        before.skipBlanks_cons (by decide)]
      split
      next heq => cases heq
      next heq => simp at heq
      next heq =>
        cases heq
        rw [if_neg Bool.false_ne_true, if_pos rfl, after.skipBlanks_cons (by decide)]
        split
        next heq =>
          cases heq
          rw [readString_spells chars]
          rfl
        next heq => simp at heq
        next heq => cases heq
        next hquote _ _ => exact (hquote _ rfl).elim

/-- At the closing brace there is no key any more. -/
theorem nextKey_close (first : Bool) {b : Input} (h : Blank b) (rest : Input) :
    nextKey first (b ++ .char '\x7d' :: rest) = .ok (none, rest) := by
  unfold nextKey
  rw [h.skipBlanks_cons (by decide)]
  rfl

/-- A colon is read with blanks before it. -/
theorem readColon_blank {b : Input} (h : Blank b) (rest : Input) :
    readColon (b ++ .char ':' :: rest) = .ok rest := by
  unfold readColon
  rw [h.skipBlanks_cons (by decide)]
  rfl

/-! ## Refusals -/

/-- What was found where something else was expected is refused, whatever it
is. -/
theorem refuseFound_error {α : Type} (input : Input) (expected : String) :
    ∃ fault, (refuseFound input expected : Except Fault α) = .error fault := by
  unfold refuseFound
  cases readFound input with
  | error fault => exact ⟨fault, rfl⟩
  | ok found => exact ⟨_, rfl⟩

/-- What is refused is never read, even if it can be named. -/
theorem refuseFound_ne_ok {α : Type} {input : Input} {expected : String}
    {a : α} :
    refuseFound input expected ≠ .ok a := by
  intro h
  obtain ⟨fault, hfault⟩ := @refuseFound_error α input expected
  rw [hfault] at h
  cases h

end DetectorBench.Json
