import DetectorBench.Proofs.Json.Causes
import DetectorBench.Proofs.Json.Values
import DetectorBench.Proofs.Steps
import Mathlib.Data.List.Induction

/-!
# What is read is a text of the grammar

`readWritten_finds` says that the texts of a value are read. Here is the
converse: where a value is read, a text of the value was there
(`readWritten_sound`), so that a source that is a text of no value is not read
(`spelled_of_parse`).

Each reader is inverted by itself: what it took is put together from what the
readers that it calls took. A string is resolved symbol by symbol and judged at
its end only, so the induction along it carries what was resolved so far
(`StringRead`).
-/

namespace DetectorBench.Json

/-! ## Blanks and words -/

/-- What is skipped are blanks. -/
theorem exists_skipBlanks (input : Input) :
    ∃ b, Blank b ∧ input = b ++ skipBlanks input := by
  induction input with
  | nil => exact ⟨[], blank_nil, rfl⟩
  | cons s rest ih =>
    by_cases hs : s.isBlank = true
    · obtain ⟨b, hb, hsplit⟩ := ih
      refine ⟨s :: b, List.forall_mem_cons.mpr ⟨hs, hb⟩, ?_⟩
      rw [skipBlanks_of_blank hs, List.cons_append, ← hsplit]
    · exact ⟨[], blank_nil,
        (skipBlanks_of_not_blank (Bool.eq_false_iff.mpr hs) rest).symm⟩

/-- Where a word is read, it was there. -/
theorem eq_of_readWord {cs : List Char} :
    ∀ {input rest : Input}, readWord cs input = .ok rest →
      input = symbols cs ++ rest := by
  induction cs with
  | nil =>
    intro input rest h
    cases h
    rfl
  | cons c cs ih =>
    intro input rest h
    cases input with
    | nil => cases h
    | cons s input =>
      unfold readWord at h
      split at h
      next hs =>
        rw [hs, ih h]
        rfl
      next => cases h

/-! ## Strings -/

/-- A digit of a code unit was there, and the next is read unless it was the
fourth. -/
theorem readStringFrom_hex {high : Option Nat} {count value : Nat}
    {read input : Input} {result : String × Input}
    (h : readStringFrom (.hex high count value) read input = .ok result) :
    ∃ s d rest, input = s :: rest ∧ s.hexDigit? = some d ∧ (count < 3 →
      readStringFrom (.hex high (count + 1) (value * 16 + d)) read rest =
        .ok result) := by
  cases input with
  | nil => cases h
  | cons s rest =>
    cases hd : s.hexDigit? with
    | none =>
      rw [readStringFrom, hd] at h
      dsimp only at h
      split at h <;> cases h
    | some d =>
      rw [readStringFrom, hd] at h
      dsimp only at h
      refine ⟨s, d, rest, rfl, hd, fun hcount => ?_⟩
      rwa [if_pos hcount] at h

/-- Where a code unit is read, there were its four digits. -/
theorem exists_quad {high : Option Nat} {read input : Input}
    {result : String × Input}
    (h : readStringFrom (.hex high 0 0) read input = .ok result) :
    ∃ n q rest, Quad n q ∧ input = q ++ rest := by
  obtain ⟨a, w, input, rfl, ha, h⟩ := readStringFrom_hex h
  obtain ⟨b, x, input, rfl, hb, h⟩ := readStringFrom_hex (h (by decide))
  obtain ⟨c, y, input, rfl, hc, h⟩ := readStringFrom_hex (h (by decide))
  obtain ⟨d, z, input, rfl, hd, -⟩ := readStringFrom_hex (h (by decide))
  exact ⟨_, [a, b, c, d], input, .digits ha hb hc hd, rfl⟩

/-- A string was read after some symbols that were resolved before: what it was
resolved to is a string together with them, and if it is characters, then the
symbols that were taken are a text of them. -/
def StringRead (read input : Input) (s : String) (rest : Input) : Prop :=
  ∃ resolved t, input = t ++ rest ∧
    closeString (read.reverse ++ resolved) rest = .ok (s, rest) ∧
    ∀ cs, resolved = symbols cs → SpellsChars cs t

/-- One more character was resolved. -/
theorem StringRead.char {read input rest p : Input} {c : Char} {s : String}
    (h : StringRead (.char c :: read) input s rest)
    (spells : ∀ {cs t}, SpellsChars cs t → SpellsChars (c :: cs) (p ++ t)) :
    StringRead read (p ++ input) s rest := by
  obtain ⟨resolved, t, rfl, hclose, hspells⟩ := h
  refine ⟨.char c :: resolved, p ++ t, (List.append_assoc ..).symm, ?_, ?_⟩
  · rwa [List.reverse_cons, List.append_assoc] at hclose
  · intro cs hcs
    cases cs with
    | nil => cases hcs
    | cons c' cs =>
      obtain ⟨hc, hrest⟩ := List.cons.inj hcs
      cases hc
      exact spells (hspells cs hrest)

/-- One more byte that is part of no character was taken: the end of the string
judges it. -/
theorem StringRead.stray {read input rest : Input} {s : String}
    (h : StringRead (.stray :: read) input s rest) :
    StringRead read (.stray :: input) s rest := by
  obtain ⟨resolved, t, rfl, hclose, -⟩ := h
  refine ⟨.stray :: resolved, .stray :: t, rfl, ?_, ?_⟩
  · rwa [List.reverse_cons, List.append_assoc] at hclose
  · intro cs hcs
    cases cs <;> cases hcs

/-- Ending a string takes nothing more. -/
theorem rest_of_closeString {resolved rest rest' : Input} {s : String}
    (h : closeString resolved rest = .ok (s, rest')) : rest' = rest := by
  unfold closeString at h
  split at h
  next =>
    cases h
    rfl
  next => cases h

/-- The first half of a pair of code units was followed by the second. -/
theorem low_of_readStringFrom {n : Nat} {read input rest : Input} {s : String}
    (h : readStringFrom (.afterHigh n) read input = .ok (s, rest)) :
    ∃ k r more, Quad k r ∧ isLowSurrogate k = true ∧
      input = .char '\\' :: .char 'u' :: (r ++ more) ∧
      readStringFrom .plain (.char (ofSurrogates n k) :: read) more =
        .ok (s, rest) := by
  rcases input with _ | ⟨slash, input⟩
  · cases h
  · rw [readStringFrom] at h
    split at h
    next hslash =>
      rcases input with _ | ⟨u, input⟩
      · cases h
      · rw [readStringFrom] at h
        split at h
        next hu =>
          obtain ⟨k, r, more, quad, rfl⟩ := exists_quad h
          rw [readStringFrom_quad quad] at h
          dsimp only at h
          split at h
          next low => exact ⟨k, r, more, quad, low, by rw [hslash, hu], h⟩
          next => cases h
        next => cases h
    next => cases h

/-- After a backslash an escape was read, and then the rest of the string. -/
theorem escape_of_readStringFrom {read input rest : Input} {s : String}
    (h : readStringFrom .escape read input = .ok (s, rest)) :
    ∃ c p more, input = p ++ more ∧
      readStringFrom .plain (.char c :: read) more = .ok (s, rest) ∧
      ∀ {cs t}, SpellsChars cs t →
      SpellsChars (c :: cs) (.char '\\' :: (p ++ t)) := by
  rcases input with _ | ⟨e | _, input⟩
  · cases h
  · rw [readStringFrom] at h
    split at h
    next hu =>
      subst hu
      obtain ⟨n, q, input, quad, rfl⟩ := exists_quad h
      rw [readStringFrom_quad quad] at h
      dsimp only at h
      split at h
      next => cases h
      next hlow =>
      split at h
      next hhigh =>
        obtain ⟨k, r, more, second, low, rfl, hmore⟩ := low_of_readStringFrom h
        refine ⟨ofSurrogates n k, .char 'u' ::
          (q ++ .char '\\' :: .char 'u' :: r), more, ?_, hmore, ?_⟩
        · simp
        · intro cs t rest
          simpa using SpellsChars.pair quad second hhigh low rest
      next hhigh =>
        refine ⟨Char.ofNat n, .char 'u' :: q, input, rfl, h, fun rest => ?_⟩
        exact .code quad (Bool.eq_false_iff.mpr hhigh)
          (Bool.eq_false_iff.mpr hlow) rest
    next =>
    split at h
    next c hc => exact ⟨c, [.char e], input, rfl, h, fun rest => .short hc rest⟩
    next => cases h
  · cases h

/-- Where a string is read to its end, its characters and escapes were there.
The induction is on a bound for what is left. -/
theorem stringRead_of_readStringFrom {s : String} {rest : Input} :
    ∀ (n : Nat) {read input : Input}, input.length < n →
      readStringFrom .plain read input = .ok (s, rest) →
      StringRead read input s rest := by
  -- on the length of what is left: an escape takes several symbols at once
  intro n
  induction n with
  | zero => exact fun hn => absurd hn (Nat.not_lt_zero _)
  | succ n ih =>
    intro read input hn h
    rcases input with _ | ⟨c | _, input⟩
    · cases h
    · have hinput : input.length < n := Nat.lt_of_succ_lt_succ hn
      rw [readStringFrom] at h
      split at h
      next hquote =>
        subst hquote
        obtain rfl := rest_of_closeString h
        refine ⟨[], [.char '"'], rfl, ?_, ?_⟩
        · rwa [List.append_nil]
        · intro cs hcs
          cases cs with
          | nil => exact .close
          | cons c cs => cases hcs
      next hquote =>
      split at h
      next hslash =>
        subst hslash
        obtain ⟨c, p, more, rfl, h, spells⟩ := escape_of_readStringFrom h
        rw [List.length_append] at hinput
        exact StringRead.char (p := .char '\\' :: p) (ih (by omega) h) spells
      next hslash =>
      split at h
      next => cases h
      next hcontrol =>
        refine StringRead.char (p := [.char c]) (ih hinput h) fun rest => ?_
        exact .plain hquote hslash (Nat.le_of_not_lt hcontrol) rest
    · rw [readStringFrom] at h
      exact (ih (Nat.lt_of_succ_lt_succ hn) h).stray

/-- Where every byte is part of a character, nothing is lost in the text. -/
theorem symbols_charsOf {resolved : Input} (h : fromStray resolved = []) :
    symbols (charsOf resolved) = resolved := by
  induction resolved with
  | nil => rfl
  | cons s resolved ih =>
    cases s with
    | char c => exact congrArg (Symbol.char c :: ·) (ih h)
    | stray => cases h

/-- Where a string is read after its opening quotation mark, there was a text of
it. -/
theorem exists_of_readString {input rest : Input} {s : String}
    (h : readString input = .ok (s, rest)) :
    ∃ t, SpellsString s (.char '"' :: t) ∧ input = t ++ rest := by
  obtain ⟨resolved, t, hinput, hclose, hspells⟩ :=
    stringRead_of_readStringFrom (input.length + 1) (Nat.lt_succ_self _) h
  rw [List.reverse_nil, List.nil_append] at hclose
  unfold closeString at hclose
  split at hclose
  next hstray =>
    cases hclose
    exact ⟨t, .quoted (hspells _ (symbols_charsOf hstray).symm), hinput⟩
  next => cases hclose

/-! ## Numbers -/

/-- The digits that are read are those in front. -/
theorem exists_of_readDigits {input rest : Input} {ds : List Nat}
    (h : readDigits input = (ds, rest)) :
    ∃ t, input = t ++ rest ∧ (∀ s ∈ t, s.digit?.isSome = true) ∧
      ds = t.filterMap Symbol.digit? := by
  induction input generalizing ds with
  | nil =>
    cases h
    exact ⟨[], rfl, nofun, rfl⟩
  | cons s input ih =>
    unfold readDigits at h
    cases hs : s.digit? with
    | none =>
      rw [hs] at h
      cases h
      exact ⟨[], rfl, nofun, rfl⟩
    | some d =>
      rw [hs] at h
      cases h
      obtain ⟨t, hinput, hall, hds⟩ := ih rfl
      refine ⟨s :: t, congrArg (s :: ·) hinput,
        List.forall_mem_cons.mpr ⟨?_, hall⟩, ?_⟩
      · rw [hs]
        rfl
      · rw [List.filterMap_cons, hs, hds]

/-- Digits that were read are a text of digits, if there are any. -/
theorem digits_of_readDigits {input rest : Input} {d : Nat} {ds : List Nat}
    (h : readDigits input = (d :: ds, rest)) :
    ∃ t, Digits t ∧ input = t ++ rest ∧ d :: ds = t.filterMap Symbol.digit? := by
  obtain ⟨t, hinput, hall, hds⟩ := exists_of_readDigits h
  refine ⟨t, ⟨?_, hall⟩, hinput, hds⟩
  rintro rfl
  cases hds

/-- A number with a fraction or an exponent is read as no integer. -/
theorem real_of_realNumber {negative : Bool} {significand : Nat}
    {exponent : Int} {input rest : Input} {n : Number}
    (h : realNumber negative significand exponent input = .ok (n, rest)) :
    rest = input ∧ ∃ x, n = .real x := by
  unfold realNumber at h
  split at h
  next =>
    cases h
    exact ⟨rfl, _, rfl⟩
  next => cases h

/-- Before an exponent there is one sign or none. -/
theorem exists_sign {down : Bool} {input rest : Input}
    (h : (match input with
      | .char '+' :: rest => (false, rest)
      | .char '-' :: rest => (true, rest)
      | _ => (false, input)) = (down, rest)) :
    ∃ sign, (sign = [] ∨ sign = [.char '+'] ∨ sign = [.char '-']) ∧
      input = sign ++ rest := by
  split at h <;> cases h
  · exact ⟨[.char '+'], .inr (.inl rfl), rfl⟩
  · exact ⟨[.char '-'], .inr (.inr rfl), rfl⟩
  · exact ⟨[], .inl rfl, rfl⟩

/-- Where an exponent is read after its letter, there was one. -/
theorem exponent_of_readExponent {negative : Bool} {significand : Nat}
    {shift : Int} {input rest : Input} {n : Number} {e : Char}
    (letter : e = 'e' ∨ e = 'E')
    (h : readExponent negative significand shift input = .ok (n, rest)) :
    ∃ x, ExponentPart x ∧ .char e :: input = x ++ rest ∧ ∃ r, n = .real r := by
  have part : ∀ {sign rest' : Input} {ds : List Nat},
      (sign = [] ∨ sign = [.char '+'] ∨ sign = [.char '-']) → input = sign ++ rest' →
      readDigits rest' = (ds, rest) → ds ≠ [] →
      ∃ x, ExponentPart x ∧ .char e :: input = x ++ rest := by
    intro sign rest' ds signed hinput hdigits hne
    obtain ⟨d, ds, rfl⟩ := List.exists_cons_of_ne_nil hne
    obtain ⟨t, digits, rfl, -⟩ := digits_of_readDigits hdigits
    refine ⟨_, .some letter signed digits, ?_⟩
    rw [hinput, List.cons_append, List.append_assoc]
  revert h
  fun_cases readExponent negative significand shift input with
  | case1 | case2 | case3 =>
    intro h
    cases h
  | case4 _ _ hsign ds _ _ hne hdigits =>
    intro h
    cases h
    obtain ⟨sign, signed, hinput⟩ := exists_sign hsign
    obtain ⟨x, hx, heq⟩ := part signed hinput hdigits hne
    exact ⟨x, hx, heq, _, rfl⟩
  | case5 _ _ hsign ds _ _ hne hdigits =>
    intro h
    obtain ⟨rfl, hreal⟩ := real_of_realNumber h
    obtain ⟨sign, signed, hinput⟩ := exists_sign hsign
    obtain ⟨x, hx, heq⟩ := part signed hinput hdigits hne
    exact ⟨x, hx, heq, hreal⟩

/-- Where a fraction is read after its point, there was one, and an exponent
maybe. -/
theorem fraction_of_readFraction {negative : Bool} {significand : Nat}
    {shift : Int} {input rest : Input} {n : Number}
    (h : readFraction negative significand shift input = .ok (n, rest)) :
    ∃ f x, FractionPart f ∧ ExponentPart x ∧ .char '.' :: input = f ++ (x ++ rest) ∧
      ∃ r, n = .real r := by
  unfold readFraction at h
  split at h
  next => cases h
  next ds more hne hdigits =>
    obtain ⟨d, ds, rfl⟩ := List.exists_cons_of_ne_nil hne
    obtain ⟨t, digits, rfl, -⟩ := digits_of_readDigits hdigits
    dsimp only at h
    split at h
    next =>
      obtain ⟨x, hx, heq, hreal⟩ := exponent_of_readExponent (.inl rfl) h
      exact ⟨_, x, .some digits, hx, by rw [heq]; rfl, hreal⟩
    next =>
      obtain ⟨x, hx, heq, hreal⟩ := exponent_of_readExponent (.inr rfl) h
      exact ⟨_, x, .some digits, hx, by rw [heq]; rfl, hreal⟩
    next =>
      obtain ⟨rfl, hreal⟩ := real_of_realNumber h
      exact ⟨_, [], .some digits, .none, rfl, hreal⟩

/-- A significand that took in all digits is their number, and has no more than
64 bits. -/
theorem eq_of_absorb {ds : List Nat} :
    ∀ {start significand taken : Nat}, start ≤ maxUnsigned →
      absorb start ds = (significand, taken, 0) →
      significand = ds.foldl (fun n d => n * 10 + d) start ∧
      significand ≤ maxUnsigned := by
  induction ds with
  | nil =>
    intro start significand taken hstart h
    cases h
    exact ⟨rfl, hstart⟩
  | cons d ds ih =>
    intro start significand taken hstart h
    unfold absorb at h
    split at h
    next hle =>
      cases hmore : absorb (start * 10 + d) ds with
      | mk s more =>
        obtain ⟨t, dropped⟩ := more
        rw [hmore] at h
        cases h
        exact ih hle hmore
    next => cases h

/-- A digit is written as it was. -/
theorem digitChar_of_digit? {s : Symbol} {d : Nat} (h : s.digit? = some d) :
    d < 10 ∧ s = .char (Nat.digitChar d) := by
  cases s with
  | stray => cases h
  | char c =>
    rw [digit?_char] at h
    split at h
    next hc =>
      obtain ⟨hlow, hhigh⟩ := hc
      cases h
      have hlow' : 48 ≤ c.toNat := hlow
      have hhigh' : c.toNat ≤ 57 := hhigh
      have all : ∀ k < 10, Nat.digitChar k = Char.ofNat (48 + k) := by decide
      have hlt : c.toNat - '0'.toNat < 10 := by
        show c.toNat - 48 < 10
        omega
      refine ⟨hlt, ?_⟩
      rw [all _ hlt, show 48 + (c.toNat - '0'.toNat) =
        c.toNat from Nat.add_sub_cancel' hlow',
        Char.ofNat_toNat]
    next => cases h

/-- Digits without a zero in front are those of their number. -/
theorem symbols_digits {t : Input} (digits : Digits t)
    (hzero : t.head? ≠ some (.char '0')) :
    symbols (Text.digits (ofDigits (t.filterMap Symbol.digit?))) = t := by
  -- on the digits from the last one on: the others are those of the number
  -- divided by ten
  obtain ⟨hne, hall⟩ := digits
  induction t using List.reverseRecOn with
  | nil => exact absurd rfl hne
  | append_singleton u s ih =>
    obtain ⟨d, hd⟩ := Option.isSome_iff_exists.mp (hall s (by simp))
    obtain ⟨hlt, hs⟩ := digitChar_of_digit? hd
    have hvalue : ofDigits ((u ++ [s]).filterMap Symbol.digit?) =
        ofDigits (u.filterMap Symbol.digit?) * 10 + d := by
      unfold ofDigits
      rw [List.filterMap_append, List.foldl_append, List.filterMap_cons, hd]
      rfl
    rw [hvalue]
    rcases eq_or_ne u [] with rfl | hu
    · unfold Text.digits
      rw [Nat.toDigits_of_lt_base (by simpa [ofDigits] using hlt), hs]
      simp [ofDigits, symbols]
    · have hhead : u.head? ≠ some (.char '0') := by
        obtain ⟨_, _, rfl⟩ := List.exists_cons_of_ne_nil hu
        exact hzero
      have hfront := ih hhead hu fun s hs => hall s (List.mem_append_left _ hs)
      generalize ofDigits (u.filterMap Symbol.digit?) = n at hfront ⊢
      have hpos : n ≠ 0 := by
        rintro rfl
        exact hhead (hfront ▸ rfl)
      unfold Text.digits at hfront ⊢
      rw [Nat.toDigits_of_base_le (by omega) (by omega), symbols_append,
        show (n * 10 + d) / 10 =
          n by omega, show (n * 10 + d) % 10 = d by omega, hfront, hs]
      rfl

/-- Digits that were read before a point are the digits of a number, with no
zero in front. -/
theorem wholePart_of_readDigits {input rest : Input} {d : Nat} {ds : List Nat}
    (h : readDigits input = (d :: ds, rest)) (hzero : d = 0 → ds = []) :
    ∃ w, WholePart w ∧ input = w ++ rest ∧
      w = symbols (Text.digits (ofDigits (d :: ds))) := by
  obtain ⟨t, digits, hinput, hds⟩ := digits_of_readDigits h
  rcases Decidable.em (t.head? = some (.char '0')) with hhead | hhead
  · obtain ⟨u, rfl⟩ := List.head?_eq_some_iff.mp hhead
    have hdigit : (Symbol.char '0').digit? = some 0 := by decide
    simp only [List.filterMap_cons, hdigit, List.cons.injEq] at hds
    obtain ⟨rfl, hds⟩ := hds
    obtain rfl := hzero rfl
    -- nothing follows a zero in front
    have hu : u = [] := by
      by_contra hne
      exact filterMap_digits_ne_nil
        ⟨hne, fun s hs => digits.2 s (List.mem_cons_of_mem _ hs)⟩ hds.symm
    subst hu
    exact ⟨_, .inl rfl, hinput, rfl⟩
  · refine ⟨t, .inr ⟨digits, hhead⟩, hinput, ?_⟩
    rw [hds, symbols_digits digits hhead]

/-- Where a number is read after its sign, there was one; and an integer was
nothing but digits. -/
theorem numeral_of_readNumber {negative : Bool} {input rest : Input}
    {n : Number} (h : readNumber negative input = .ok (n, rest)) :
    ∃ w f x, WholePart w ∧ FractionPart f ∧ ExponentPart x ∧
      input = w ++ (f ++ (x ++ rest)) ∧
      ∀ i, n = .int i → f = [] ∧ x = [] ∧ ∃ k ≤ maxUnsigned,
      w = symbols (Text.digits k) ∧ integerNumber negative k = .int i := by
  unfold readNumber at h
  split at h
  next => cases h
  next => cases h
  next => cases h
  next ds more _ hne hzero hdigits =>
    obtain ⟨d, ds, rfl⟩ := List.exists_cons_of_ne_nil hne
    have hfirst : d = 0 → ds = [] := by
      rintro rfl
      by_contra hds
      obtain ⟨d', ds, rfl⟩ := List.exists_cons_of_ne_nil hds
      exact hzero d' ds rfl
    obtain ⟨w, hw, rfl, hspelled⟩ := wholePart_of_readDigits hdigits hfirst
    rcases habsorb : absorb 0 (d :: ds) with ⟨significand, taken, dropped⟩
    rw [habsorb] at h
    dsimp only at h
    split at h
    next =>
      obtain ⟨f, x, hf, hx, heq, r, rfl⟩ := fraction_of_readFraction h
      exact ⟨w, f, x, hw, hf, hx, by rw [heq], nofun⟩
    next =>
      obtain ⟨x, hx, heq, r, rfl⟩ := exponent_of_readExponent (.inl rfl) h
      exact ⟨w, [], x, hw, .none, hx, by rw [heq]; rfl, nofun⟩
    next =>
      obtain ⟨x, hx, heq, r, rfl⟩ := exponent_of_readExponent (.inr rfl) h
      exact ⟨w, [], x, hw, .none, hx, by rw [heq]; rfl, nofun⟩
    next =>
    split at h
    next hdropped =>
      subst hdropped
      obtain ⟨hvalue, hle⟩ := eq_of_absorb (Nat.zero_le _) habsorb
      cases h
      refine ⟨w, [], [], hw, .none, .none, rfl,
        fun i hi => ⟨rfl, rfl, significand, hle, ?_, hi⟩⟩
      rw [hspelled, hvalue]
      rfl
    next =>
      obtain ⟨rfl, r, rfl⟩ := real_of_realNumber h
      exact ⟨w, [], [], hw, .none, .none, rfl, nofun⟩

/-- An integer that is kept is written as its sign and its digits. -/
theorem text_of_integerNumber {negative : Bool} {k : Nat} {i : Int}
    (hk : k ≤ maxUnsigned) (h : integerNumber negative k = .int i) :
    InRange i ∧
      (Number.int i).text = (if negative then ['-'] else []) ++ Text.digits k := by
  have hmax : maxNegative ≤ maxUnsigned := by decide
  unfold integerNumber at h
  cases negative with
  | false =>
    cases h
    refine ⟨⟨by omega, Int.ofNat_le.mpr hk⟩, ?_⟩
    show (if (k : Int) < 0 then '-' :: Text.digits k else Text.digits k) =
      Text.digits k
    rw [if_neg (by omega)]
  | true =>
    rw [if_neg (by decide)] at h
    split at h
    next => cases h
    next hrange =>
      cases h
      refine ⟨⟨by omega, by omega⟩, ?_⟩
      show (if -(k : Int) < 0 then '-' :: Text.digits (-(k : Int)).natAbs
        else Text.digits (-(k : Int)).natAbs) = '-' :: Text.digits k
      rw [if_pos (by omega), Int.natAbs_neg, Int.natAbs_natCast]

/-- A number that was read was spelled there; `negative` tells whether a sign
stood before. -/
theorem spells_of_readNumber {negative : Bool} {input rest : Input} {n : Number}
    (h : readNumber negative input = .ok (n, rest)) :
    ∃ t, Spells (.number n) ((if negative then [.char '-'] else []) ++ t) ∧
      input = t ++ rest := by
  obtain ⟨w, f, x, hw, hf, hx, hinput, hint⟩ := numeral_of_readNumber h
  refine ⟨w ++ (f ++ x), .number ?_ fun i hi => ?_, by simp [hinput]⟩
  · cases negative with
    | true =>
      show Numeral (.char '-' :: (w ++ (f ++ x)))
      exact .negative hw hf hx
    | false =>
      show Numeral (w ++ (f ++ x))
      exact .positive hw hf hx
  · obtain ⟨rfl, rfl, k, hk, rfl, hinteger⟩ := hint i hi
    obtain ⟨hrange, htext⟩ := text_of_integerNumber hk hinteger
    refine ⟨hrange, ?_⟩
    rw [hi, htext, List.append_nil, List.append_nil, symbols_append]
    cases negative <;> rfl

/-! ## Values -/

/-- A value without brackets was spelled where it was found. -/
theorem spells_of_readFound {s : Symbol} {input rest : Input} {j : Json}
    (hs : s ≠ .char '[') (hs' : s ≠ .char '\x7b')
      (h : readFound (s :: input) = .ok (j, rest)) :
    ∃ t, Spells j t ∧ s :: input = t ++ rest := by
  unfold readFound at h
  split at h
  next heq =>
    cases heq
    obtain ⟨more, hword, h⟩ := exists_of_bind_eq_ok h
    cases h
    exact ⟨_, .null, congrArg (_ :: ·) (eq_of_readWord hword)⟩
  next heq =>
    cases heq
    obtain ⟨more, hword, h⟩ := exists_of_bind_eq_ok h
    cases h
    exact ⟨_, .true, congrArg (_ :: ·) (eq_of_readWord hword)⟩
  next heq =>
    cases heq
    obtain ⟨more, hword, h⟩ := exists_of_bind_eq_ok h
    cases h
    exact ⟨_, .false, congrArg (_ :: ·) (eq_of_readWord hword)⟩
  next heq =>
    cases heq
    obtain ⟨⟨text, more⟩, hstring, h⟩ := exists_of_bind_eq_ok h
    cases h
    obtain ⟨t, htext, rfl⟩ := exists_of_readString hstring
    exact ⟨_, .string htext, rfl⟩
  next heq =>
    cases heq
    obtain ⟨⟨n, more⟩, hnumber, h⟩ := exists_of_bind_eq_ok h
    cases h
    obtain ⟨t, hspelled, rfl⟩ := spells_of_readNumber hnumber
    exact ⟨_, hspelled, rfl⟩
  next heq => exact absurd (List.cons.inj heq).1 hs
  next heq => exact absurd (List.cons.inj heq).1 hs'
  next heq => cases heq
  next heq =>
    cases heq
    split at h
    next =>
      obtain ⟨⟨n, more⟩, hnumber, h⟩ := exists_of_bind_eq_ok h
      cases h
      obtain ⟨t, hspelled, hinput⟩ := spells_of_readNumber hnumber
      exact ⟨_, hspelled, hinput⟩
    next => cases h

/-- A reader reads a value only where a text of it is, behind blanks. -/
def Sound (reader : Reader Json) : Prop :=
  ∀ ⦃input rest : Input⦄ ⦃j : Json⦄, reader input = .ok (j, rest) →
    ∃ b t, Blank b ∧ Spells j t ∧ input = b ++ (t ++ rest)

/-- What stands before an item takes in the blanks behind it. -/
theorem Lead.append {first : Bool} {lead b : Input} (h : Lead first lead)
    (hb : Blank b) : Lead first (lead ++ b) := by
  cases h with
  | first blank => exact .first (blank.append hb)
  | next before after =>
    rw [List.append_assoc, List.cons_append]
    exact .next before (after.append hb)

/-- Another item is found behind what has to stand before it, or the closing
bracket behind blanks. -/
theorem nextItem_inv {first more : Bool} {input rest : Input}
    (h : nextItem first input = .ok (more, rest)) :
    (more = true ∧ ∃ lead, Lead first lead ∧ input = lead ++ rest) ∨
      (more = false ∧ ∃ b u, Blank b ∧ rest = .char ']' :: u ∧
        input = b ++ rest) := by
  obtain ⟨b, hb, hinput⟩ := exists_skipBlanks input
  unfold nextItem at h
  split at h
  next => cases h
  next u heq =>
    cases h
    exact .inr ⟨rfl, b, u, hb, rfl, heq ▸ hinput⟩
  next s u _ heq =>
    rw [heq] at hinput
    split at h
    next hfirst =>
      cases h
      subst hfirst
      exact .inl ⟨rfl, b, .first hb, hinput⟩
    next hfirst =>
    split at h
    next hcomma =>
      subst hcomma
      obtain ⟨b', hb', hu⟩ := exists_skipBlanks u
      split at h
      next => cases h
      next => cases h
      next =>
        cases h
        rw [Bool.not_eq_true] at hfirst
        subst hfirst
        refine .inl ⟨rfl, _, .next hb hb', ?_⟩
        rw [List.append_assoc, List.cons_append, ← hu]
        exact hinput
    next => cases h

/-- Items that were read were spelled, up to a bracket. -/
theorem spells_of_readItemsFrom {item : Reader Json} (hitem : Sound item)
    {fuel : Nat} :
    ∀ {first : Bool} {input rest : Input} {items : List Json},
      readItemsFrom item fuel first input = .ok (items, rest) →
      ∃ t u, rest = .char ']' :: u ∧ SpellsItems first items t ∧ input = t ++ u := by
  induction fuel with
  | zero => exact nofun
  | succ fuel ih =>
    intro first input rest items h
    unfold readItemsFrom at h
    obtain ⟨⟨more, next⟩, hnext, hmore⟩ := exists_of_bind_eq_ok h
    rcases nextItem_inv hnext with ⟨rfl, lead, hlead, rfl⟩ |
        ⟨rfl, b, u, hb, rfl, rfl⟩
    · obtain ⟨⟨j, later⟩, hj, hrest⟩ := exists_of_bind_eq_ok hmore
      obtain ⟨⟨others, last⟩, hothers, hlast⟩ := exists_of_bind_eq_ok hrest
      cases hlast
      obtain ⟨b, t, hb, value, rfl⟩ := hitem hj
      obtain ⟨t', u, hclose, inside, rfl⟩ := ih hothers
      exact ⟨_, u, hclose, .item (hlead.append hb) value inside, by simp⟩
    · cases hmore
      exact ⟨_, u, rfl, .close hb, by simp⟩

/-- Another key is found behind what has to stand before it, or the closing
brace behind blanks. -/
theorem nextKey_inv {first : Bool} {input rest : Input} {key : Option String}
    (h : nextKey first input = .ok (key, rest)) :
    (∃ name lead k, key = some name ∧ Lead first lead ∧ SpellsString name k ∧
        input = lead ++ (k ++ rest)) ∨
      (key = none ∧ ∃ b, Blank b ∧ input = b ++ .char '\x7d' :: rest) := by
  obtain ⟨b, hb, hinput⟩ := exists_skipBlanks input
  unfold nextKey at h
  split at h
  next => cases h
  next u heq =>
    cases h
    exact .inr ⟨rfl, b, hb, heq ▸ hinput⟩
  next s u _ heq =>
    rw [heq] at hinput
    split at h
    next hfirst =>
      subst hfirst
      split at h
      next hquote =>
        subst hquote
        obtain ⟨⟨name, more⟩, hname, h⟩ := exists_of_bind_eq_ok h
        cases h
        obtain ⟨t, htext, rfl⟩ := exists_of_readString hname
        exact .inl ⟨name, b, _, rfl, .first hb, htext, hinput⟩
      next => cases h
    next hfirst =>
    rw [Bool.not_eq_true] at hfirst
    subst hfirst
    split at h
    next hcomma =>
      subst hcomma
      obtain ⟨b', hb', hu⟩ := exists_skipBlanks u
      split at h
      next heq' =>
        obtain ⟨⟨name, more⟩, hname, h⟩ := exists_of_bind_eq_ok h
        cases h
        obtain ⟨t, htext, rfl⟩ := exists_of_readString hname
        refine .inl ⟨name, _, _, rfl, .next hb hb', htext, ?_⟩
        rw [heq'] at hu
        rw [hinput, hu]
        simp
      next => cases h
      next => cases h
      next => cases h
    next => cases h

/-- Where the end of a list is read, it was there behind blanks. -/
theorem endList_inv {input rest : Input} (h : endList input = .ok rest) :
    ∃ b, Blank b ∧ input = b ++ .char ']' :: rest := by
  obtain ⟨b, hb, hinput⟩ := exists_skipBlanks input
  unfold endList at h
  split at h
  next heq =>
    cases h
    exact ⟨b, hb, heq ▸ hinput⟩
  next => split at h <;> cases h
  next => cases h
  next => cases h

/-- Where a colon is read, there was one behind blanks. -/
theorem readColon_inv {input rest : Input} (h : readColon input = .ok rest) :
    ∃ b, Blank b ∧ input = b ++ .char ':' :: rest := by
  obtain ⟨b, hb, hinput⟩ := exists_skipBlanks input
  unfold readColon at h
  split at h
  next heq =>
    cases h
    exact ⟨b, hb, heq ▸ hinput⟩
  next => cases h
  next => cases h

/-- Members that were read were spelled, with the closing brace. -/
theorem spells_of_readMembersFrom {value : Reader Json} (hvalue : Sound value)
    {fuel : Nat} :
    ∀ {first : Bool} {input rest : Input} {members : List (String × Json)},
      readMembersFrom value fuel first input = .ok (members, rest) →
      ∃ t, SpellsMembers first members t ∧ input = t ++ rest := by
  induction fuel with
  | zero => exact nofun
  | succ fuel ih =>
    intro first input rest members h
    unfold readMembersFrom at h
    obtain ⟨⟨key, next⟩, hnext, hmore⟩ := exists_of_bind_eq_ok h
    rcases nextKey_inv hnext with ⟨name, lead, k, rfl, hlead, hname,
      rfl⟩ | ⟨rfl, b, hb, rfl⟩
    · obtain ⟨colon, hcolon, hcontent⟩ := exists_of_bind_eq_ok hmore
      obtain ⟨⟨j, later⟩, hj, hrest⟩ := exists_of_bind_eq_ok hcontent
      obtain ⟨⟨others, last⟩, hothers, hlast⟩ := exists_of_bind_eq_ok hrest
      cases hlast
      obtain ⟨b, hb, rfl⟩ := readColon_inv hcolon
      obtain ⟨b', t, hb', spelled, rfl⟩ := hvalue hj
      obtain ⟨t', inside, rfl⟩ := ih hothers
      exact ⟨_, .member hlead hname hb hb' spelled inside, by simp⟩
    · cases hmore
      exact ⟨_, .close hb, by simp⟩

/-- **A value is read only where a text of it is.** -/
theorem readWritten_sound (depth : Nat) : Sound (readWritten depth) := by
  -- on the brackets to spare: what stands inside a bracket is read with one
  -- less
  induction depth using Nat.strongRecOn with
  | _ depth ih =>
    intro input rest j h
    obtain ⟨b, hb, hinput⟩ := exists_skipBlanks input
    unfold readWritten at h
    split at h
    next => cases h
    next u heq =>
      split at h
      next => cases h
      next depth =>
        obtain ⟨⟨items, more⟩, hitems, hend⟩ := exists_of_bind_eq_ok h
        obtain ⟨last, hlast, hj⟩ := exists_of_bind_eq_ok hend
        cases hj
        obtain ⟨t, u', rfl, inside, rfl⟩ :=
          spells_of_readItemsFrom (ih depth (by omega)) hitems
        have hclose := endList_close blank_nil u'
        rw [List.nil_append, hlast] at hclose
        cases hclose
        rw [heq] at hinput
        exact ⟨b, _, hb, .array inside, hinput⟩
    next u heq =>
      split at h
      next => cases h
      next depth =>
        obtain ⟨⟨members, more⟩, hmembers, hj⟩ := exists_of_bind_eq_ok h
        cases hj
        obtain ⟨t, inside, rfl⟩ :=
          spells_of_readMembersFrom (ih depth (by omega)) hmembers
        rw [heq] at hinput
        exact ⟨b, _, hb, .object inside, hinput⟩
    next s u hs hs' heq =>
      obtain ⟨t, value, ht⟩ := spells_of_readFound hs hs' h
      rw [heq, ht] at hinput
      exact ⟨b, t, hb, value, hinput⟩

/-- **Only texts of values are read.** What is read from a source is the
canonical form of a value that the source is a text of. -/
theorem spelled_of_parse {source : String} {j : Json}
    (h : parse source = .ok j) :
    ∃ w : Json, w.Spelled source ∧ w.canonical = j := by
  unfold parse readDocument at h
  obtain ⟨⟨v, rest⟩, hvalue, hend⟩ := exists_of_bind_eq_ok h
  obtain ⟨⟨w, rest'⟩, hwritten, hv⟩ := exists_of_bind_eq_ok hvalue
  cases hv
  obtain ⟨b, t, hb, value, hinput⟩ := readWritten_sound maxDepth hwritten
  obtain ⟨b', hb', hrest⟩ := exists_skipBlanks rest
  dsimp only at hend
  split at hend
  next heq =>
    cases hend
    rw [heq, List.append_nil] at hrest
    subst hrest
    exact ⟨w, ⟨b, t, rest, hb, value, hb', hinput⟩, rfl⟩
  next => cases hend

end DetectorBench.Json
