import DetectorBench.Proofs.Json.Loose
import DetectorBench.Proofs.Json.Sound

/-!
# What is passed over is loose

`skipValue_loose` says that loose texts are passed over. Here is the converse:
where a value is passed over, a loose text was there (`loose_of_skipValue`). So
a byte that is part of no character is passed over inside a string or not at
all.

The fuel of the reader bounds the nesting, and the induction is on it; a string
is taken apart by the length of what is left, because an escape is several
symbols.
-/

namespace DetectorBench.Json

/-! ## Strings -/

/-- A digit of a code unit was there, and the next is due unless it was the
last. -/
theorem skipStringFrom_hex {due : Nat} {input rest : Input}
    (h : skipStringFrom (.hex due) input = .ok rest) :
    ∃ s d more, input = s :: more ∧ s.hexDigit? = some d ∧
      skipStringFrom (if due ≤ 1 then .plain else .hex (due - 1)) more =
        .ok rest := by
  cases input with
  | nil => cases h
  | cons s more =>
    rw [skipStringFrom] at h
    cases hd : s.hexDigit? with
    | none =>
      rw [hd] at h
      dsimp only at h
      split at h <;> cases h
    | some d =>
      rw [hd] at h
      exact ⟨s, d, more, rfl, hd, h⟩

/-- Where a code unit is passed over, there were its four digits. -/
theorem quad_of_skipStringFrom {input rest : Input}
    (h : skipStringFrom (.hex 4) input = .ok rest) :
    ∃ n q more, Quad n q ∧ input = q ++ more ∧
      skipStringFrom .plain more = .ok rest := by
  obtain ⟨a, w, input, rfl, ha, h⟩ := skipStringFrom_hex h
  obtain ⟨b, x, input, rfl, hb, h⟩ := skipStringFrom_hex h
  obtain ⟨c, y, input, rfl, hc, h⟩ := skipStringFrom_hex h
  obtain ⟨d, z, input, rfl, hd, h⟩ := skipStringFrom_hex h
  exact ⟨_, [a, b, c, d], input, .digits ha hb hc hd, rfl, h⟩

/-- After a backslash an escape was passed over, and then the rest of the
string. -/
theorem escape_of_skipStringFrom {input rest : Input}
    (h : skipStringFrom .escape input = .ok rest) :
    ∃ p more, input = p ++ more ∧ skipStringFrom .plain more = .ok rest ∧
      ∀ {t}, LooseChars t → LooseChars (.char '\\' :: (p ++ t)) := by
  rcases input with _ | ⟨e | _, input⟩
  · cases h
  · rw [skipStringFrom] at h
    split at h
    next hu =>
      subst hu
      obtain ⟨n, q, more, quad, rfl, hmore⟩ := quad_of_skipStringFrom h
      exact ⟨.char 'u' :: q, more, rfl, hmore, fun rest => .code quad rest⟩
    next =>
    split at h
    next hshort =>
      obtain ⟨c, hc⟩ := Option.isSome_iff_exists.mp hshort
      exact ⟨[.char e], input, rfl, h, fun rest => .short hc rest⟩
    next => cases h
  · cases h

theorem loose_of_skipStringFrom {rest : Input} :
    ∀ (n : Nat) {input : Input}, input.length < n →
      skipStringFrom .plain input = .ok rest → ∃ t,
      LooseChars t ∧ input = t ++ rest := by
  -- on the length of what is left: an escape takes several symbols at once
  intro n
  induction n with
  | zero => exact fun hn => absurd hn (Nat.not_lt_zero _)
  | succ n ih =>
    intro input hn h
    rcases input with _ | ⟨c | _, input⟩
    · cases h
    · have hinput : input.length < n := Nat.lt_of_succ_lt_succ hn
      rw [skipStringFrom] at h
      split at h
      next hquote =>
        cases h
        exact ⟨_, .close, by rw [hquote]; rfl⟩
      next hquote =>
      split at h
      next hslash =>
        subst hslash
        obtain ⟨p, more, rfl, h, loose⟩ := escape_of_skipStringFrom h
        rw [List.length_append] at hinput
        obtain ⟨t, ht, rfl⟩ := ih (by omega) h
        exact ⟨_, loose ht, by simp⟩
      next hslash =>
      split at h
      next => cases h
      next hcontrol =>
        obtain ⟨t, ht, rfl⟩ := ih hinput h
        exact ⟨_, .plain hquote hslash (Nat.le_of_not_lt hcontrol) ht, rfl⟩
    · obtain ⟨t, ht, rfl⟩ := ih (Nat.lt_of_succ_lt_succ hn) h
      exact ⟨_, .stray ht, rfl⟩

/-- Where a string is passed over, it was loose. -/
theorem loose_of_skipString {input rest : Input}
    (h : skipString input = .ok rest) :
    ∃ t, LooseChars t ∧ input = t ++ rest :=
  loose_of_skipStringFrom (input.length + 1) (Nat.lt_succ_self _) h

/-! ## Numbers -/

/-- Where an exponent is passed over after its letter, there was one. -/
theorem exponent_of_skipExponent {input rest : Input} {e : Char}
    (letter : e = 'e' ∨ e = 'E') (h : skipExponent input = .ok rest) :
    ∃ x, ExponentPart x ∧ .char e :: input = x ++ rest := by
  have part : ∀ (sign : Input) {digits : Input} {ds : List Nat},
      (sign = [] ∨ sign = [.char '+'] ∨ sign = [.char '-']) →
      input = sign ++ digits →
      readDigits digits = (ds, rest) → ds ≠ [] →
      ∃ x, ExponentPart x ∧ .char e :: input = x ++ rest := by
    rintro sign digits ds signed rfl hdigits hne
    obtain ⟨d, ds, rfl⟩ := List.exists_cons_of_ne_nil hne
    obtain ⟨t, hd, rfl, -⟩ := digits_of_readDigits hdigits
    exact ⟨_, .some letter signed hd, by simp⟩
  unfold skipExponent at h
  split at h
  · dsimp only at h
    split at h
    next => cases h
    next ds more hne hdigits =>
      cases h
      exact part [.char '+'] (.inr (.inl rfl)) rfl hdigits fun hds => hne hds
  · dsimp only at h
    split at h
    next => cases h
    next ds more hne hdigits =>
      cases h
      exact part [.char '-'] (.inr (.inr rfl)) rfl hdigits fun hds => hne hds
  · dsimp only at h
    split at h
    next => cases h
    next ds more hne hdigits =>
      cases h
      exact part [] (.inl rfl) rfl hdigits fun hds => hne hds

theorem exponent_of_skipExponent? {input rest : Input}
    (h : skipExponent? input = .ok rest) :
    ∃ x, ExponentPart x ∧ input = x ++ rest := by
  unfold skipExponent? at h
  split at h
  next => exact exponent_of_skipExponent (.inl rfl) h
  next => exact exponent_of_skipExponent (.inr rfl) h
  next =>
    cases h
    exact ⟨[], .none, rfl⟩

/-- Where a number is passed over after its sign, there was one. -/
theorem numeral_of_skipNumber {input rest : Input}
    (h : skipNumber input = .ok rest) :
    ∃ w f x, WholePart w ∧ FractionPart f ∧ ExponentPart x ∧
      input = w ++ (f ++ (x ++ rest)) := by
  have whole : ∀ {ds : List Nat} {more : Input}, readDigits input = (ds, more) →
      ds ≠ [] → (∀ d ds', ds ≠ 0 :: d :: ds') → ∃ w,
      WholePart w ∧ input = w ++ more := by
    intro ds more hdigits hne hzero
    obtain ⟨d, ds, rfl⟩ := List.exists_cons_of_ne_nil hne
    have hfirst : d = 0 → ds = [] := by
      rintro rfl
      by_contra hds
      obtain ⟨d', ds, rfl⟩ := List.exists_cons_of_ne_nil hds
      exact hzero d' ds rfl
    obtain ⟨w, hw, hinput, -⟩ := wholePart_of_readDigits hdigits hfirst
    exact ⟨w, hw, hinput⟩
  unfold skipNumber at h
  split at h
  next => cases h
  next => cases h
  next ds more hne hzero hdigits =>
    obtain ⟨w, hw, rfl⟩ :=
      whole hdigits (fun h => hne h) fun d ds' h => hzero d ds' h
    split at h
    next => cases h
    next ds' more' hne' hdigits' =>
      obtain ⟨d, ds', rfl⟩ := List.exists_cons_of_ne_nil fun hds => hne' hds
      obtain ⟨t, ht, rfl, -⟩ := digits_of_readDigits hdigits'
      obtain ⟨x, hx, rfl⟩ := exponent_of_skipExponent? h
      exact ⟨w, _, x, hw, .some ht, hx, rfl⟩
  next ds more hne hzero _ hdigits =>
    obtain ⟨w, hw, rfl⟩ :=
      whole hdigits (fun h => hne h) fun d ds' h => hzero d ds' h
    obtain ⟨x, hx, rfl⟩ := exponent_of_skipExponent? h
    exact ⟨w, [], x, hw, .none, hx, rfl⟩

/-! ## Values -/

/-- Where a key and its colon are passed over, the key was loose. -/
theorem loose_of_skipKey {input rest : Input} (h : skipKey input = .ok rest) :
    ∃ b k b', Blank b ∧ LooseString k ∧ Blank b' ∧
      input = b ++ (k ++ (b' ++ .char ':' :: rest)) := by
  obtain ⟨b, hb, hinput⟩ := exists_skipBlanks input
  unfold skipKey at h
  split at h
  next more heq =>
    rw [heq] at hinput
    obtain ⟨colon, hstring, hend⟩ := exists_of_bind_eq_ok h
    obtain ⟨t, ht, rfl⟩ := loose_of_skipString hstring
    obtain ⟨b', hb', hcolon⟩ := exists_skipBlanks colon
    split at hend
    next heq' =>
      cases hend
      rw [heq'] at hcolon
      exact ⟨b, _, b', hb, .quoted ht, hb', by rw [hinput, hcolon]; rfl⟩
    next => cases hend
    next => cases hend
  next => cases h
  next => cases h

/-- With this fuel a value is passed over only if it is loose. -/
def PassesLoose (fuel : Nat) : Prop :=
  ∀ ⦃input rest : Input⦄, skipValueFrom fuel input = .ok rest →
    ∃ b t, Blank b ∧ Loose t ∧ input = b ++ (t ++ rest)

/-- With this fuel items are passed over only if they are loose. -/
def PassesItems (fuel : Nat) : Prop :=
  ∀ ⦃first : Bool⦄ ⦃input rest : Input⦄, skipItemsFrom fuel first input = .ok rest →
    ∃ items t, ItemTexts first items t ∧ (∀ u ∈ items, Loose u) ∧ input = t ++ rest

/-- With this fuel members are passed over only if they are loose. -/
def PassesMembers (fuel : Nat) : Prop :=
  ∀ ⦃first : Bool⦄ ⦃input rest : Input⦄, skipMembersFrom fuel first input =
    .ok rest → ∃ members t, MemberTexts first members t ∧
    (∀ m ∈ members, LooseString m.1) ∧
      (∀ m ∈ members, Loose m.2) ∧ input = t ++ rest

theorem passesLoose_succ {fuel : Nat} (hitems : PassesItems fuel)
    (hmembers : PassesMembers fuel) : PassesLoose (fuel + 1) := by
  intro input rest h
  obtain ⟨b, hb, hinput⟩ := exists_skipBlanks input
  rw [skipValueFrom] at h
  split at h
  next => cases h
  next heq => exact ⟨b, _, hb, .null, by rw [hinput, heq, eq_of_readWord h]; rfl⟩
  next heq => exact ⟨b, _, hb, .true, by rw [hinput, heq, eq_of_readWord h]; rfl⟩
  next heq => exact ⟨b, _, hb, .false, by rw [hinput, heq, eq_of_readWord h]; rfl⟩
  next heq =>
    obtain ⟨t, ht, rfl⟩ := loose_of_skipString h
    exact ⟨b, _, hb, .string (.quoted ht), by rw [hinput, heq]; rfl⟩
  next heq =>
    obtain ⟨w, f, x, hw, hf, hx, rfl⟩ := numeral_of_skipNumber h
    exact ⟨b, _, hb, .number (.negative hw hf hx), by rw [hinput, heq]; simp⟩
  next heq =>
    obtain ⟨items, t, inside, values, rfl⟩ := hitems h
    exact ⟨b, _, hb, .array inside values, by rw [hinput, heq]; rfl⟩
  next heq =>
    obtain ⟨members, t, inside, keys, values, rfl⟩ := hmembers h
    exact ⟨b, _, hb, .object inside keys values, by rw [hinput, heq]; rfl⟩
  next heq =>
    split at h
    next =>
      obtain ⟨w, f, x, hw, hf, hx, hnumber⟩ := numeral_of_skipNumber h
      exact ⟨b, _, hb,
        .number (.positive hw hf hx), by rw [hinput, heq, hnumber]; simp⟩
    next => cases h

theorem passesItems_succ {fuel : Nat} (hvalues : PassesLoose fuel)
    (hitems : PassesItems fuel) : PassesItems (fuel + 1) := by
  intro first input rest h
  obtain ⟨b, hb, hinput⟩ := exists_skipBlanks input
  -- whatever stands before it, an item was passed over, and then the others
  have item : ∀ {lead next : Input}, Lead first lead → input = lead ++ next →
      (skipValueFrom fuel next >>= skipItemsFrom fuel false) = .ok rest →
      ∃ items t, ItemTexts first items t ∧ (∀ u ∈ items, Loose u) ∧
      input = t ++ rest := by
    rintro lead next before rfl h
    obtain ⟨more, hvalue, hrest⟩ := exists_of_bind_eq_ok h
    obtain ⟨b, t, hb, value, rfl⟩ := hvalues hvalue
    obtain ⟨items, u, inside, values, rfl⟩ := hitems hrest
    refine ⟨t :: items, _, .item (before.append hb) inside, ?_, by simp⟩
    exact List.forall_mem_cons.mpr ⟨value, values⟩
  rw [skipItemsFrom] at h
  split at h
  next => cases h
  next heq =>
    cases h
    exact ⟨[], _, .close hb, List.forall_mem_nil _, by rw [hinput, heq]; simp⟩
  next s more _ heq =>
    rw [heq] at hinput
    split at h
    next hfirst =>
      subst hfirst
      exact item (.first hb) hinput h
    next hfirst =>
    rw [Bool.not_eq_true] at hfirst
    subst hfirst
    split at h
    next hcomma =>
      subst hcomma
      exact item (.next hb blank_nil) (by rw [hinput]; simp) h
    next => cases h

theorem passesMembers_succ {fuel : Nat} (hvalues : PassesLoose fuel)
    (hmembers : PassesMembers fuel) : PassesMembers (fuel + 1) := by
  intro first input rest h
  obtain ⟨b, hb, hinput⟩ := exists_skipBlanks input
  have member : ∀ {lead next : Input}, Lead first lead → input = lead ++ next →
      (do
        let rest ← skipKey next
        let rest ← skipValueFrom fuel rest
        skipMembersFrom fuel false rest) = .ok rest →
      ∃ members t, MemberTexts first members t ∧ (∀ m ∈ members, LooseString m.1) ∧
        (∀ m ∈ members, Loose m.2) ∧ input = t ++ rest := by
    rintro lead next before rfl h
    obtain ⟨colon, hkey, hcolon⟩ := exists_of_bind_eq_ok h
    obtain ⟨more, hvalue, hrest⟩ := exists_of_bind_eq_ok hcolon
    obtain ⟨b, k, b', hb, name, hb', rfl⟩ := loose_of_skipKey hkey
    obtain ⟨gap, t, hgap, value, rfl⟩ := hvalues hvalue
    obtain ⟨members, u, inside, keys, values, rfl⟩ := hmembers hrest
    refine ⟨(k, t) :: members, _, .member (before.append hb) hb' hgap inside,
      ?_, ?_, by simp⟩
    · exact List.forall_mem_cons.mpr ⟨name, keys⟩
    · exact List.forall_mem_cons.mpr ⟨value, values⟩
  rw [skipMembersFrom] at h
  split at h
  next => cases h
  next heq =>
    cases h
    exact ⟨[], _, .close hb, List.forall_mem_nil _,
      List.forall_mem_nil _, by rw [hinput, heq]; simp⟩
  next s more _ heq =>
    rw [heq] at hinput
    split at h
    next hfirst =>
      subst hfirst
      exact member (.first hb) hinput h
    next hfirst =>
    rw [Bool.not_eq_true] at hfirst
    subst hfirst
    split at h
    next hcomma =>
      subst hcomma
      exact member (.next hb blank_nil) (by rw [hinput]; simp) h
    next => cases h

theorem passes_all (fuel : Nat) :
    PassesLoose fuel ∧ PassesItems fuel ∧ PassesMembers fuel := by
  -- all three at once: each goes on to the others with one less
  induction fuel with
  | zero => exact ⟨nofun, nofun, nofun⟩
  | succ fuel ih =>
    obtain ⟨hvalues, hitems, hmembers⟩ := ih
    exact ⟨passesLoose_succ hitems hmembers, passesItems_succ hvalues hitems,
      passesMembers_succ hvalues hmembers⟩

/-- **Only loose texts are passed over.** -/
theorem loose_of_skipValue {input rest : Input}
    (h : skipValue input = .ok rest) :
    ∃ b t, Blank b ∧ Loose t ∧ input = b ++ (t ++ rest) :=
  (passes_all _).1 h

end DetectorBench.Json
