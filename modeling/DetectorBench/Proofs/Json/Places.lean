import DetectorBench.Proofs.Json.Causes

/-!
# Where faults are placed

A fault tells how many bytes of the document were still before the reader. That
is a place in the document only if there are so many, and for a reader in the
midst of a document there are only those that it was given. So every reader
leaves no more bytes than it was given, and places its faults among those
(`Placed`); composing readers keeps to that (`Placed.bind`). The one reader that
reckons a place from something else than what is left is `closeString`, which
counts the bytes of a string with its escapes resolved: no escape is shorter
than what it stands for (`StringMode.taken`).
-/

namespace DetectorBench.Json

/-! ## Bytes -/

@[simp]
theorem Input.bytes_nil : Input.bytes [] = 0 :=
  rfl

/-- A symbol counts for as many bytes as it is wide. -/
@[simp]
theorem Input.bytes_cons (s : Symbol) (rest : Input) :
    Input.bytes (s :: rest) = s.width + Input.bytes rest :=
  rfl

@[simp]
theorem Symbol.width_char (c : Char) : (Symbol.char c).width = c.utf8Size :=
  rfl

@[simp]
theorem Symbol.width_stray : Symbol.stray.width = 1 :=
  rfl

/-- Behind a symbol there are no more bytes than with it. -/
theorem Input.bytes_tail_le (s : Symbol) (rest : Input) :
    rest.bytes ≤ Input.bytes (s :: rest) :=
  Nat.le_add_left _ _

/-- The bytes of two parts add up. -/
theorem Input.bytes_append (xs ys : Input) :
    Input.bytes (xs ++ ys) = Input.bytes xs + Input.bytes ys := by
  induction xs with
  | nil => simp
  | cons x xs ih => simp [ih, Nat.add_assoc]

/-- Built back to front, a string has the same bytes. -/
theorem Input.bytes_reverse (xs : Input) :
    Input.bytes xs.reverse = Input.bytes xs := by
  induction xs with
  | nil => rfl
  | cons x xs ih => simp [Input.bytes_append, ih, Nat.add_comm]

/-- Up to the last character of ASCII, a character is one byte. -/
theorem utf8Size_of_le {c d : Char} (h : c ≤ d) (hd : d.val ≤ 127) :
    c.utf8Size = 1 :=
  Char.utf8Size_eq_one_iff.mpr (UInt32.le_trans h hd)

/-- A digit is one byte, so that digits can be counted for bytes. -/
theorem Symbol.width_of_digit {s : Symbol} {d : Nat} (h : s.digit? = some d) :
    s.width = 1 := by
  cases s with
  | stray => cases h
  | char c =>
    have hc :
        (if '0' ≤ c ∧ c ≤ '9' then some (c.toNat - '0'.toNat) else none) =
          some d := h
    split at hc
    next hrange => exact utf8Size_of_le hrange.2 (by decide)
    next => cases hc

/-- A hexadecimal digit is one byte. -/
theorem Symbol.width_of_hexDigit {s : Symbol} {d : Nat}
    (h : s.hexDigit? = some d) :
    s.width = 1 := by
  cases s with
  | stray => cases h
  | char c =>
    have hc : Json.hexDigit? c = some d := h
    unfold Json.hexDigit? at hc
    split at hc
    next hrange => exact utf8Size_of_le hrange.2 (by decide)
    next =>
    split at hc
    next hrange => exact utf8Size_of_le hrange.2 (by decide)
    next =>
    split at hc
    next hrange => exact utf8Size_of_le hrange.2 (by decide)
    next => cases hc

/-- What a short escape stands for is one byte, where the escape is two. -/
theorem utf8Size_of_shortEscape {c e : Char} (h : shortEscape? c = some e) :
    e.utf8Size = 1 := by
  unfold shortEscape? at h
  split at h <;> first | cases h; rfl | cases h

/-! ## Places -/

/-- What a reader leaves is at most so many bytes, and so is what a fault of it
has behind its place. What is left of a result is told by `rest`. -/
def Placed {α : Type} (rest : α → Input) (limit : Nat) : Except Fault α → Prop
  | .ok x => (rest x).bytes ≤ limit
  | .error fault => ∃ left, fault.left = some left ∧ left ≤ limit

theorem placed_ok {α : Type} {rest : α → Input} {limit : Nat} {x : α}
    (h : (rest x).bytes ≤ limit) : Placed rest limit (.ok x) :=
  h

theorem placed_error {α : Type} {rest : α → Input} {limit left : Nat}
    {cause : Cause} (h : left ≤ limit) :
    Placed rest limit (.error ⟨cause, some left⟩) :=
  ⟨left, rfl, h⟩

/-- A fault at the first byte of what is left. -/
theorem placed_ahead {α : Type} {rest : α → Input} {limit : Nat} {input : Input}
    {cause : Cause} (h : input.bytes ≤ limit) :
    Placed rest limit (.error (.ahead input cause)) :=
  placed_error (Nat.le_trans (Nat.sub_le _ _) h)

/-- What lies among some bytes lies among more. -/
theorem Placed.mono {α : Type} {rest : α → Input} {limit limit' : Nat}
    {x : Except Fault α} (h : Placed rest limit x) (hle : limit ≤ limit') :
    Placed rest limit' x := by
  cases x with
  | ok a => exact Nat.le_trans h hle
  | error fault =>
    obtain ⟨left, hleft, hbound⟩ := h
    exact ⟨left, hleft, Nat.le_trans hbound hle⟩

/-- One reader after another: the second is given what the first has left. -/
theorem Placed.bind {α β : Type} {rest : α → Input} {rest' : β → Input}
    {limit : Nat} {x : Except Fault α} {f : α → Except Fault β}
    (hx : Placed rest limit x) (hf : ∀ a, Placed rest' (rest a).bytes (f a)) :
    Placed rest' limit (x >>= f) := by
  cases x with
  | error fault => exact hx
  | ok a => exact (hf a).mono hx

/-! ## Tokens -/

/-- Skipping blanks adds no bytes. -/
theorem bytes_skipBlanks_le (input : Input) :
    (skipBlanks input).bytes ≤ input.bytes := by
  fun_induction skipBlanks input with
  | case1 rest ih | case2 rest ih | case3 rest ih | case4 rest ih =>
    exact Nat.le_trans ih (Nat.le_add_left _ _)
  | case5 => exact Nat.le_refl _

/-- `bytes_skipBlanks_le` where it is known what blanks are skipped to. -/
theorem bytes_of_skipBlanks {input rest : Input} (h : skipBlanks input = rest) :
    rest.bytes ≤ input.bytes :=
  h ▸ bytes_skipBlanks_le input

/-- Behind the first symbol after blanks there are no more bytes either. -/
theorem bytes_of_skipBlanks_cons {input rest : Input} {s : Symbol}
    (h : skipBlanks input = s :: rest) : rest.bytes ≤ input.bytes :=
  Nat.le_trans (Input.bytes_tail_le s rest) (bytes_of_skipBlanks h)

/-- A word stays within what is given. -/
theorem readWord_placed (cs : List Char) (input : Input) :
    Placed id input.bytes (readWord cs input) := by
  fun_induction readWord cs input with
  | case1 => exact placed_ok (Nat.le_refl _)
  | case2 => exact placed_error (Nat.zero_le _)
  | case3 c cs rest ih => exact ih.mono (by simp)
  | case4 => exact placed_error (Nat.sub_le _ _)

/-! ## Strings -/

/-- From the first byte on that is part of no character, there are no more bytes
than in all. -/
theorem bytes_fromStray_le (input : Input) :
    (fromStray input).bytes ≤ input.bytes := by
  fun_induction fromStray input with
  | case1 => exact Nat.le_refl _
  | case2 c rest ih => exact Nat.le_trans ih (Nat.le_add_left _ _)
  | case3 => exact Nat.le_refl _

/-- The end of a string stays within the bytes resolved and those left. -/
theorem closeString_placed (resolved rest : Input) :
    Placed Prod.snd (resolved.bytes + rest.bytes) (closeString resolved rest) := by
  have hspoiled := bytes_fromStray_le resolved
  fun_cases closeString resolved rest with
  | case1 => exact placed_ok (Nat.le_add_left _ _)
  | case2 => exact placed_error (by omega)

/-- How many bytes of an escape have been taken before it is resolved. -/
def StringMode.taken : StringMode → Nat
  | .plain => 0
  | .escape => 1
  | .hex none count _ => 2 + count
  | .hex (some _) count _ => 8 + count
  | .afterHigh _ => 6
  | .afterHighSlash _ => 7

/-- What has been read, the escape that is open and what is left are what there
was. -/
theorem readStringFrom_placed (mode : StringMode) (read input : Input) :
    Placed Prod.snd (read.bytes + mode.taken + input.bytes)
      (readStringFrom mode read input) := by
  fun_induction readStringFrom mode read input with
  | case1 => exact placed_error (by simp)
  | case2 read rest =>
    refine (closeString_placed read.reverse rest).mono ?_
    simp [Input.bytes_reverse]
    omega
  | case3 read rest _ ih =>
    have hslash := Char.utf8Size_pos '\\'
    exact ih.mono (by simp [StringMode.taken]; omega)
  | case5 | case6 =>
    rename_i ih
    exact ih.mono (by simp [StringMode.taken]; omega)
  | case7 read rest ih =>
    have hletter := Char.utf8Size_pos 'u'
    exact ih.mono (by simp [StringMode.taken]; omega)
  | case8 read c rest _ e he ih =>
    have hshort := utf8Size_of_shortEscape he
    exact ih.mono (by simp [StringMode.taken]; omega)
  | case11 =>
    exact placed_error (Nat.le_trans (Nat.sub_le _ _) (Nat.le_add_left _ _))
  | case12 => exact placed_error (Nat.zero_le _)
  | case13 high count _ read s rest d hd _ _ ih =>
    have hdigit := Symbol.width_of_hexDigit hd
    refine ih.mono ?_
    cases high <;> simp [StringMode.taken, hdigit] <;> omega
  | case15 count _ read s rest d hd value _ _ _ ih =>
    have hdigit := Symbol.width_of_hexDigit hd
    exact ih.mono (by simp [StringMode.taken, hdigit]; omega)
  -- the escape is resolved: its six or twelve bytes are exchanged for at most
  -- four
  | case16 count _ read s rest d hd value _ _ _ ih =>
    have hsize := Char.utf8Size_le_four (Char.ofNat value)
    refine ih.mono ?_
    simp only [Input.bytes_cons, Symbol.width_char, StringMode.taken]
    omega
  | case17 count _ read s rest d hd value _ high _ ih =>
    have hsize := Char.utf8Size_le_four (ofSurrogates high value)
    refine ih.mono ?_
    simp only [Input.bytes_cons, Symbol.width_char, StringMode.taken]
    omega
  | case19 high read rest ih =>
    have hslash := Char.utf8Size_pos '\\'
    exact ih.mono (by simp [StringMode.taken]; omega)
  | case21 high read rest ih =>
    have hletter := Char.utf8Size_pos 'u'
    exact ih.mono (by simp [StringMode.taken]; omega)
  -- what stops the string stands in what was left
  | case4 | case9 | case10 | case14 | case18 | case20 | case22 =>
    exact placed_error (by simp; omega)

/-- A string stays within what is given, however its escapes are resolved. -/
theorem readString_placed (input : Input) :
    Placed Prod.snd input.bytes (readString input) :=
  (readStringFrom_placed .plain [] input).mono (by simp [StringMode.taken])

/-! ## Numbers -/

/-- A digit is one byte. -/
theorem bytes_readDigits {input rest : Input} {ds : List Nat}
    (h : readDigits input = (ds, rest)) :
    rest.bytes + ds.length = input.bytes := by
  induction input generalizing ds with
  | nil => cases h; rfl
  | cons s input ih =>
    unfold readDigits at h
    split at h
    next d hd =>
      have hdigit := Symbol.width_of_digit hd
      cases hread : readDigits input with
      | mk ds' rest' =>
        rw [hread] at h
        cases h
        have hrest := ih hread
        simp only [List.length_cons, Input.bytes_cons]
        omega
    next => cases h; rfl

/-- No more digits stand behind an overflow than there are. -/
theorem digitsAfterOverflow_le (n : Nat) (ds : List Nat) :
    digitsAfterOverflow n ds ≤ ds.length := by
  fun_induction digitsAfterOverflow n ds with
  | case1 => exact Nat.le_refl _
  | case2 => exact Nat.le_succ _
  | case3 n d ds h ih => exact Nat.le_succ_of_le ih

/-- Whether a number is in range is decided where it ends. -/
theorem realNumber_placed (negative : Bool) (significand : Nat) (exponent : Int)
    (rest : Input) :
    Placed Prod.snd rest.bytes (realNumber negative significand exponent rest) := by
  fun_cases realNumber negative significand exponent rest with
  | case1 => exact placed_ok (Nat.le_refl _)
  | case2 => exact placed_error (Nat.le_refl _)

/-- Behind the sign of an exponent there are no more bytes than with it. -/
theorem bytes_of_sign {input unsigned : Input} {down : Bool}
    (h : (match input with
      | .char '+' :: rest => (false, rest)
      | .char '-' :: rest => (true, rest)
      | _ => (false, input)) = (down, unsigned)) :
    unsigned.bytes ≤ input.bytes := by
  split at h <;> cases h <;> simp

/-- An exponent stays within what is given. -/
theorem readExponent_placed (negative : Bool) (significand : Nat) (shift : Int)
    (input : Input) :
    Placed Prod.snd input.bytes (readExponent negative significand shift input) := by
  fun_cases readExponent negative significand shift input with
  | case1 => exact placed_error (Nat.zero_le _)
  | case2 _ _ hsign rest _ hdigits =>
    have hrest := bytes_readDigits hdigits
    have hinput := bytes_of_sign hsign
    exact placed_ahead (by omega)
  | case3 _ _ hsign ds rest _ _ hdigits =>
    have hrest := bytes_readDigits hdigits
    have hinput := bytes_of_sign hsign
    have hover := digitsAfterOverflow_le 0 ds
    exact placed_error (by omega)
  | case4 _ _ hsign ds rest _ _ hdigits =>
    have hrest := bytes_readDigits hdigits
    have hinput := bytes_of_sign hsign
    exact placed_ok (by dsimp only; omega)
  | case5 _ _ hsign ds rest _ _ hdigits =>
    have hrest := bytes_readDigits hdigits
    have hinput := bytes_of_sign hsign
    exact (realNumber_placed _ _ _ rest).mono (by omega)

/-- A fraction stays within what is given, with the exponent behind it. -/
theorem readFraction_placed (negative : Bool) (significand : Nat) (shift : Int)
    (input : Input) :
    Placed Prod.snd input.bytes (readFraction negative significand shift input) := by
  unfold readFraction
  split
  next hdigits =>
    have hrest := bytes_readDigits hdigits
    exact placed_error (by omega)
  next ds rest _ hdigits =>
    have hrest := bytes_readDigits hdigits
    dsimp only
    split
    next => exact (readExponent_placed _ _ _ _).mono (by simp at hrest; omega)
    next => exact (readExponent_placed _ _ _ _).mono (by simp at hrest; omega)
    next => exact (realNumber_placed _ _ _ _).mono (by omega)

/-- A number stays within what is given. -/
theorem readNumber_placed (negative : Bool) (input : Input) :
    Placed Prod.snd input.bytes (readNumber negative input) := by
  unfold readNumber
  split
  next => exact placed_error (Nat.zero_le _)
  next hdigits =>
    have hrest := bytes_readDigits hdigits
    exact placed_error (by omega)
  next hdigits =>
    have hrest := bytes_readDigits hdigits
    exact placed_error (by simp at hrest ⊢; omega)
  next ds rest _ _ _ hdigits =>
    have hrest := bytes_readDigits hdigits
    dsimp only
    split
    next => exact (readFraction_placed _ _ _ _).mono (by simp at hrest; omega)
    next => exact (readExponent_placed _ _ _ _).mono (by simp at hrest; omega)
    next => exact (readExponent_placed _ _ _ _).mono (by simp at hrest; omega)
    next =>
      split_ifs
      · exact placed_ok (by dsimp only; omega)
      · exact (realNumber_placed _ _ _ _).mono (by omega)

/-! ## Values -/

/-- A value that is read only to be named stays within what is given. -/
theorem readFound_placed (input : Input) :
    Placed Prod.snd input.bytes (readFound input) := by
  fun_cases readFound input with
  | case1 rest | case2 rest | case3 rest =>
    refine Placed.mono ?_ (Input.bytes_tail_le _ rest)
    exact (readWord_placed _ rest).bind fun _ => placed_ok (Nat.le_refl _)
  | case4 rest =>
    refine Placed.mono ?_ (Input.bytes_tail_le _ rest)
    exact (readString_placed rest).bind fun _ => placed_ok (Nat.le_refl _)
  | case5 rest =>
    refine Placed.mono ?_ (Input.bytes_tail_le _ rest)
    exact (readNumber_placed _ rest).bind fun _ => placed_ok (Nat.le_refl _)
  | case6 | case7 => exact placed_ok (Nat.le_refl _)
  | case8 => exact placed_error (Nat.zero_le _)
  | case9 => exact (readNumber_placed _ _).bind fun _ => placed_ok (Nat.le_refl _)
  | case10 => exact placed_error (Nat.sub_le _ _)

/-- A value of another kind is refused within what is given. -/
theorem refuseFound_placed {α : Type} {rest : α → Input} (input : Input)
    (expected : String) :
    Placed rest input.bytes (refuseFound input expected) := by
  unfold refuseFound
  exact (readFound_placed input).bind fun _ => placed_error (Nat.le_refl _)

/-- Leaving a bracket adds no bytes. -/
theorem bytes_leaveBracket_le (close : Char) (input : Input) :
    (leaveBracket close input).bytes ≤ input.bytes := by
  unfold leaveBracket
  split
  next c rest heq =>
    have hrest := bytes_of_skipBlanks_cons heq
    split_ifs
    · exact hrest
    · exact Nat.le_trans (bytes_skipBlanks_le rest) hrest
    · exact bytes_of_skipBlanks heq
  next => exact bytes_skipBlanks_le input

/-- What stands inside a bracket is refused within what is given. -/
theorem refuseIn_placed {α : Type} {rest : α → Input} (close : Char)
    (input : Input) (cause : Cause) :
    Placed rest input.bytes (refuseIn close input cause) :=
  placed_error (bytes_leaveBracket_le close input)

/-- The end of a list stays within what is given. -/
theorem endList_placed (input : Input) :
    Placed id input.bytes (endList input) := by
  fun_cases endList input with
  | case1 rest heq => exact placed_ok (bytes_of_skipBlanks_cons heq)
  | case2 rest heq more hmore =>
    exact placed_ahead (Nat.le_trans (bytes_of_skipBlanks hmore)
      (bytes_of_skipBlanks_cons heq))
  | case3 rest heq =>
    exact placed_ahead (Nat.le_trans (bytes_skipBlanks_le rest)
      (bytes_of_skipBlanks_cons heq))
  | case4 => exact placed_error (Nat.zero_le _)
  | case5 => exact placed_ahead (bytes_skipBlanks_le input)

/-- A separator and the blanks around it stay within what is given. -/
theorem nextItem_placed (first : Bool) (input : Input) :
    Placed Prod.snd input.bytes (nextItem first input) := by
  fun_cases nextItem first input with
  | case1 => exact placed_error (Nat.zero_le _)
  | case2 rest heq => exact placed_ok (bytes_of_skipBlanks heq)
  | case3 s rest _ heq => exact placed_ok (bytes_of_skipBlanks heq)
  | case4 rest _ more hmore _ heq =>
    exact placed_ahead (Nat.le_trans (bytes_of_skipBlanks hmore)
      (bytes_of_skipBlanks_cons heq))
  | case5 => exact placed_error (Nat.zero_le _)
  | case6 rest _ _ heq =>
    exact placed_ok (Nat.le_trans (bytes_skipBlanks_le rest)
      (bytes_of_skipBlanks_cons heq))
  | case7 s rest _ heq => exact placed_ahead (bytes_of_skipBlanks heq)

/-- A key with its separator stays within what is given. -/
theorem nextKey_placed (first : Bool) (input : Input) :
    Placed Prod.snd input.bytes (nextKey first input) := by
  fun_cases nextKey first input with
  | case1 => exact placed_error (Nat.zero_le _)
  | case2 rest heq => exact placed_ok (bytes_of_skipBlanks_cons heq)
  | case3 rest _ _ heq =>
    refine Placed.mono ?_ (bytes_of_skipBlanks_cons heq)
    exact (readString_placed rest).bind fun _ => placed_ok (Nat.le_refl _)
  | case4 s rest _ heq => exact placed_ahead (bytes_of_skipBlanks heq)
  | case5 rest _ more hmore _ heq =>
    refine Placed.mono ?_ (bytes_of_skipBlanks_cons heq)
    refine Placed.mono ?_ (bytes_of_skipBlanks_cons hmore)
    exact (readString_placed more).bind fun _ => placed_ok (Nat.le_refl _)
  | case6 rest _ more hmore _ heq =>
    exact placed_ahead (Nat.le_trans (bytes_of_skipBlanks hmore)
      (bytes_of_skipBlanks_cons heq))
  | case7 => exact placed_error (Nat.zero_le _)
  | case8 rest _ _ heq =>
    exact placed_ahead (Nat.le_trans (bytes_skipBlanks_le rest)
      (bytes_of_skipBlanks_cons heq))
  | case9 s rest _ heq => exact placed_ahead (bytes_of_skipBlanks heq)

/-- A colon and the blanks before it stay within what is given. -/
theorem readColon_placed (input : Input) :
    Placed id input.bytes (readColon input) := by
  fun_cases readColon input with
  | case1 rest heq => exact placed_ok (bytes_of_skipBlanks_cons heq)
  | case2 => exact placed_error (Nat.zero_le _)
  | case3 => exact placed_ahead (bytes_skipBlanks_le input)

/-- Items stay within what is given if each item does. -/
theorem readItems_placed {α : Type} {item : Reader α}
    (h : ∀ input, Placed Prod.snd input.bytes (item input)) (input : Input) :
    Placed Prod.snd input.bytes (readItems item input) := by
  unfold readItems
  generalize input.length + 1 = fuel
  generalize true = first
  induction fuel generalizing first input with
  | zero => exact placed_ahead (Nat.le_refl _)
  | succ fuel ih =>
    unfold readItemsFrom
    refine (nextItem_placed first input).bind fun result => ?_
    obtain ⟨more, rest⟩ := result
    cases more with
    | false => exact placed_ok (Nat.le_refl _)
    | true =>
      refine (h rest).bind fun result => ?_
      obtain ⟨x, rest⟩ := result
      exact (ih rest false).bind fun _ => placed_ok (Nat.le_refl _)

/-! ## Values that are passed over -/

/-- A string that is passed over stays within what is given. -/
theorem skipString_placed (input : Input) :
    Placed id input.bytes (skipString input) := by
  unfold skipString
  fun_induction skipStringFrom .plain input with
  | case1 | case12 => exact placed_error (Nat.zero_le _)
  | case2 rest => exact placed_ok (Input.bytes_tail_le _ rest)
  | case4 => exact placed_error (Nat.le_refl _)
  | case9 | case10 | case11 => exact placed_error (Nat.sub_le _ _)
  | case3 | case5 | case6 | case7 | case8 | case13 =>
    rename_i ih
    exact ih.mono (Input.bytes_tail_le _ _)

/-- An exponent that is passed over stays within what is given. -/
theorem skipExponent_placed (input : Input) :
    Placed id input.bytes (skipExponent input) := by
  unfold skipExponent
  extract_lets signed
  have hsigned : Input.bytes signed ≤ input.bytes := by
    unfold signed
    split <;> simp
  split
  next hdigits =>
    have hrest := bytes_readDigits hdigits
    exact placed_ahead (by omega)
  next hdigits =>
    have hrest := bytes_readDigits hdigits
    exact placed_ok (by dsimp only [id]; omega)

theorem skipExponent?_placed (input : Input) :
    Placed id input.bytes (skipExponent? input) := by
  fun_cases skipExponent? input with
  | case1 rest | case2 rest =>
    exact (skipExponent_placed rest).mono (Input.bytes_tail_le _ rest)
  | case3 => exact placed_ok (Nat.le_refl _)

/-- A number that is passed over stays within what is given. -/
theorem skipNumber_placed (input : Input) :
    Placed id input.bytes (skipNumber input) := by
  unfold skipNumber
  split
  next hdigits =>
    have hrest := bytes_readDigits hdigits
    exact placed_ahead (by omega)
  next hdigits =>
    have hrest := bytes_readDigits hdigits
    exact placed_error (by simp at hrest ⊢; omega)
  next ds rest _ _ hdigits =>
    have hrest := bytes_readDigits hdigits
    rw [Input.bytes_cons] at hrest
    split
    next hfraction =>
      have hleft := bytes_readDigits hfraction
      exact placed_ahead (by omega)
    next hfraction =>
      have hleft := bytes_readDigits hfraction
      exact (skipExponent?_placed _).mono (by omega)
  next hdigits =>
    have hrest := bytes_readDigits hdigits
    exact (skipExponent?_placed _).mono (by omega)

/-- A key that is passed over stays within what is given, with its colon. -/
theorem skipKey_placed (input : Input) :
    Placed id input.bytes (skipKey input) := by
  unfold skipKey
  split
  next rest heq =>
    refine Placed.mono ?_ (bytes_of_skipBlanks_cons heq)
    refine (skipString_placed rest).bind fun rest => ?_
    dsimp only [id]
    split
    next heq => exact placed_ok (bytes_of_skipBlanks_cons heq)
    next => exact placed_error (Nat.zero_le _)
    next => exact placed_ahead (bytes_skipBlanks_le rest)
  next => exact placed_error (Nat.zero_le _)
  next => exact placed_ahead (bytes_skipBlanks_le input)

/-- The three ways to pass over something, with as much fuel as there is. -/
theorem skipFrom_placed (fuel : Nat) :
    (∀ input : Input, Placed id input.bytes (skipValueFrom fuel input)) ∧
      (∀ first input, Placed id input.bytes (skipItemsFrom fuel first input)) ∧
        ∀ first input, Placed id input.bytes (skipMembersFrom fuel first input) := by
  induction fuel with
  | zero =>
    exact ⟨fun _ => placed_ahead (Nat.le_refl _),
      fun _ _ => placed_ahead (Nat.le_refl _),
      fun _ _ => placed_ahead (Nat.le_refl _)⟩
  | succ fuel ih =>
    obtain ⟨hvalue, hitems, hmembers⟩ := ih
    have hitem : ∀ input : Input,
        Placed id input.bytes (skipValueFrom fuel input >>=
          skipItemsFrom fuel false) :=
      fun input => (hvalue input).bind (hitems false)
    have hmember : ∀ input : Input, Placed id input.bytes (do
        let rest ← skipKey input
        let rest ← skipValueFrom fuel rest
        skipMembersFrom fuel false rest) :=
      fun input => (skipKey_placed input).bind fun rest =>
        (hvalue rest).bind (hmembers false)
    refine ⟨fun input => ?_, fun first input => ?_, fun first input => ?_⟩
    · unfold skipValueFrom
      split
      next => exact placed_error (Nat.zero_le _)
      next heq => exact (readWord_placed _ _).mono (bytes_of_skipBlanks_cons heq)
      next heq => exact (readWord_placed _ _).mono (bytes_of_skipBlanks_cons heq)
      next heq => exact (readWord_placed _ _).mono (bytes_of_skipBlanks_cons heq)
      next heq => exact (skipString_placed _).mono (bytes_of_skipBlanks_cons heq)
      next heq => exact (skipNumber_placed _).mono (bytes_of_skipBlanks_cons heq)
      next heq => exact (hitems true _).mono (bytes_of_skipBlanks_cons heq)
      next heq => exact (hmembers true _).mono (bytes_of_skipBlanks_cons heq)
      next heq =>
        split
        · exact (skipNumber_placed _).mono (bytes_of_skipBlanks heq)
        · exact placed_ahead (bytes_of_skipBlanks heq)
    · unfold skipItemsFrom
      split
      next => exact placed_error (Nat.zero_le _)
      next heq => exact placed_ok (bytes_of_skipBlanks_cons heq)
      next heq =>
        split_ifs
        · exact (hitem _).mono (bytes_of_skipBlanks heq)
        · exact (hitem _).mono (bytes_of_skipBlanks_cons heq)
        · exact placed_ahead (bytes_of_skipBlanks heq)
    · unfold skipMembersFrom
      split
      next => exact placed_error (Nat.zero_le _)
      next heq => exact placed_ok (bytes_of_skipBlanks_cons heq)
      next heq =>
        split_ifs
        · exact (hmember _).mono (bytes_of_skipBlanks heq)
        · exact (hmember _).mono (bytes_of_skipBlanks_cons heq)
        · exact placed_ahead (bytes_of_skipBlanks heq)

/-- **A value that is passed over stays within what is given.** -/
theorem skipValue_placed (input : Input) :
    Placed id input.bytes (skipValue input) :=
  (skipFrom_placed _).1 input

/-- Reading a whole document leaves nothing. -/
theorem readDocument_placed {α : Type} {reader : Reader α}
    (h : ∀ input, Placed Prod.snd input.bytes (reader input))
    (document : Input) :
    Placed (fun _ => []) document.bytes (readDocument reader document) := by
  unfold readDocument
  refine (h document).bind fun (x, rest) => ?_
  dsimp only
  split
  · exact placed_ok (Nat.zero_le _)
  · exact placed_ahead (bytes_skipBlanks_le rest)

end DetectorBench.Json
