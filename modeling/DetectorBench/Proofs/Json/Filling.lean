import DetectorBench.Proofs.Json.Places

/-!
# Documents with bytes that are part of no character

A document of bytes can be shown as a text if something stands in for the bytes
that are part of no character. What does is the replacement character
(`textOfBytes`), and on symbols this is a map (`Input.fill`). A reader does the
same with a document and with its filling, save that it may refuse the document
for such a byte (`Mirrors`). That is a matter of composing readers
(`Mirrors.bind`), since none looks at a symbol in any other way than asking
which character of ASCII it is, except for the characters of a string that is
built: only `closeString` looks at those, and it is there that the byte is
refused. A filling is never refused so (`Mirrors.filled`).
-/

namespace DetectorBench.Json

/-! ## Filling -/

/-- The character that a symbol is shown as. -/
def Symbol.shown : Symbol → Char
  | .char c => c
  | .stray => '\uFFFD'

/-- The text that bytes are shown as. -/
def textOfBytes (bytes : ByteArray) : String :=
  String.ofList ((symbolsOfBytes bytes).map Symbol.shown)

/-- A document with the replacement character in place of bytes that are part of
no character. -/
def Input.fill (input : Input) : Input :=
  input.map fun s => .char s.shown

@[simp]
theorem fill_nil : Input.fill [] = [] :=
  rfl

@[simp]
theorem fill_char (c : Char) (rest : Input) :
    Input.fill (.char c :: rest) = .char c :: rest.fill :=
  rfl

@[simp]
theorem fill_stray (rest : Input) :
    Input.fill (.stray :: rest) = .char '\uFFFD' :: rest.fill :=
  rfl

/-- Filling goes symbol by symbol. -/
theorem fill_cons (s : Symbol) (rest : Input) :
    Input.fill (s :: rest) = .char s.shown :: rest.fill :=
  rfl

/-- A string that is built back to front is filled alike. -/
theorem fill_reverse (input : Input) :
    Input.fill input.reverse = input.fill.reverse :=
  List.map_reverse

/-- A filling has as many symbols, so that fuel goes equally far. -/
@[simp]
theorem length_fill (input : Input) : input.fill.length = input.length :=
  List.length_map _

/-- In a text there is nothing to fill. -/
@[simp]
theorem fill_symbolsOfText (source : String) :
    (symbolsOfText source).fill = symbolsOfText source := by
  unfold Input.fill symbolsOfText
  rw [List.map_map]
  rfl

/-- **The text that bytes are shown as is their filling.** -/
theorem symbolsOfText_textOfBytes (bytes : ByteArray) :
    symbolsOfText (textOfBytes bytes) = (symbolsOfBytes bytes).fill := by
  unfold symbolsOfText textOfBytes Input.fill
  rw [String.toList_ofList, List.map_map]
  rfl

/-- Bytes that are decoded to a text are shown as that text. -/
theorem textOfBytes_eq {bytes : ByteArray} {source : String}
    (h : symbolsOfBytes bytes = symbolsOfText source) :
    textOfBytes bytes = source := by
  have hshown : (symbolsOfText source).map Symbol.shown = source.toList := by
    unfold symbolsOfText
    rw [List.map_map]
    exact List.map_id _
  unfold textOfBytes
  rw [h, hshown, String.ofList_toList]

/-- A symbol is shown as a character of ASCII only if it is that character. -/
theorem shown_eq_iff {s : Symbol} {c : Char} (hc : c ≠ '\uFFFD') :
    Symbol.char s.shown = .char c ↔ s = .char c := by
  cases s with
  | char d => exact Iff.rfl
  | stray =>
    refine ⟨fun h => ?_, nofun⟩
    cases h
    exact absurd rfl hc

/-- What is shown in place of a byte is a digit only if the byte is one. -/
theorem digit?_shown (s : Symbol) :
    Symbol.digit? (.char s.shown) = s.digit? := by
  cases s with
  | char c => rfl
  | stray => decide

/-! ## Mirroring -/

/-- Whether a fault is about a byte that is part of no character. -/
def Cause.isStray : Cause → Bool
  | .invalidCodePoint => true
  | _ => false

/-- What is made of a filling: what is left is filled as well, and a fault is
never about a byte that is part of no character. -/
inductive Filled {α : Type} (fill : α → α) : Except Fault α → Prop where
  | ok (x : α) : Filled fill (.ok (fill x))
  | error {fault : Fault} (h : fault.cause.isStray = false) :
      Filled fill (.error fault)

/-- What is made of a document, and what is made of its filling: the same, with
what is left filled, or a fault of both. A document may be refused for a byte of
it that is part of no character. -/
inductive Mirrors {α : Type} (fill : α → α) : Except Fault α → Except Fault α →
    Prop where
  | ok (x : α) : Mirrors fill (.ok x) (.ok (fill x))
  | error (fault fault' : Fault) (h : fault'.cause.isStray = false) :
    Mirrors fill (.error fault) (.error fault')
  | spoiled {fault : Fault} {y : Except Fault α}
    (h : fault.cause = .invalidCodePoint) (hy : Filled fill y) :
    Mirrors fill (.error fault) y

/-- What mirrors something is filled. -/
theorem Mirrors.filled {α : Type} {fill : α → α} {x y : Except Fault α}
    (h : Mirrors fill x y) :
    Filled fill y := by
  cases h with
  | ok a => exact .ok a
  | error fault fault' h => exact .error h
  | spoiled h hy => exact hy

/-- One reader after another: the second is given the filling of what the first
has left. -/
theorem Mirrors.bind {α β : Type} {fill : α → α} {fill' : β → β}
    {x y : Except Fault α} {f g : α → Except Fault β} (h : Mirrors fill x y)
    (hf : ∀ a, Mirrors fill' (f a) (g (fill a))) :
    Mirrors fill' (x >>= f) (y >>= g) := by
  cases h with
  | ok a => exact hf a
  | error fault fault' h => exact .error fault fault' h
  | spoiled h hy =>
    cases hy with
    | ok a => exact .spoiled h (hf a).filled
    | error hcause => exact .spoiled h (.error hcause)

/-- What was read stays, what is left is filled. -/
def fillRest {α : Type} (result : α × Input) : α × Input :=
  (result.1, result.2.fill)

/-! ## Tokens -/

/-- The replacement character is no blank. -/
theorem skipBlanks_fill (input : Input) :
    skipBlanks input.fill = (skipBlanks input).fill := by
  fun_induction skipBlanks input with
  | case1 rest ih | case2 rest ih | case3 rest ih | case4 rest ih => exact ih
  | case5 input hspace hnewline htab hreturn =>
    unfold skipBlanks
    cases input with
    | nil => rfl
    | cons s rest =>
      cases s with
      | stray => rfl
      | char c =>
        rw [fill_char]
        split <;> simp_all

/-- A word without the replacement character is read of a filling as of the
document. -/
theorem readWord_mirrors {cs : List Char} (h : '\uFFFD' ∉ cs) (input : Input) :
    Mirrors Input.fill (readWord cs input) (readWord cs input.fill) := by
  induction cs generalizing input with
  | nil => exact .ok input
  | cons c cs ih =>
    cases input with
    | nil => exact .error _ _ rfl
    | cons s rest =>
      have hc : c ≠ '\uFFFD' := (List.ne_of_not_mem_cons h).symm
      unfold readWord
      rw [fill_cons]
      dsimp only
      simp only [shown_eq_iff hc]
      split
      next => exact ih (List.not_mem_of_not_mem_cons h) rest
      next => exact .error _ _ rfl

/-! ## Strings -/

/-- A filling has no byte that is part of no character. -/
theorem fromStray_fill (input : Input) : fromStray input.fill = [] := by
  induction input with
  | nil => rfl
  | cons s rest ih => exact ih

/-- A string in which nothing is spoiled is filled already. -/
theorem fill_of_fromStray {input : Input} (h : fromStray input = []) :
    input.fill = input := by
  induction input with
  | nil => rfl
  | cons s rest ih =>
    cases s with
    | char c => rw [fill_char, ih h]
    | stray => cases h

/-- The one place where a document may be refused and its filling not. -/
theorem closeString_mirrors (resolved rest : Input) :
    Mirrors fillRest (closeString resolved rest)
      (closeString resolved.fill rest.fill) := by
  unfold closeString
  cases hstray : fromStray resolved with
  | nil =>
    rw [fill_of_fromStray hstray, hstray]
    exact .ok _
  | cons s spoiled =>
    rw [fromStray_fill]
    exact .spoiled rfl (.ok (_, rest))

/-- The induction is on what is left; both readers are in the same mode all the
time. -/
theorem readStringFrom_mirrors (mode : StringMode) (read input : Input) :
    Mirrors fillRest (readStringFrom mode read input)
      (readStringFrom mode read.fill input.fill) := by
  induction input generalizing mode read with
  | nil => cases mode <;> exact .error _ _ rfl
  | cons s rest ih =>
    cases mode with
    | plain =>
      cases s with
      | stray => exact ih .plain (.stray :: read)
      | char c =>
        rw [fill_char]
        unfold readStringFrom
        split_ifs
        · rw [← fill_reverse]
          exact closeString_mirrors read.reverse rest
        · exact ih .escape read
        · exact .error _ _ rfl
        · exact ih .plain (.char c :: read)
    | escape =>
      cases s with
      | stray => exact .error _ _ rfl
      | char c =>
        rw [fill_char]
        unfold readStringFrom
        split_ifs
        · exact ih (.hex none 0 0) read
        · cases shortEscape? c with
          | none => exact .error _ _ rfl
          | some e => exact ih .plain (.char e :: read)
    | hex high count value =>
      cases s with
      | stray =>
        have hdigit : Symbol.hexDigit? (.char '\uFFFD') = none := by decide
        rw [fill_stray]
        unfold readStringFrom
        rw [hdigit]
        dsimp only [Symbol.hexDigit?]
        split_ifs <;> exact .error _ _ rfl
      | char c =>
        rw [fill_char]
        unfold readStringFrom
        cases Symbol.hexDigit? (.char c) with
        | none =>
          dsimp only
          split_ifs <;> exact .error _ _ rfl
        | some d =>
          cases high with
          | none =>
            dsimp only
            split_ifs
            · exact ih (.hex none (count + 1) (value * 16 + d)) read
            · exact .error _ _ rfl
            · exact ih (.afterHigh (value * 16 + d)) read
            · exact ih .plain (.char (Char.ofNat (value * 16 + d)) :: read)
          | some high =>
            dsimp only
            split_ifs
            · exact ih (.hex (some high) (count + 1) (value * 16 + d)) read
            · exact ih .plain (.char (ofSurrogates high (value * 16 + d)) :: read)
            · exact .error _ _ rfl
    | afterHigh high =>
      cases s with
      | stray => exact .error _ _ rfl
      | char c =>
        rw [fill_char]
        unfold readStringFrom
        split_ifs
        · exact ih (.afterHighSlash high) read
        · exact .error _ _ rfl
    | afterHighSlash high =>
      cases s with
      | stray => exact .error _ _ rfl
      | char c =>
        rw [fill_char]
        unfold readStringFrom
        split_ifs
        · exact ih (.hex (some high) 0 0) read
        · exact .error _ _ rfl

/-- A string is read of a filling as of the document: its end and its escapes
stand at the same places. -/
theorem readString_mirrors (input : Input) :
    Mirrors fillRest (readString input) (readString input.fill) :=
  readStringFrom_mirrors .plain [] input

/-! ## Numbers -/

/-- Digits are the same in a filling. -/
theorem readDigits_fill (input : Input) :
    readDigits input.fill = fillRest (readDigits input) := by
  induction input with
  | nil => rfl
  | cons s rest ih =>
    rw [fill_cons]
    unfold readDigits
    rw [digit?_shown, ih]
    cases s.digit? <;> rfl

/-- Whether a number is in range does not depend on what follows it. -/
theorem realNumber_mirrors (negative : Bool) (significand : Nat)
    (exponent : Int) (rest : Input) :
    Mirrors fillRest (realNumber negative significand exponent rest)
      (realNumber negative significand exponent rest.fill) := by
  unfold realNumber
  cases Binary64.ofDecimal significand exponent with
  | some step => exact .ok _
  | none => exact .error _ _ rfl

/-- An exponent whose sign has been read. -/
def readUnsigned (negative : Bool) (significand : Nat) (shift : Int)
    (down : Bool) : Reader Number :=
  fun input =>
    match readDigits input with
    | ([], []) => .error (.here [] .endOfValue)
    | ([], rest) => .error (.ahead rest .invalidNumber)
    | (ds, rest) =>
      let n := ofDigits ds
      if maxExponent < n then
        if significand ≠ 0 ∧ !down then
          .error ⟨.numberOutOfRange, some (rest.bytes + digitsAfterOverflow 0 ds)⟩
        else .ok (.real ⟨negative, 0⟩, rest)
      else
        realNumber negative significand (if down then shift - n else shift + n) rest

/-- What is behind the sign of an exponent is read without it. -/
theorem readExponent_eq {input : Input} (signed : Bool × Input)
    (h : (match input with
      | .char '+' :: rest => (false, rest)
      | .char '-' :: rest => (true, rest)
      | _ => (false, input)) = signed)
    (negative : Bool) (significand : Nat) (shift : Int) :
    readExponent negative significand shift input =
      readUnsigned negative significand shift signed.1 signed.2 := by
  subst h
  rfl

/-- Without a sign, all of it is read. -/
theorem readExponent_of_unsigned {s : Symbol} (hplus : s ≠ .char '+')
    (hminus : s ≠ .char '-') (negative : Bool) (significand : Nat) (shift : Int)
    (rest : Input) :
    readExponent negative significand shift (s :: rest) =
      readUnsigned negative significand shift false (s :: rest) := by
  refine readExponent_eq (false, s :: rest) ?_ negative significand shift
  split
  next heq => exact absurd (List.cons.inj heq).1 hplus
  next heq => exact absurd (List.cons.inj heq).1 hminus
  next => rfl

/-- The digits of an exponent are read of a filling as of the document. -/
theorem readUnsigned_mirrors (negative : Bool) (significand : Nat) (shift : Int)
    (down : Bool) (input : Input) :
    Mirrors fillRest (readUnsigned negative significand shift down input)
      (readUnsigned negative significand shift down input.fill) := by
  unfold readUnsigned
  rw [readDigits_fill]
  obtain ⟨ds, rest⟩ := readDigits input
  cases ds with
  | nil => cases rest <;> exact .error _ _ rfl
  | cons d ds =>
    dsimp only [fillRest]
    split_ifs
    · exact .error _ _ rfl
    · exact .ok _
    · exact realNumber_mirrors _ _ _ _
    · exact realNumber_mirrors _ _ _ _

/-- An exponent is read of a filling as of the document. -/
theorem readExponent_mirrors (negative : Bool) (significand : Nat) (shift : Int)
    (input : Input) :
    Mirrors fillRest (readExponent negative significand shift input)
      (readExponent negative significand shift input.fill) := by
  cases input with
  | nil => exact readUnsigned_mirrors negative significand shift false []
  | cons s rest =>
    by_cases hplus : s = .char '+'
    · subst hplus
      exact readUnsigned_mirrors negative significand shift false rest
    by_cases hminus : s = .char '-'
    · subst hminus
      exact readUnsigned_mirrors negative significand shift true rest
    rw [fill_cons, readExponent_of_unsigned hplus hminus, readExponent_of_unsigned
      (mt (shown_eq_iff (by decide)).mp hplus)
      (mt (shown_eq_iff (by decide)).mp hminus)]
    exact readUnsigned_mirrors _ _ _ false (s :: rest)

/-- A fraction is read of a filling as of the document. -/
theorem readFraction_mirrors (negative : Bool) (significand : Nat) (shift : Int)
    (input : Input) :
    Mirrors fillRest (readFraction negative significand shift input)
      (readFraction negative significand shift input.fill) := by
  unfold readFraction
  rw [readDigits_fill]
  obtain ⟨ds, rest⟩ := readDigits input
  cases ds with
  | nil =>
    refine .error _ _ ?_
    dsimp only [Fault.ahead]
    split <;> rfl
  | cons d ds =>
    dsimp only [fillRest]
    rcases rest with _ | ⟨c | _, rest⟩
    · exact realNumber_mirrors _ _ _ []
    · by_cases hlow : c = 'e'
      · subst hlow
        exact readExponent_mirrors _ _ _ rest
      by_cases hhigh : c = 'E'
      · subst hhigh
        exact readExponent_mirrors _ _ _ rest
      rw [fill_char]
      simp only [List.cons.injEq, Symbol.char.injEq, false_and, imp_self,
        implies_true, hlow, hhigh]
      exact realNumber_mirrors _ _ _ (.char c :: rest)
    · exact realNumber_mirrors _ _ _ (.stray :: rest)

/-- A number that ends with its digits. -/
theorem endNumber_mirrors (negative : Bool) (significand dropped : Nat)
    (rest : Input) :
    Mirrors fillRest
      (if dropped = 0 then .ok (integerNumber negative significand, rest)
      else realNumber negative significand dropped rest)
      (if dropped = 0 then .ok (integerNumber negative significand, rest.fill)
      else realNumber negative significand dropped rest.fill) := by
  split_ifs
  · exact .ok _
  · exact realNumber_mirrors negative significand dropped rest

/-- A number is read of a filling as of the document. -/
theorem readNumber_mirrors (negative : Bool) (input : Input) :
    Mirrors fillRest (readNumber negative input)
      (readNumber negative input.fill) := by
  unfold readNumber
  rw [readDigits_fill]
  obtain ⟨ds, rest⟩ := readDigits input
  dsimp only [fillRest]
  rcases ds with _ | ⟨_ | d, _ | ⟨d', ds⟩⟩
  case nil => cases rest <;> exact .error _ _ rfl
  case cons.zero.cons => exact .error _ _ rfl
  -- other digits are fine, and what follows them decides
  all_goals
    rcases rest with _ | ⟨c | _, rest⟩
    · exact endNumber_mirrors _ _ _ []
    · by_cases hpoint : c = '.'
      · subst hpoint
        exact readFraction_mirrors _ _ _ rest
      by_cases hlow : c = 'e'
      · subst hlow
        exact readExponent_mirrors _ _ _ rest
      by_cases hhigh : c = 'E'
      · subst hhigh
        exact readExponent_mirrors _ _ _ rest
      rw [fill_char]
      simp only [List.cons.injEq, Symbol.char.injEq, false_and, imp_self,
        implies_true, hpoint, hlow, hhigh]
      exact endNumber_mirrors _ _ _ (.char c :: rest)
    · exact endNumber_mirrors _ _ _ (.stray :: rest)

/-! ## Values -/

/-- A word and what it stands for. -/
theorem readWord_return_mirrors {α : Type} {cs : List Char} (h : '\uFFFD' ∉ cs)
    (x : α) (input : Input) :
    Mirrors fillRest (do return (x, ← readWord cs input))
      (do return (x, ← readWord cs input.fill)) :=
  (readWord_mirrors h input).bind fun rest => .ok (x, rest)

/-- `readNumber_mirrors` for a number that is read only to be named. -/
theorem foundNumber_mirrors (negative : Bool) (input : Input) :
    Mirrors fillRest
      (do let (n, rest) ← readNumber negative input; return (Json.number n, rest))
      (do
        let (n, rest) ← readNumber negative input.fill
        return (Json.number n, rest)) :=
  (readNumber_mirrors negative input).bind fun (n, rest) => .ok (Json.number n, rest)

/-- `readString_mirrors` for a string that is read only to be named. -/
theorem foundString_mirrors (input : Input) :
    Mirrors fillRest
      (do let (s, rest) ← readString input; return (Json.string s, rest))
      (do let (s, rest) ← readString input.fill; return (Json.string s, rest)) :=
  (readString_mirrors input).bind fun (s, rest) => .ok (Json.string s, rest)

/-- What stands in place of something expected is the same in a filling. -/
theorem readFound_mirrors (input : Input) :
    Mirrors fillRest (readFound input) (readFound input.fill) := by
  rcases input with _ | ⟨c | _, rest⟩
  · exact .error _ _ rfl
  · rw [fill_char]
    by_cases hnull : c = 'n'
    · subst hnull
      exact readWord_return_mirrors (by decide) Json.null rest
    by_cases htrue : c = 't'
    · subst htrue
      exact readWord_return_mirrors (by decide) (Json.bool true) rest
    by_cases hfalse : c = 'f'
    · subst hfalse
      exact readWord_return_mirrors (by decide) (Json.bool false) rest
    by_cases hquote : c = '"'
    · subst hquote
      exact foundString_mirrors rest
    by_cases hminus : c = '-'
    · subst hminus
      exact foundNumber_mirrors true rest
    by_cases hbracket : c = '['
    · subst hbracket
      exact .ok (Json.array [], .char '[' :: rest)
    by_cases hbrace : c = '\x7b'
    · subst hbrace
      exact .ok (Json.object [], .char '\x7b' :: rest)
    unfold readFound
    simp only [Symbol.char.injEq, imp_self, hnull, htrue, hfalse, hquote,
      hminus, hbracket, hbrace]
    split_ifs
    · exact foundNumber_mirrors false (.char c :: rest)
    · exact .error _ _ rfl
  · exact .error _ _ rfl

/-- A value of another kind is refused in a filling as in the document. -/
theorem refuseFound_mirrors {α : Type} (fill : α → α) (input : Input)
    (expected : String) :
    Mirrors fill (refuseFound input expected) (refuseFound input.fill expected) :=
  (readFound_mirrors input).bind fun _ => .error _ _ rfl

/-- A comma is never the end of an array. -/
theorem endComma_mirrors (rest rest' : Input) :
    Mirrors Input.fill
      (match skipBlanks rest with
        | .char ']' :: more => .error (.ahead (.char ']' :: more) .trailingComma)
        | more => .error (.ahead more .trailingCharacters))
      (match skipBlanks rest' with
        | .char ']' :: more => .error (.ahead (.char ']' :: more) .trailingComma)
        | more => .error (.ahead more .trailingCharacters)) := by
  split <;> split <;> exact .error _ _ rfl

/-- Lists end in a filling as in the document. -/
theorem endList_mirrors (input : Input) :
    Mirrors Input.fill (endList input) (endList input.fill) := by
  unfold endList
  rw [skipBlanks_fill]
  rcases skipBlanks input with _ | ⟨c | _, rest⟩
  · exact .error _ _ rfl
  · rw [fill_char]
    by_cases hclose : c = ']'
    · subst hclose
      exact .ok rest
    by_cases hcomma : c = ','
    · subst hcomma
      exact endComma_mirrors rest (Input.fill rest)
    simp only [List.cons.injEq, Symbol.char.injEq, false_and, imp_self,
      implies_true, hclose, hcomma]
    exact .error _ _ rfl
  · exact .error _ _ rfl

/-- Separators are the same in a filling. -/
theorem nextItem_mirrors (first : Bool) (input : Input) :
    Mirrors fillRest (nextItem first input) (nextItem first input.fill) := by
  unfold nextItem
  rw [skipBlanks_fill]
  rcases skipBlanks input with _ | ⟨c | _, rest⟩
  · exact .error _ _ rfl
  · rw [fill_char]
    by_cases hclose : c = ']'
    · subst hclose
      exact .ok (false, .char ']' :: rest)
    simp only [Symbol.char.injEq, imp_self, hclose]
    split_ifs
    · exact .ok (true, .char c :: rest)
    · rw [skipBlanks_fill]
      rcases skipBlanks rest with _ | ⟨d | _, more⟩
      · exact .error _ _ rfl
      · rw [fill_char]
        by_cases hend : d = ']'
        · subst hend
          exact .error _ _ rfl
        simp only [List.cons.injEq, Symbol.char.injEq, false_and, imp_self,
          implies_true, hend]
        exact .ok (true, .char d :: more)
      · exact .ok (true, .stray :: more)
    · exact .error _ _ rfl
  · cases first with
    | true => exact .ok (true, .stray :: rest)
    | false => exact .error _ _ rfl

/-- `readString_mirrors` for a key. -/
theorem readKey_mirrors (input : Input) :
    Mirrors fillRest (do let (key, rest) ← readString input; return (some key, rest))
      (do let (key, rest) ← readString input.fill; return (some key, rest)) :=
  (readString_mirrors input).bind fun (key, rest) => .ok (some key, rest)

/-- Keys are read of a filling as of the document. -/
theorem nextKey_mirrors (first : Bool) (input : Input) :
    Mirrors fillRest (nextKey first input) (nextKey first input.fill) := by
  unfold nextKey
  rw [skipBlanks_fill]
  rcases skipBlanks input with _ | ⟨c | _, rest⟩
  · exact .error _ _ rfl
  · rw [fill_char]
    by_cases hclose : c = '\x7d'
    · subst hclose
      exact .ok (none, rest)
    simp only [Symbol.char.injEq, imp_self, hclose]
    split_ifs
    · exact readKey_mirrors rest
    · exact .error _ _ rfl
    · rw [skipBlanks_fill]
      rcases skipBlanks rest with _ | ⟨d | _, more⟩
      · exact .error _ _ rfl
      · rw [fill_char]
        by_cases hquote : d = '"'
        · subst hquote
          exact readKey_mirrors more
        by_cases hend : d = '\x7d'
        · subst hend
          exact .error _ _ rfl
        simp only [List.cons.injEq, Symbol.char.injEq, false_and, imp_self,
          implies_true, hquote, hend]
        exact .error _ _ rfl
      · exact .error _ _ rfl
    · exact .error _ _ rfl
  · cases first <;> exact .error _ _ rfl

/-- Colons are the same in a filling. -/
theorem readColon_mirrors (input : Input) :
    Mirrors Input.fill (readColon input) (readColon input.fill) := by
  unfold readColon
  rw [skipBlanks_fill]
  rcases skipBlanks input with _ | ⟨c | _, rest⟩
  · exact .error _ _ rfl
  · rw [fill_char]
    by_cases hcolon : c = ':'
    · subst hcolon
      exact .ok rest
    simp only [List.cons.injEq, Symbol.char.injEq, false_and, imp_self,
      implies_true, hcolon]
    exact .error _ _ rfl
  · exact .error _ _ rfl

/-- Items are read of a filling as of the document if each item is. -/
theorem readItems_mirrors {α : Type} {item : Reader α}
    (h : ∀ input, Mirrors fillRest (item input) (item input.fill))
    (input : Input) :
    Mirrors fillRest (readItems item input) (readItems item input.fill) := by
  unfold readItems
  rw [length_fill]
  generalize input.length + 1 = fuel
  generalize true = first
  induction fuel generalizing first input with
  | zero => exact .error _ _ rfl
  | succ fuel ih =>
    unfold readItemsFrom
    refine (nextItem_mirrors first input).bind fun result => ?_
    obtain ⟨more, rest⟩ := result
    cases more with
    | false => exact .ok ([], rest)
    | true =>
      refine (h rest).bind fun result => ?_
      obtain ⟨x, rest⟩ := result
      exact (ih rest false).bind fun result => .ok (x :: result.1, result.2)

/-! ## Values that are passed over -/

/-- Passing over a string asks nothing of its characters that their filling
would not answer alike. -/
theorem skipStringFrom_mirrors (mode : SkipMode) (input : Input) :
    Mirrors Input.fill (skipStringFrom mode input)
      (skipStringFrom mode input.fill) := by
  induction input generalizing mode with
  | nil => cases mode <;> exact .error _ _ rfl
  | cons s rest ih =>
    cases mode with
    | plain =>
      cases s with
      | stray => exact ih .plain
      | char c =>
        rw [fill_char]
        unfold skipStringFrom
        split_ifs
        · exact .ok rest
        · exact ih .escape
        · exact .error _ _ rfl
        · exact ih .plain
    | escape =>
      cases s with
      | stray => exact .error _ _ rfl
      | char c =>
        rw [fill_char]
        unfold skipStringFrom
        split_ifs
        · exact ih (.hex 4)
        · exact ih .plain
        · exact .error _ _ rfl
    | hex due =>
      cases s with
      | stray =>
        have hdigit : Symbol.hexDigit? (.char '\uFFFD') = none := by decide
        rw [fill_stray]
        unfold skipStringFrom
        rw [hdigit]
        dsimp only [Symbol.hexDigit?]
        split_ifs <;> exact .error _ _ rfl
      | char c =>
        rw [fill_char]
        unfold skipStringFrom
        cases Symbol.hexDigit? (.char c) with
        | none =>
          dsimp only
          split_ifs <;> exact .error _ _ rfl
        | some d => exact ih _

/-- `skipStringFrom_mirrors` from behind the quotation mark. -/
theorem skipString_mirrors (input : Input) :
    Mirrors Input.fill (skipString input) (skipString input.fill) :=
  skipStringFrom_mirrors .plain input

/-- The digits of an exponent are passed over in a filling as in the
document. -/
theorem skipUnsigned_mirrors (input : Input) :
    Mirrors Input.fill
      (match readDigits input with
        | ([], rest) => .error (.ahead rest .invalidNumber)
        | (_, rest) => .ok rest)
      (match readDigits input.fill with
        | ([], rest) => .error (.ahead rest .invalidNumber)
        | (_, rest) => .ok rest) := by
  rw [readDigits_fill]
  obtain ⟨ds, rest⟩ := readDigits input
  cases ds with
  | nil => exact .error _ _ rfl
  | cons d ds => exact .ok rest

/-- An exponent is passed over in a filling as in the document. -/
theorem skipExponent_mirrors (input : Input) :
    Mirrors Input.fill (skipExponent input) (skipExponent input.fill) := by
  unfold skipExponent
  rcases input with _ | ⟨c | _, rest⟩
  · exact skipUnsigned_mirrors []
  · by_cases hplus : c = '+'
    · subst hplus
      exact skipUnsigned_mirrors rest
    by_cases hminus : c = '-'
    · subst hminus
      exact skipUnsigned_mirrors rest
    rw [fill_char]
    simp only [List.cons.injEq, Symbol.char.injEq, false_and, imp_self,
      implies_true, hplus, hminus]
    exact skipUnsigned_mirrors (.char c :: rest)
  · exact skipUnsigned_mirrors (.stray :: rest)

theorem skipExponent?_mirrors (input : Input) :
    Mirrors Input.fill (skipExponent? input) (skipExponent? input.fill) := by
  unfold skipExponent?
  rcases input with _ | ⟨c | _, rest⟩
  · exact .ok []
  · rw [fill_char]
    by_cases hlow : c = 'e'
    · subst hlow
      exact skipExponent_mirrors rest
    by_cases hhigh : c = 'E'
    · subst hhigh
      exact skipExponent_mirrors rest
    simp only [List.cons.injEq, Symbol.char.injEq, false_and, imp_self,
      implies_true, hlow, hhigh]
    exact .ok (.char c :: rest)
  · exact .ok (.stray :: rest)

/-- A fraction is passed over in a filling as in the document. -/
theorem skipFraction_mirrors (input : Input) :
    Mirrors Input.fill
      (match readDigits input with
        | ([], rest) => .error (.ahead rest .invalidNumber)
        | (_, rest) => skipExponent? rest)
      (match readDigits input.fill with
        | ([], rest) => .error (.ahead rest .invalidNumber)
        | (_, rest) => skipExponent? rest) := by
  rw [readDigits_fill]
  obtain ⟨ds, rest⟩ := readDigits input
  cases ds with
  | nil => exact .error _ _ rfl
  | cons d ds => exact skipExponent?_mirrors rest

/-- A number is passed over in a filling as in the document. -/
theorem skipNumber_mirrors (input : Input) :
    Mirrors Input.fill (skipNumber input) (skipNumber input.fill) := by
  unfold skipNumber
  rw [readDigits_fill]
  obtain ⟨ds, rest⟩ := readDigits input
  dsimp only [fillRest]
  rcases ds with _ | ⟨_ | d, _ | ⟨d', ds⟩⟩
  case nil => exact .error _ _ rfl
  case cons.zero.cons => exact .error _ _ rfl
  all_goals
    rcases rest with _ | ⟨c | _, rest⟩
    · exact .ok []
    · by_cases hpoint : c = '.'
      · subst hpoint
        exact skipFraction_mirrors rest
      rw [fill_char]
      simp only [List.cons.injEq, Symbol.char.injEq, false_and, imp_self,
        implies_true, hpoint]
      exact skipExponent?_mirrors (.char c :: rest)
    · exact .ok (.stray :: rest)

/-- A key is passed over in a filling as in the document. -/
theorem skipKey_mirrors (input : Input) :
    Mirrors Input.fill (skipKey input) (skipKey input.fill) := by
  unfold skipKey
  rw [skipBlanks_fill]
  rcases skipBlanks input with _ | ⟨c | _, rest⟩
  · exact .error _ _ rfl
  · rw [fill_char]
    by_cases hquote : c = '"'
    · subst hquote
      refine (skipString_mirrors rest).bind fun rest => ?_
      exact readColon_mirrors rest
    simp only [List.cons.injEq, Symbol.char.injEq, false_and, imp_self,
      implies_true, hquote]
    exact .error _ _ rfl
  · exact .error _ _ rfl

/-- The three ways to pass over something, with as much fuel as there is. -/
theorem skipFrom_mirrors (fuel : Nat) :
    (∀ input : Input, Mirrors Input.fill (skipValueFrom fuel input)
      (skipValueFrom fuel input.fill)) ∧
      (∀ (first : Bool) (input : Input),
        Mirrors Input.fill (skipItemsFrom fuel first input)
          (skipItemsFrom fuel first input.fill)) ∧
        ∀ (first : Bool) (input : Input),
        Mirrors Input.fill (skipMembersFrom fuel first input)
          (skipMembersFrom fuel first input.fill) := by
  induction fuel with
  | zero => exact ⟨fun _ => .error _ _ rfl, fun _ _ => .error _ _ rfl,
      fun _ _ => .error _ _ rfl⟩
  | succ fuel ih =>
    obtain ⟨hvalue, hitems, hmembers⟩ := ih
    have hitem : ∀ input : Input, Mirrors Input.fill
        (skipValueFrom fuel input >>= skipItemsFrom fuel false)
        (skipValueFrom fuel input.fill >>= skipItemsFrom fuel false) :=
      fun input => (hvalue input).bind (hitems false)
    have hmember : ∀ input : Input, Mirrors Input.fill
        (skipKey input >>= fun rest => skipValueFrom fuel rest >>=
          skipMembersFrom fuel false)
        (skipKey input.fill >>= fun rest => skipValueFrom fuel rest >>=
          skipMembersFrom fuel false) :=
      fun input => (skipKey_mirrors input).bind fun rest =>
        (hvalue rest).bind (hmembers false)
    refine ⟨fun input => ?_, fun first input => ?_, fun first input => ?_⟩
    · unfold skipValueFrom
      rw [skipBlanks_fill]
      rcases skipBlanks input with _ | ⟨c | _, rest⟩
      · exact .error _ _ rfl
      · rw [fill_char]
        by_cases hnull : c = 'n'
        · subst hnull
          exact readWord_mirrors (by decide) rest
        by_cases htrue : c = 't'
        · subst htrue
          exact readWord_mirrors (by decide) rest
        by_cases hfalse : c = 'f'
        · subst hfalse
          exact readWord_mirrors (by decide) rest
        by_cases hquote : c = '"'
        · subst hquote
          exact skipString_mirrors rest
        by_cases hminus : c = '-'
        · subst hminus
          exact skipNumber_mirrors rest
        by_cases hbracket : c = '['
        · subst hbracket
          exact hitems true rest
        by_cases hbrace : c = '\x7b'
        · subst hbrace
          exact hmembers true rest
        simp only [Symbol.char.injEq, imp_self, hnull, htrue, hfalse, hquote,
          hminus, hbracket, hbrace]
        split_ifs
        · exact skipNumber_mirrors (.char c :: rest)
        · exact .error _ _ rfl
      · exact .error _ _ rfl
    · unfold skipItemsFrom
      rw [skipBlanks_fill]
      rcases skipBlanks input with _ | ⟨c | _, rest⟩
      · exact .error _ _ rfl
      · rw [fill_char]
        by_cases hclose : c = ']'
        · subst hclose
          exact .ok rest
        simp only [Symbol.char.injEq, imp_self, hclose]
        split_ifs
        · exact hitem (.char c :: rest)
        · exact hitem rest
        · exact .error _ _ rfl
      · cases first with
        | true => exact hitem (.stray :: rest)
        | false => exact .error _ _ rfl
    · unfold skipMembersFrom
      rw [skipBlanks_fill]
      rcases skipBlanks input with _ | ⟨c | _, rest⟩
      · exact .error _ _ rfl
      · rw [fill_char]
        by_cases hclose : c = '\x7d'
        · subst hclose
          exact .ok rest
        simp only [Symbol.char.injEq, imp_self, hclose]
        split_ifs
        · exact hmember (.char c :: rest)
        · exact hmember rest
        · exact .error _ _ rfl
      · cases first with
        | true => exact hmember (.stray :: rest)
        | false => exact .error _ _ rfl

/-- **A value is passed over in a filling as in the document.** -/
theorem skipValue_mirrors (input : Input) :
    Mirrors Input.fill (skipValue input) (skipValue input.fill) := by
  unfold skipValue
  rw [length_fill]
  exact (skipFrom_mirrors _).1 input

/-- Of a whole document nothing is left. -/
theorem readDocument_mirrors {α : Type} {reader : Reader α}
    (h : ∀ input, Mirrors fillRest (reader input) (reader input.fill))
    (document : Input) :
    Mirrors id (readDocument reader document)
      (readDocument reader document.fill) := by
  unfold readDocument
  refine (h document).bind fun (x, rest) => ?_
  dsimp only [fillRest]
  rw [skipBlanks_fill]
  cases skipBlanks rest with
  | nil => exact .ok x
  | cons => exact .error _ _ rfl

end DetectorBench.Json
