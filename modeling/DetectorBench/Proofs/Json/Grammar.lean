import DetectorBench.Json.Reader

/-!
# The texts of a JSON value

The readers of this library are told apart from the grammar they read: `Spells j
t` says that the symbols `t` are a text of the value `j`, with blanks wherever
they may stand and any escapes in strings. It is a relation on texts and knows
of no reader, so a law about a reader says what the reader does with every text
of a value, not only with those that this library writes.

* `Spells`, `SpellsItems`, `SpellsMembers` : values, and what stands inside
  brackets up to and with the closing one;
* `write_spells` : both layouts write a text of the value.

A text never starts with a blank, so that blanks before a value belong to what
stands around it. What may follow a number is `Terminated`: nothing that would
make the number longer.
-/

namespace DetectorBench.Json

/-- Characters as symbols of a document. -/
def symbols (cs : List Char) : Input :=
  cs.map .char

theorem symbols_nil : symbols [] = [] := rfl

theorem symbols_cons (c : Char) (cs : List Char) :
    symbols (c :: cs) = .char c :: symbols cs := rfl

/-- The symbols of two parts stand one after the other. -/
theorem symbols_append (xs ys : List Char) :
    symbols (xs ++ ys) = symbols xs ++ symbols ys :=
  List.map_append

/-! ## Blanks -/

/-- Whether a symbol may stand between tokens. -/
def Symbol.isBlank : Symbol → Bool
  | .char c => c = ' ' ∨ c = '\n' ∨ c = '\t' ∨ c = '\r'
  | .stray => false

/-- The four blanks of JSON. -/
theorem Symbol.isBlank_char {c : Char} :
    (Symbol.char c).isBlank = true ↔ c = ' ' ∨ c = '\n' ∨ c = '\t' ∨ c = '\r' := by
  simp [Symbol.isBlank]

/-- Nothing but blanks. -/
def Blank (t : Input) : Prop :=
  ∀ s ∈ t, s.isBlank = true

theorem blank_nil : Blank [] := by
  intro s hs
  cases hs

/-- Blanks after blanks are blanks. -/
theorem Blank.append {b b' : Input} (h : Blank b) (h' : Blank b') :
    Blank (b ++ b') :=
  fun s hs => (List.mem_append.mp hs).elim (h s) (h' s)

/-- Between tokens a layout writes blanks or nothing. -/
theorem blank_gap (layout : Layout) : Blank (symbols layout.gap) := by
  cases layout with
  | compact => exact blank_nil
  | pretty depth =>
    intro s hs
    simp only [Layout.gap, symbols, List.map_cons, List.map_replicate,
      List.mem_cons] at hs
    rcases hs with rfl | hs
    · rfl
    · rw [List.eq_of_mem_replicate hs]
      rfl

/-- What stands before an item or a member: blanks, and a comma unless it is the
first. -/
inductive Lead : (first : Bool) → Input → Prop where
  | first {b : Input} (blank : Blank b) : Lead true b
  | next {b b' : Input} (before : Blank b) (after : Blank b') :
      Lead false (b ++ .char ',' :: b')

/-! ## Strings -/

/-- Four hexadecimal digits and the number that they stand for. -/
inductive Quad : Nat → Input → Prop where
  | digits {a b c d : Symbol} {w x y z : Nat} (ha : a.hexDigit? = some w)
    (hb : b.hexDigit? = some x) (hc : c.hexDigit? = some y)
    (hd : d.hexDigit? = some z) :
    Quad (((w * 16 + x) * 16 + y) * 16 + z) [a, b, c, d]

/-- The characters of a string, after the opening quotation mark and up to the
closing one. -/
inductive SpellsChars : List Char → Input → Prop where
  | close : SpellsChars [] [.char '"']
  | plain {c : Char} {cs : List Char} {t : Input} (quote : c ≠ '"')
      (slash : c ≠ '\\')
    (control : 0x20 ≤ c.toNat) (rest : SpellsChars cs t) :
      SpellsChars (c :: cs) (.char c :: t)
  | short {e c : Char} {cs : List Char} {t : Input}
    (escape : shortEscape? e = some c) (rest : SpellsChars cs t) :
    SpellsChars (c :: cs) (.char '\\' :: .char e :: t)
  | code {n : Nat} {cs : List Char} {q t : Input} (quad : Quad n q)
    (high : isHighSurrogate n = false) (low : isLowSurrogate n = false)
    (rest : SpellsChars cs t) :
    SpellsChars (Char.ofNat n :: cs) (.char '\\' :: .char 'u' :: (q ++ t))
  | pair {n k : Nat} {cs : List Char} {q r t : Input} (first : Quad n q)
    (second : Quad k r) (high : isHighSurrogate n = true)
    (low : isLowSurrogate k = true) (rest : SpellsChars cs t) :
    SpellsChars (ofSurrogates n k :: cs)
      (.char '\\' :: .char 'u' :: (q ++ .char '\\' :: .char 'u' :: (r ++ t)))

/-- A string. -/
inductive SpellsString : String → Input → Prop where
  | quoted {cs : List Char} {t : Input} (chars : SpellsChars cs t) :
    SpellsString (String.ofList cs) (.char '"' :: t)

/-! ## Numbers -/

/-- One or more decimal digits. -/
def Digits (t : Input) : Prop :=
  t ≠ [] ∧ ∀ s ∈ t, s.digit?.isSome = true

/-- The digits before the point: no zero before another digit. -/
def WholePart (t : Input) : Prop :=
  t = [.char '0'] ∨ Digits t ∧ t.head? ≠ some (.char '0')

/-- The point and the digits after it, if there are any. -/
inductive FractionPart : Input → Prop where
  | none : FractionPart []
  | some {t : Input} (digits : Digits t) : FractionPart (.char '.' :: t)

/-- The exponent, if there is one. -/
inductive ExponentPart : Input → Prop where
  | none : ExponentPart []
  | some {e : Char} {sign t : Input} (letter : e = 'e' ∨ e = 'E')
    (signed : sign = [] ∨ sign = [.char '+'] ∨ sign = [.char '-'])
    (digits : Digits t) :
    ExponentPart (.char e :: (sign ++ t))

/-- The text of a number. -/
inductive Numeral : Input → Prop where
  | positive {w f x : Input} (whole : WholePart w) (fraction : FractionPart f)
    (exponent : ExponentPart x) : Numeral (w ++ (f ++ x))
  | negative {w f x : Input} (whole : WholePart w) (fraction : FractionPart f)
    (exponent : ExponentPart x) : Numeral (.char '-' :: (w ++ (f ++ x)))

/-- An integer that is kept as one. -/
def InRange (i : Int) : Prop :=
  -(maxNegative : Int) ≤ i ∧ i ≤ maxUnsigned

/-- Nothing that a number before it would take in. -/
def Terminated (rest : Input) : Prop :=
  ∀ s ∈ rest.head?, s.digit? = none ∧ s ≠ .char '.' ∧ s ≠ .char 'e' ∧ s ≠ .char 'E'

/-! ## Values -/

mutual

/-- The texts of a value. An integer has one text; of any other number nothing
is said but that its text is a numeral. -/
inductive Spells : Json → Input → Prop where
  | null : Spells .null (symbols ['n', 'u', 'l', 'l'])
  | true : Spells (.bool Bool.true) (symbols ['t', 'r', 'u', 'e'])
  | false : Spells (.bool Bool.false) (symbols ['f', 'a', 'l', 's', 'e'])
  | number {n : Number} {t : Input} (numeral : Numeral t)
    (integer : ∀ i, n = .int i → InRange i ∧ t = symbols n.text) :
      Spells (.number n) t
  | string {s : String} {t : Input} (chars : SpellsString s t) :
    Spells (.string s) t
  | array {items : List Json} {t : Input}
    (inside : SpellsItems Bool.true items t) :
    Spells (.array items) (.char '[' :: t)
  | object {members : List (String × Json)} {t : Input}
    (inside : SpellsMembers Bool.true members t) :
      Spells (.object members) (.char '\x7b' :: t)

/-- The items of an array with its closing bracket. -/
inductive SpellsItems : (first : Bool) → List Json → Input → Prop where
  | close {first : Bool} {b : Input} (blank : Blank b) :
      SpellsItems first [] (b ++ [.char ']'])
  | item {first : Bool} {lead t u : Input} {j : Json} {items : List Json}
    (before : Lead first lead) (value : Spells j t)
    (rest : SpellsItems Bool.false items u) :
    SpellsItems first (j :: items) (lead ++ (t ++ u))

/-- The members of an object with its closing brace. -/
inductive SpellsMembers : (first : Bool) → List (String × Json) → Input → Prop where
  | close {first : Bool} {b : Input} (blank : Blank b) :
    SpellsMembers first [] (b ++ [.char '\x7d'])
  | member {first : Bool} {lead k b b' t u : Input} {key : String} {j : Json}
    {members : List (String × Json)} (before : Lead first lead)
    (name : SpellsString key k)
    (colon : Blank b) (gap : Blank b') (value : Spells j t)
    (rest : SpellsMembers Bool.false members u) :
    SpellsMembers first ((key, j) :: members)
      (lead ++ (k ++ (b ++ .char ':' :: (b' ++ (t ++ u)))))

end

/-! ## How texts start and end -/

/-- A symbol that a value can start with. -/
def StartsValue (s : Symbol) : Prop :=
  s.isBlank = false ∧ s ≠ .char ']' ∧ s ≠ .char '\x7d' ∧ s ≠ .char ',' ∧
    s ≠ .char ':'

/-- A digit is no blank. -/
theorem Symbol.isBlank_of_digit {s : Symbol} (h : s.digit?.isSome = true) :
    s.isBlank = false := by
  cases s with
  | stray => rfl
  | char c =>
    rw [Bool.eq_false_iff]
    intro hb
    rcases Symbol.isBlank_char.mp hb with rfl | rfl | rfl | rfl <;> revert h <;>
      decide

/-- A digit is the start of a value. -/
theorem startsValue_of_digit {s : Symbol} (h : s.digit?.isSome = true) :
    StartsValue s := by
  refine ⟨Symbol.isBlank_of_digit h, ?_, ?_, ?_, ?_⟩ <;>
  · rintro rfl
    revert h
    decide

/-- A number starts with a digit or the sign. -/
theorem WholePart.starts {t : Input} (h : WholePart t) :
    ∃ s u, t = s :: u ∧ s.digit?.isSome = true := by
  rcases h with rfl | ⟨⟨hne, hall⟩, -⟩
  · exact ⟨_, _, rfl, by decide⟩
  · obtain ⟨s, u, rfl⟩ := List.exists_cons_of_ne_nil hne
    exact ⟨s, u, rfl, hall s List.mem_cons_self⟩

/-- The first symbol of a text tells what kind of value follows. -/
inductive Opens : Json → Symbol → Prop where
  | null : Opens .null (.char 'n')
  | true : Opens (.bool Bool.true) (.char 't')
  | false : Opens (.bool Bool.false) (.char 'f')
  | minus {n : Number} : Opens (.number n) (.char '-')
  | digit {n : Number} {s : Symbol} (digit : s.digit?.isSome = Bool.true) :
      Opens (.number n) s
  | string {s : String} : Opens (.string s) (.char '"')
  | array {items : List Json} : Opens (.array items) (.char '[')
  | object {members : List (String × Json)} :
    Opens (.object members) (.char '\x7b')

/-- A string starts with its quotation mark. -/
theorem SpellsString.starts {s : String} {t : Input} (h : SpellsString s t) :
    ∃ u, t = .char '"' :: u := by
  cases h
  exact ⟨_, rfl⟩

/-- A text has a first symbol, and that tells the kind of the value. -/
theorem Spells.opens {j : Json} {t : Input} (h : Spells j t) :
    ∃ s u, t = s :: u ∧ Opens j s := by
  cases h with
  | null => exact ⟨_, _, rfl, .null⟩
  | true => exact ⟨_, _, rfl, .true⟩
  | false => exact ⟨_, _, rfl, .false⟩
  | string chars =>
    cases chars
    exact ⟨_, _, rfl, .string⟩
  | array => exact ⟨_, _, rfl, .array⟩
  | object => exact ⟨_, _, rfl, .object⟩
  | number numeral =>
    cases numeral with
    | negative => exact ⟨_, _, rfl, .minus⟩
    | positive whole =>
      obtain ⟨s, u, rfl, hs⟩ := whole.starts
      exact ⟨s, _, rfl, .digit hs⟩

/-- Whatever the kind is, the first symbol is one that a value can start
with. -/
theorem Opens.startsValue {j : Json} {s : Symbol} (h : Opens j s) :
    StartsValue s := by
  cases h with
  | digit digit => exact startsValue_of_digit digit
  | _ => refine ⟨rfl, ?_, ?_, ?_, ?_⟩ <;> decide

/-- A text starts where a value can start. -/
theorem Spells.starts {j : Json} {t : Input} (h : Spells j t) :
    ∃ s u, t = s :: u ∧ StartsValue s := by
  obtain ⟨s, u, rfl, hs⟩ := h.opens
  exact ⟨s, u, rfl, hs.startsValue⟩

/-- At the end of a document a number ends. -/
theorem terminated_nil : Terminated [] := by
  intro s hs
  cases hs

/-- A number ends before any symbol that could not go on with it. -/
theorem terminated_cons {s : Symbol} {rest : Input} (hd : s.digit? = none)
    (hp : s ≠ .char '.') (he : s ≠ .char 'e') (hE : s ≠ .char 'E') :
    Terminated (s :: rest) := by
  intro s' hs
  cases hs
  exact ⟨hd, hp, he, hE⟩

/-- A number ends before a blank. -/
theorem terminated_of_blank {s : Symbol} {rest : Input}
    (hs : s.isBlank = true) :
    Terminated (s :: rest) := by
  cases s with
  | stray => cases hs
  | char c =>
    rcases Symbol.isBlank_char.mp hs with rfl | rfl | rfl | rfl <;>
      exact terminated_cons (by decide) (by decide) (by decide) (by decide)

/-- Blanks end a number, and so does what comes right after none of them. -/
theorem Blank.terminated {b rest : Input} (hb : Blank b)
    (hr : Terminated rest) :
    Terminated (b ++ rest) := by
  cases b with
  | nil => exact hr
  | cons s b => exact terminated_of_blank (hb s List.mem_cons_self)

/-- A number ends before a comma, with or without blanks. -/
theorem Lead.terminated {lead rest : Input} (h : Lead false lead) :
    Terminated (lead ++ rest) := by
  cases h with
  | next before after =>
    rw [List.append_assoc]
    exact before.terminated (terminated_cons (by decide) (by decide) (by decide)
      (by decide))

/-- What follows an item ends the item. -/
theorem SpellsItems.terminated {items : List Json} {t rest : Input}
    (h : SpellsItems false items t) :
    Terminated (t ++ rest) := by
  cases h with
  | close blank =>
    rw [List.append_assoc]
    exact blank.terminated (terminated_cons (by decide) (by decide) (by decide)
      (by decide))
  | item before value rest =>
    rw [List.append_assoc]
    exact before.terminated

/-- A number ends before the next member of an object or its brace. -/
theorem SpellsMembers.terminated {members : List (String × Json)}
    {t rest : Input} (h : SpellsMembers false members t) :
    Terminated (t ++ rest) := by
  cases h with
  | close blank =>
    rw [List.append_assoc]
    exact blank.terminated (terminated_cons (by decide) (by decide) (by decide)
      (by decide))
  | member before name colon gap value rest =>
    rw [List.append_assoc]
    exact before.terminated

/-- Every item takes a symbol at least, and so does the bracket. -/
theorem SpellsItems.length_lt {items : List Json} :
    ∀ {first : Bool} {t : Input}, SpellsItems first items t →
      items.length < t.length := by
  -- on the items and not on the text: the relation is mutual with two others
  induction items with
  | nil =>
    intro first t h
    cases h
    simp
  | cons j items ih =>
    intro first t h
    cases h with
    | item before value rest =>
      obtain ⟨s, u, rfl, -⟩ := value.opens
      have hrest := ih rest
      simp only [List.length_append, List.length_cons]
      omega

/-- Each member takes a symbol or more, so the fuel of a reader suffices. -/
theorem SpellsMembers.length_lt {members : List (String × Json)} :
    ∀ {first : Bool} {t : Input}, SpellsMembers first members t →
      members.length < t.length := by
  induction members with
  | nil =>
    intro first t h
    cases h
    simp
  | cons m members ih =>
    intro first t h
    cases h with
    | member before name colon gap value rest =>
      have hrest := ih rest
      simp only [List.length_append, List.length_cons]
      omega

end DetectorBench.Json
