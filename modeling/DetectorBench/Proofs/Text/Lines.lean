import DetectorBench.Text.Class
import DetectorBench.Text.Quoted
import Mathlib.Data.List.Basic

/-!
# Pieces and lines

Cutting a text into pieces is the library's `List.splitOn`
(`piecesAt_eq_splitOn`), whose lemmas are used where texts are joined and cut.
Where a text is walked over character by character, the cutting is followed by
its own equations (`piecesAt_cons_self`, `piecesAt_cons_of_ne`). The lines of a
text are its pieces between line breaks.

Joining messages to one text forgets where a message ends: the lines of the text
are the lines of the messages one after the other (`lines_joinLines`), and they
are the messages themselves exactly if each message is one line
(`flatMap_lines_eq_iff`). Digits and quoted texts are always one line.
-/

namespace DetectorBench.Text

/-- Cutting is the library's `List.splitOn`. -/
theorem piecesAt_eq_splitOn (separator : Char) (cs : List Char) :
    piecesAt separator cs = cs.splitOn separator := by
  induction cs with
  | nil => rfl
  | cons c cs ih =>
    unfold piecesAt
    rw [ih, List.splitOn_eq_splitOnP, List.splitOn_eq_splitOnP,
      List.splitOnP_cons_eq_if_modifyHead]
    by_cases hc : c = separator
    · rw [if_pos hc, if_pos (beq_iff_eq.mpr hc)]
    · rw [if_neg hc, if_neg (mt beq_iff_eq.mp hc)]
      obtain ⟨piece, pieces, hpieces⟩ :=
        List.exists_cons_of_ne_nil (List.splitOnP_ne_nil (· == separator) cs)
      rw [hpieces]
      rfl

/-- A separator ends an empty piece in front of it. -/
theorem piecesAt_cons_self (separator : Char) (cs : List Char) :
    piecesAt separator (separator :: cs) = [] :: piecesAt separator cs := by
  rw [piecesAt, if_pos rfl]

/-- Any other character belongs to the first piece. -/
theorem piecesAt_cons_of_ne {separator c : Char} (h : c ≠ separator)
    {cs piece : List Char} {pieces : List (List Char)}
    (hcs : piecesAt separator cs = piece :: pieces) :
    piecesAt separator (c :: cs) = (c :: piece) :: pieces := by
  rw [piecesAt, if_neg h, hcs]

/-- There is always a first piece, also of nothing. -/
theorem exists_piecesAt_eq_cons (separator : Char) (cs : List Char) :
    ∃ piece pieces, piecesAt separator cs = piece :: pieces := by
  rw [piecesAt_eq_splitOn]
  exact List.exists_cons_of_ne_nil (List.splitOn_ne_nil _ _)

/-- Every separator makes one piece more. -/
theorem length_piecesAt (separator : Char) (cs : List Char) :
    (piecesAt separator cs).length = cs.count separator + 1 := by
  induction cs with
  | nil => rfl
  | cons c cs ih =>
    by_cases hc : c = separator
    · subst hc
      rw [piecesAt_cons_self, List.length_cons, ih, List.count_cons_self]
    · obtain ⟨piece, pieces, hpieces⟩ := exists_piecesAt_eq_cons separator cs
      rw [piecesAt_cons_of_ne hc hpieces, List.count_cons_of_ne hc, ← ih, hpieces]
      rfl

/-- The pieces hold all characters but the separators. -/
theorem exists_mem_piecesAt_iff {separator c : Char} {cs : List Char} :
    (∃ piece ∈ piecesAt separator cs, c ∈ piece) ↔ c ∈ cs ∧ c ≠ separator := by
  induction cs with
  | nil => simp [piecesAt]
  | cons d cs ih =>
    by_cases hd : d = separator
    · subst hd
      rw [piecesAt_cons_self, List.exists_mem_cons_iff, ih, List.mem_cons]
      simp only [List.not_mem_nil, false_or]
      constructor
      · exact fun ⟨hmem, hne⟩ => ⟨.inr hmem, hne⟩
      · exact fun ⟨hmem, hne⟩ => ⟨hmem.resolve_left hne, hne⟩
    · obtain ⟨piece, pieces, hpieces⟩ := exists_piecesAt_eq_cons separator cs
      rw [hpieces, List.exists_mem_cons_iff] at ih
      rw [piecesAt_cons_of_ne hd hpieces, List.exists_mem_cons_iff,
        List.mem_cons, or_assoc, ih, List.mem_cons]
      constructor
      · rintro (rfl | ⟨hmem, hne⟩)
        · exact ⟨.inl rfl, hd⟩
        · exact ⟨.inr hmem, hne⟩
      · rintro ⟨rfl | hmem, hne⟩
        · exact .inl rfl
        · exact .inr ⟨hmem, hne⟩

/-! ## Lines -/

/-- The lines of a text: what stands between its line breaks. -/
def lines (s : String) : List String :=
  (piecesAt '\n' s.toList).map String.ofList

/-- A text without a line break. -/
def OneLine (s : String) : Prop :=
  '\n' ∉ s.toList

instance (s : String) : Decidable (OneLine s) :=
  inferInstanceAs (Decidable ('\n' ∉ s.toList))

/-- Even the empty text has a line. -/
theorem lines_ne_nil (s : String) : lines s ≠ [] := by
  unfold lines
  rw [piecesAt_eq_splitOn]
  exact List.map_eq_nil_iff.not.mpr (List.splitOn_ne_nil _ _)

/-- A text without a line break is its only line. -/
theorem lines_of_oneLine {s : String} (h : OneLine s) : lines s = [s] := by
  unfold lines
  rw [piecesAt_eq_splitOn, List.splitOn_eq_singleton h, List.map_singleton,
    String.ofList_toList]

/-- A line break makes two lines at least. -/
theorem length_lines_of_not_oneLine {s : String} (h : ¬OneLine s) :
    2 ≤ (lines s).length := by
  obtain ⟨before, after, hsplit⟩ := List.append_of_mem (Decidable.not_not.mp h)
  have hbefore := List.length_pos_iff.mpr (List.splitOn_ne_nil '\n' before)
  have hafter := List.length_pos_iff.mpr (List.splitOn_ne_nil '\n' after)
  unfold lines
  rw [piecesAt_eq_splitOn, hsplit, List.splitOn_append_cons_self, List.length_map,
    List.length_append]
  omega

/-- Joined lines are the lines of each, one after the other. -/
theorem lines_joinLines {messages : List String} (h : messages ≠ []) :
    lines (joinLines messages) = messages.flatMap lines := by
  induction messages with
  | nil => exact absurd rfl h
  | cons message messages ih =>
    cases messages with
    | nil => simp [joinLines]
    | cons next messages =>
      have hjoin : (joinLines (message :: next :: messages)).toList =
          message.toList ++ '\n' :: (joinLines (next :: messages)).toList := by
        unfold joinLines
        rw [String.intercalate_cons_cons, String.toList_append, String.toList_append,
          List.append_assoc]
        rfl
      rw [List.flatMap_cons, ← ih (List.cons_ne_nil _ _)]
      unfold lines
      rw [hjoin, piecesAt_eq_splitOn, piecesAt_eq_splitOn, piecesAt_eq_splitOn,
        List.splitOn_append_cons_self, List.map_append]

/-- Joining messages makes lines more, never fewer. -/
theorem length_le_flatMap_lines (messages : List String) :
    messages.length ≤ (messages.flatMap lines).length := by
  induction messages with
  | nil => exact Nat.le_refl _
  | cons message messages ih =>
    have hpos := List.length_pos_iff.mpr (lines_ne_nil message)
    rw [List.flatMap_cons, List.length_append, List.length_cons]
    omega

/-- No line was added exactly if every message is one. -/
theorem flatMap_lines_eq_iff {messages : List String} :
    messages.flatMap lines = messages ↔ ∀ message ∈ messages, OneLine message := by
  induction messages with
  | nil => simp
  | cons message messages ih =>
    rw [List.flatMap_cons, List.forall_mem_cons, ← ih]
    by_cases hmessage : OneLine message
    · rw [lines_of_oneLine hmessage]
      simp [hmessage]
    · -- there are more lines than messages
      have hlength := length_lines_of_not_oneLine hmessage
      have hrest := length_le_flatMap_lines messages
      refine ⟨fun heq => ?_, fun hboth => absurd hboth.1 hmessage⟩
      have heq := congrArg List.length heq
      rw [List.length_append, List.length_cons] at heq
      omega

/-! ## Texts of one line -/

/-- A line break in a text is in one of its parts. -/
theorem oneLine_append {s t : String} :
    OneLine (s ++ t) ↔ OneLine s ∧ OneLine t := by
  unfold OneLine
  rw [String.toList_append, List.mem_append, not_or]

/-- Texts of one line with such a text between them are one line. -/
theorem oneLine_intercalate {separator : String}
    (hseparator : OneLine separator) {texts : List String}
    (h : ∀ text ∈ texts, OneLine text) :
    OneLine (separator.intercalate texts) := by
  induction texts with
  | nil =>
    rw [String.intercalate_nil]
    decide
  | cons text texts ih =>
    obtain ⟨htext, htexts⟩ := List.forall_mem_cons.mp h
    cases texts with
    | nil => exact String.intercalate_singleton ▸ htext
    | cons next texts =>
      rw [String.intercalate_cons_cons]
      exact oneLine_append.mpr ⟨oneLine_append.mpr ⟨htext, hseparator⟩, ih htexts⟩

theorem oneLine_ofList {cs : List Char} :
    OneLine (String.ofList cs) ↔ '\n' ∉ cs := by
  unfold OneLine
  rw [String.toList_ofList]

/-- No digit is a line break. -/
theorem newline_notMem_toDigits {base : Nat} (hlow : 1 < base)
    (hhigh : base ≤ 16) (n : Nat) :
    '\n' ∉ Nat.toDigits base n := by
  have hdigit : ∀ d, d < 16 → '\n' ≠ Nat.digitChar d := by decide
  induction n using Nat.strongRecOn with
  | ind n ih =>
    rw [Nat.toDigits_eq_if hlow]
    split
    next hsmall =>
      rw [List.mem_singleton]
      exact hdigit n (by omega)
    next hlarge =>
      have hfront := ih (n / base) (Nat.div_lt_self (by omega) hlow)
      have hlast :=
        hdigit (n % base) (Nat.lt_of_lt_of_le (Nat.mod_lt n (by omega)) hhigh)
      rw [List.mem_append, List.mem_singleton, not_or]
      exact ⟨hfront, hlast⟩

/-- A number is written with digits only. -/
theorem notMem_digits {c : Char} (hc : c.isDigit = false) (n : Nat) :
    c ∉ digits n := by
  intro hmem
  rw [Nat.isDigit_of_mem_toDigits (by omega) (by omega) hmem] at hc
  cases hc

/-- In particular no number is written with a line break. -/
theorem newline_notMem_digits (n : Nat) : '\n' ∉ digits n :=
  notMem_digits rfl n

/-- A number is one line. -/
theorem oneLine_digits (n : Nat) : OneLine (String.ofList (digits n)) :=
  oneLine_ofList.mpr (newline_notMem_digits n)

/-- What is shown of a character is never a line break. -/
theorem newline_notMem_showChar (mark c : Char) : '\n' ∉ showChar mark c := by
  have hex := newline_notMem_toDigits (show 1 < 16 by omega) (Nat.le_refl 16) c.toNat
  by_cases hc : c = '\n'
  · subst hc
    show '\n' ∉ ['\\', 'n']
    decide
  · unfold showChar
    split_ifs <;> simp [hex, Ne.symm hc]

/-- A character is quoted without a line break, being escaped if it is one. -/
theorem oneLine_quoteChar (c : Char) : OneLine (quoteChar c) := by
  have hshow := newline_notMem_showChar '\'' c
  unfold quoteChar
  rw [oneLine_ofList]
  simp [hshow]

/-- **A quoted text is one line, whatever it holds.** -/
theorem oneLine_quote (s : String) : OneLine (quote s) := by
  have hshow := newline_notMem_showChar '"'
  unfold quote
  rw [oneLine_ofList]
  simp [hshow]

end DetectorBench.Text
