import DetectorBench.Diagnostic
import DetectorBench.Proofs.Text.Lines
import Mathlib.Data.List.Basic

/-!
# No two diagnostics are shown alike

The line of a diagnostic is its place, if it has one, its severity and its
message, and the message may hold anything: brackets, colons, line breaks, the
whole line of another diagnostic. Even so a line is the line of one diagnostic
only (`Diagnostic.render_injective`). Its first character tells whether there is
a place, because no severity starts with a bracket. And each part before the
message is closed by a mark that the part cannot hold, so that the first such
mark is where it ends (`Text.append_mark_inj`): numbers have neither comma nor
bracket, and no severity has a colon. The message is what is left.
-/

namespace DetectorBench

namespace Text

/-- A text that is closed by a mark which it does not hold can be told from what
comes after. -/
theorem append_mark_inj {mark : Char} {before before' after after' : List Char}
    (hbefore : mark ∉ before) (hbefore' : mark ∉ before')
    (h : before ++ mark :: after = before' ++ mark :: after') :
    before = before' ∧ after = after' := by
  -- the mark stands at one place for the first time
  have hlength : before.length = before'.length := by
    have hplace := congrArg (List.idxOf mark) h
    rw [List.idxOf_append_of_notMem hbefore, List.idxOf_append_of_notMem hbefore',
      List.idxOf_cons_self, List.idxOf_cons_self] at hplace
    exact hplace
  obtain ⟨hsame, hrest⟩ := List.append_inj h hlength
  exact ⟨hsame, (List.cons.inj hrest).2⟩

/-- Numbers are got back from their digits. -/
theorem digits_injective : Function.Injective digits := by
  intro n n' h
  have hdigits : Nat.toDigits 10 n = Nat.toDigits 10 n' := h
  calc
    n = Nat.ofDigitChars 10 (Nat.toDigits 10 n) 0 :=
      Nat.ofDigitChars_ten_toDigits.symm
    _ = Nat.ofDigitChars 10 (Nat.toDigits 10 n') 0 := by rw [hdigits]
    _ = n' := Nat.ofDigitChars_ten_toDigits

/-- So a number that is closed by anything but a digit can be told from what
comes after. -/
theorem digits_append_inj {mark : Char} (hmark : mark.isDigit = false)
    {n n' : Nat} {after after' : List Char}
    (h : digits n ++ mark :: after = digits n' ++ mark :: after') :
    n = n' ∧ after = after' := by
  obtain ⟨hdigits, hafter⟩ :=
    append_mark_inj (notMem_digits hmark n) (notMem_digits hmark n') h
  exact ⟨digits_injective hdigits, hafter⟩

end Text

/-- Severities are got back from their names. -/
theorem Severity.name_injective : Function.Injective Severity.name := by
  intro s s' h
  cases s <;> cases s' <;> simp_all [Severity.name]

/-- So the first colon ends the name of a severity. -/
theorem Severity.colon_notMem_name (s : Severity) : ':' ∉ s.name.toList := by
  cases s <;> decide

namespace Diagnostic

/-! ## The parts of a line -/

/-- What is shown of a severity and a message, whether or not there is a
place. -/
def statement (s : Severity) (message : String) : List Char :=
  s.name.toList ++ ':' :: ' ' :: message.toList

/-- A text with a place in front of it. -/
def inFront (l : Location) (text : List Char) : List Char :=
  '(' :: (Text.digits l.line ++ ',' ::
    (Text.digits l.column ++ ')' :: ':' :: ' ' :: text))

/-- What a diagnostic without a place looks like. -/
theorem toList_render_unplaced (s : Severity) (message : String) :
    (render ⟨s, message, none⟩).toList = statement s message := by
  unfold render statement
  simp

/-- What a diagnostic with a place looks like. -/
theorem toList_render_placed (s : Severity) (message : String) (l : Location) :
    (render ⟨s, message, some l⟩).toList = inFront l (statement s message) := by
  unfold render inFront statement
  simp

/-- A severity and a message are got back from what is stated. -/
theorem statement_inj {s s' : Severity} {message message' : String}
    (h : statement s message = statement s' message') :
    s = s' ∧ message = message' := by
  obtain ⟨hname, hrest⟩ :=
    Text.append_mark_inj s.colon_notMem_name s'.colon_notMem_name h
  have hmessage : message.toList = message'.toList := (List.cons.inj hrest).2
  exact ⟨Severity.name_injective (String.toList_inj.mp hname),
    String.toList_inj.mp hmessage⟩

/-- A place is got back from the front of a text, whatever follows it. -/
theorem inFront_inj {l l' : Location} {text text' : List Char}
    (h : inFront l text = inFront l' text') : l = l' ∧ text = text' := by
  obtain ⟨line, column⟩ := l
  obtain ⟨line', column'⟩ := l'
  obtain ⟨rfl, hcolumns⟩ := Text.digits_append_inj rfl (List.cons.inj h).2
  obtain ⟨rfl, hclosed⟩ := Text.digits_append_inj rfl hcolumns
  -- behind the closing bracket stand a colon and a space
  exact ⟨rfl, (List.cons.inj (List.cons.inj hclosed).2).2⟩

/-- A statement does not start like a place. -/
theorem statement_ne_inFront (s : Severity) (message : String) (l : Location)
    (text : List Char) :
    statement s message ≠ inFront l text := by
  unfold statement inFront
  cases s <;> simp [Severity.name]

/-- **No two diagnostics are shown alike.** -/
theorem render_injective : Function.Injective render := by
  intro d d' h
  have hchars : d.render.toList = d'.render.toList := congrArg String.toList h
  obtain ⟨s, message, place⟩ := d
  obtain ⟨s', message', place'⟩ := d'
  cases place with
  | none =>
    rw [toList_render_unplaced] at hchars
    cases place' with
    | none =>
      rw [toList_render_unplaced] at hchars
      obtain ⟨rfl, rfl⟩ := statement_inj hchars
      rfl
    | some l' =>
      rw [toList_render_placed] at hchars
      exact absurd hchars (statement_ne_inFront s message l' _)
  | some l =>
    rw [toList_render_placed] at hchars
    cases place' with
    | none =>
      rw [toList_render_unplaced] at hchars
      exact absurd hchars.symm (statement_ne_inFront s' message' l _)
    | some l' =>
      rw [toList_render_placed] at hchars
      obtain ⟨rfl, hstatement⟩ := inFront_inj hchars
      obtain ⟨rfl, rfl⟩ := statement_inj hstatement
      rfl

end Diagnostic

end DetectorBench
