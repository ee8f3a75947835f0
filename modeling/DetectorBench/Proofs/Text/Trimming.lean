import DetectorBench.Proofs.Metadata.Validation
import Mathlib.Data.List.DropRight

/-!
# Trimming

Trimming drops the blanks at the two ends of a text and nothing else: what is
left is part of the text (`mem_of_mem_trim`), is empty only where there was
nothing but blanks (`trim_ne_empty_iff`), and neither begins nor ends with a
blank (`trimmed_trimChars`). Such texts are those that trimming leaves as they
are (`trimChars_eq_self_iff`), and what it leaves of them when blanks stand
around them (`trimChars_blanks_around`).
-/

namespace DetectorBench.Text

/-- Trimming drops blanks from both ends. -/
theorem trimChars_eq_rdropWhile (cs : List Char) :
    trimChars cs = (cs.dropWhile isBlankChar).rdropWhile isBlankChar :=
  rfl

/-- Trimming adds no character. -/
theorem mem_of_mem_trim {s : String} {c : Char} (h : c ∈ (trim s).toList) :
    c ∈ s.toList := by
  unfold trim at h
  rw [String.toList_ofList, trimChars_eq_rdropWhile] at h
  have hdropped := (List.rdropWhile_prefix isBlankChar _).mem h
  exact (List.dropWhile_suffix isBlankChar).mem hdropped

/-- A text that neither begins nor ends with a blank. -/
def Trimmed (cs : List Char) : Prop :=
  ∀ h : cs ≠ [], isBlankChar (cs.head h) = false ∧ isBlankChar (cs.getLast h) = false

/-- What was trimmed is trimmed. -/
theorem trimmed_trimChars (cs : List Char) : Trimmed (trimChars cs) := by
  intro h
  rw [trimChars_eq_rdropWhile] at h
  have hprefix := List.rdropWhile_prefix isBlankChar (cs.dropWhile isBlankChar)
  have hdropped : cs.dropWhile isBlankChar ≠ [] := by
    intro hnil
    rw [hnil] at h
    exact h rfl
  constructor
  · -- dropping from the end leaves the head where it is
    have hhead : ((cs.dropWhile isBlankChar).rdropWhile isBlankChar).head h =
        (cs.dropWhile isBlankChar).head hdropped := hprefix.head h
    exact (congrArg isBlankChar hhead).trans
      (List.head_dropWhile_not isBlankChar hdropped)
  · exact Bool.eq_false_iff.mpr (List.rdropWhile_last_not isBlankChar _ h)

/-- **Only a trimmed text is what trimming it gives.** -/
theorem trimChars_eq_self_iff {cs : List Char} :
    trimChars cs = cs ↔ Trimmed cs := by
  constructor
  · intro h
    exact h ▸ trimmed_trimChars cs
  · intro h
    have hfront : cs.dropWhile isBlankChar = cs := by
      refine List.dropWhile_eq_self_iff.mpr fun hpos => ?_
      have hhead := (h (List.ne_nil_of_length_pos hpos)).1
      rw [List.head_eq_getElem] at hhead
      exact Bool.eq_false_iff.mp hhead
    rw [trimChars_eq_rdropWhile, hfront]
    exact List.rdropWhile_eq_self_iff.mpr fun hne => Bool.eq_false_iff.mp (h hne).2

/-- `trimmed_trimChars` for texts. -/
theorem trimmed_trim (s : String) : Trimmed (trim s).toList := by
  unfold trim
  rw [String.toList_ofList]
  exact trimmed_trimChars s.toList

/-- `trimChars_eq_self_iff` for texts. -/
theorem trim_eq_self_iff {s : String} : trim s = s ↔ Trimmed s.toList := by
  unfold trim
  rw [← String.toList_inj, String.toList_ofList]
  exact trimChars_eq_self_iff

/-- Nothing is left exactly of blanks. -/
theorem trimChars_eq_nil_iff {cs : List Char} :
    trimChars cs = [] ↔ ∀ c ∈ cs, isBlankChar c = true := by
  rw [trimChars_eq_rdropWhile, List.rdropWhile_eq_nil_iff]
  constructor
  · intro h
    refine List.dropWhile_eq_nil_iff.mp ?_
    by_contra hne
    have hhead := h _ (List.head_mem hne)
    rw [List.head_dropWhile_not isBlankChar hne] at hhead
    cases hhead
  · intro h c hc
    exact h c ((List.dropWhile_suffix isBlankChar).mem hc)

/-- What trimming takes away are blanks before and after. -/
theorem exists_blanks_around (cs : List Char) :
    ∃ before after, (∀ c ∈ before, isBlankChar c = true) ∧
      (∀ c ∈ after, isBlankChar c = true) ∧
      cs = before ++ trimChars cs ++ after := by
  have hback : cs.dropWhile isBlankChar =
      trimChars cs ++ (cs.dropWhile isBlankChar).rtakeWhile isBlankChar := by
    rw [trimChars_eq_rdropWhile, List.rdropWhile, List.rtakeWhile,
      ← List.reverse_append, List.takeWhile_append_dropWhile, List.reverse_reverse]
  refine ⟨cs.takeWhile isBlankChar, (cs.dropWhile isBlankChar).rtakeWhile
    isBlankChar, ?_, ?_, ?_⟩
  · intro c hc
    exact List.mem_takeWhile_imp hc
  · intro c hc
    exact List.mem_rtakeWhile_imp hc
  · rw [List.append_assoc, ← hback, List.takeWhile_append_dropWhile]

/-- And it takes away all blanks that stand around a trimmed text. -/
theorem trimChars_blanks_around {before cs after : List Char}
    (trimmed : Trimmed cs) (hbefore : ∀ c ∈ before, isBlankChar c = true)
    (hafter : ∀ c ∈ after, isBlankChar c = true) :
    trimChars (before ++ cs ++ after) = cs := by
  cases cs with
  | nil =>
    rw [List.append_nil, trimChars_eq_nil_iff]
    intro c hc
    exact (List.mem_append.mp hc).elim (hbefore c) (hafter c)
  | cons c rest =>
    have hself := trimChars_eq_self_iff.mpr trimmed
    have hhead : ¬isBlankChar c = true :=
      Bool.eq_false_iff.mp (trimmed (List.cons_ne_nil c rest)).1
    have hfront : (before ++ c :: rest ++ after).dropWhile isBlankChar =
        c :: rest ++ after := by
      rw [List.append_assoc, List.dropWhile_append_of_pos hbefore, List.cons_append,
        List.dropWhile_cons_of_neg hhead]
    have hback : ∀ c ∈ after.reverse, isBlankChar c = true := by
      intro c hc
      exact hafter c (List.mem_reverse.mp hc)
    unfold trimChars at hself ⊢
    rw [hfront, List.reverse_append, List.dropWhile_append_of_pos hback]
    rw [List.dropWhile_cons_of_neg hhead] at hself
    exact hself

/-- Something is left of a text that has content, and of no other. -/
theorem trim_ne_empty_iff {s : String} : trim s ≠ "" ↔ HasContent s := by
  unfold trim HasContent
  rw [Ne, ← String.toList_inj, String.toList_ofList, String.toList_empty,
    trimChars_eq_nil_iff]
  push Not
  simp only [ne_eq, Bool.not_eq_true]

end DetectorBench.Text
