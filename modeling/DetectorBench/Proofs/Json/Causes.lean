import DetectorBench.Json.Reader
import DetectorBench.Proofs.Text.Lines

/-!
# What faults quote

The wording of a fault may quote the document: a value that was found where
something else was expected, or a key that no field has. A value is described in
one line whatever it holds, since a text is quoted with its hidden characters
escaped (`oneLine_describe`). A key is quoted as it is. So a fault is worded in
one line unless a key spoils it (`Cause.Plain`), whichever reader it comes from.
-/

namespace DetectorBench.Json

open Text (OneLine oneLine_append oneLine_ofList oneLine_intercalate notMem_digits
  oneLine_digits oneLine_quote)

/-! ## Descriptions -/

/-- A decimal number is rendered with digits, a point, an exponent and signs. -/
theorem notMem_render {c : Char} (hdigit : c.isDigit = false)
    (hsign : c ∉ ['.', 'e', '+', '-']) (d : Decimal.Scaled) :
    c ∉ Decimal.render d := by
  have hdigits := notMem_digits hdigit d.digits
  have hzero : c ≠ '0' := by
    rintro rfl
    cases hdigit
  simp only [List.mem_cons, List.not_mem_nil, or_false, not_or] at hsign
  unfold Decimal.render
  generalize Text.digits d.digits = ds at hdigits ⊢
  have htake : ∀ n, c ∉ ds.take n := fun n h => hdigits (List.mem_of_mem_take h)
  have hdrop : ∀ n, c ∉ ds.drop n := fun n h => hdigits (List.mem_of_mem_drop h)
  dsimp only
  generalize d.exponent + (ds.length : Int) - 1 = place
  have hplace := notMem_digits hdigit place.natAbs
  split_ifs
  · simp [hdigits, hzero, hsign]
  · simp [htake, hdrop, hsign]
  · simp [hdigits, hzero, hsign]
  all_goals
    -- a mantissa of several digits is given a point
    rcases ds with _ | ⟨first, _ | ⟨next, ds⟩⟩
    · simp [hplace, hsign]
    · simpa [hplace, hsign] using hdigits
    · simpa [hplace, hsign] using hdigits

/-- A number is written with digits, a point, an exponent and signs only. -/
theorem notMem_number {c : Char} (hdigit : c.isDigit = false)
    (hsign : c ∉ ['.', 'e', '+', '-']) (n : Number) : c ∉ n.text := by
  have hzero : c ≠ '0' := by
    rintro rfl
    cases hdigit
  have hrender := notMem_render hdigit hsign
  simp only [List.mem_cons, List.not_mem_nil, or_false, not_or] at hsign
  cases n with
  | int i =>
    have hdigits := notMem_digits hdigit i.natAbs
    show c ∉ (if i < 0 then '-' :: Text.digits i.natAbs else Text.digits i.natAbs)
    split_ifs <;> simp [hdigits, hsign]
  | real x =>
    show c ∉ Decimal.text x
    unfold Decimal.text
    split_ifs <;> simp [hrender, hzero, hsign]

/-- What is said about a value that was found. -/
theorem oneLine_describe (j : Json) : OneLine (describe j) := by
  cases j with
  | null => decide
  | array items => exact (by decide : OneLine "sequence")
  | object members => exact (by decide : OneLine "map")
  | bool b => cases b <;> decide
  | number n =>
    have hnumber := oneLine_ofList.mpr (notMem_number (by decide) (by decide) n)
    cases n <;> exact oneLine_append.mpr
      ⟨oneLine_append.mpr ⟨by decide, hnumber⟩, by decide⟩
  | string s => exact oneLine_append.mpr ⟨by decide, oneLine_quote s⟩

/-- Names that are one line each are listed on one line. -/
theorem oneLine_oneOf {names : List String} (h : ∀ name ∈ names, OneLine name) :
    OneLine (oneOf names) := by
  have hlist : ∀ quoted ∈ names.map fun name => "`" ++ name ++ "`",
      OneLine quoted := by
    refine List.forall_mem_map.mpr fun name hname => ?_
    simp only [oneLine_append]
    exact ⟨⟨by decide, h name hname⟩, by decide⟩
  unfold oneOf
  dsimp only
  generalize names.map (fun name => "`" ++ name ++ "`") = quoted at hlist ⊢
  split
  next => decide
  next a => exact oneLine_append.mpr ⟨by decide, hlist a (by simp)⟩
  next a b =>
    simp only [oneLine_append]
    exact ⟨⟨⟨by decide, hlist a (by simp)⟩, by decide⟩, hlist b (by simp)⟩
  next => exact oneLine_append.mpr ⟨by decide, oneLine_intercalate (by decide) hlist⟩

/-! ## Causes -/

/-- A cause that quotes nothing of a document and nothing of a codec. -/
def Cause.isFixed : Cause → Bool
  | .invalidType .. | .invalidValue .. | .invalidLength ..
  | .unknownVariant .. | .unknownField ..
  | .missingField _ | .duplicateField _ => false
  | _ => true

/-- A cause is worded in one line, if the key that it may quote is one. -/
def Cause.Plain (cause : Cause) : Prop :=
  (∀ name known, cause = .unknownField name known → OneLine name) →
    OneLine cause.message

namespace Cause

/-- Causes that quote nothing are plain. -/
theorem plain_of_isFixed {cause : Cause} (h : cause.isFixed = true) :
    cause.Plain := by
  intro _
  cases cause with
  | invalidType | invalidValue | invalidLength | unknownVariant | unknownField
  | missingField
  | duplicateField => cases h
  | _ => decide

/-- What was found is described on one line, so it depends on what was
expected. -/
theorem plain_invalidType (found : Json) {expected : String}
    (h : OneLine expected) :
    (invalidType found expected).Plain := by
  intro _
  show OneLine ("invalid type: " ++ describe found ++ ", expected " ++ expected)
  simp only [oneLine_append]
  exact ⟨⟨⟨by decide, oneLine_describe found⟩, by decide⟩, h⟩

/-- A length is a number, so it depends on what was expected. -/
theorem plain_invalidLength (length : Nat) {expected : String}
    (h : OneLine expected) :
    (invalidLength length expected).Plain := by
  intro _
  show OneLine ("invalid length " ++ String.ofList (Text.digits length) ++
    ", expected " ++ expected)
  simp only [oneLine_append]
  exact ⟨⟨⟨by decide, oneLine_digits length⟩, by decide⟩, h⟩

/-- A missing field is quoted from the record. -/
theorem plain_missingField {key : String} (h : OneLine key) :
    (missingField key).Plain := by
  intro _
  show OneLine ("missing field `" ++ key ++ "`")
  simp only [oneLine_append]
  exact ⟨⟨by decide, h⟩, by decide⟩

/-- A field that is there twice is quoted from the record. -/
theorem plain_duplicateField {key : String} (h : OneLine key) :
    (duplicateField key).Plain := by
  intro _
  show OneLine ("duplicate field `" ++ key ++ "`")
  simp only [oneLine_append]
  exact ⟨⟨by decide, h⟩, by decide⟩

/-- A key that is unknown is quoted from the document, which is what `Plain`
allows for. -/
theorem plain_unknownField (name : String) {known : List String}
    (h : ∀ key ∈ known, OneLine key) :
    (unknownField name known).Plain := by
  intro hname
  show OneLine ("unknown field `" ++ name ++ "`, " ++ oneOf known)
  simp only [oneLine_append]
  exact ⟨⟨⟨by decide, hname name known rfl⟩, by decide⟩, oneLine_oneOf h⟩

end Cause

/-! ## Readers -/

/-- If there is a fault, its cause is plain. -/
def Plainly {α : Type} (x : Except Fault α) : Prop :=
  ∀ fault, x = .error fault → fault.cause.Plain

theorem plainly_ok {α : Type} (x : α) : Plainly (.ok x) :=
  nofun

/-- A cause that is plain is reported plainly wherever it is found. -/
theorem plainly_error {α : Type} {cause : Cause} (h : cause.Plain)
    (left : Option Nat) :
    Plainly (α := α) (.error ⟨cause, left⟩) := by
  intro fault heq
  cases heq
  exact h

/-- So is any cause that quotes nothing. -/
theorem plainly_fixed {α : Type} {cause : Cause} {left : Option Nat}
    (h : cause.isFixed = true) :
    Plainly (α := α) (.error ⟨cause, left⟩) :=
  plainly_error (Cause.plain_of_isFixed h) left

/-- One reader after another. -/
theorem Plainly.bind {α β : Type} {x : Except Fault α} {f : α → Except Fault β}
    (hx : Plainly x) (hf : ∀ a, Plainly (f a)) : Plainly (x >>= f) := by
  cases x with
  | error fault =>
    intro fault' heq
    cases heq
    exact hx fault rfl
  | ok a => exact hf a

/-- Words are refused for fixed causes. -/
theorem readWord_plainly (cs : List Char) (input : Input) :
    Plainly (readWord cs input) := by
  fun_induction readWord cs input with
  | case1 => exact plainly_ok _
  | case2 => exact plainly_fixed rfl
  | case3 _ _ _ ih => exact ih
  | case4 => exact plainly_fixed rfl

/-- A byte that is part of no character is not quoted. -/
theorem closeString_plainly (resolved rest : Input) :
    Plainly (closeString resolved rest) := by
  fun_cases closeString resolved rest with
  | case1 => exact plainly_ok _
  | case2 => exact plainly_fixed rfl

/-- Nor is anything else of a string that is refused. -/
theorem readString_plainly (input : Input) : Plainly (readString input) := by
  unfold readString
  -- a string ends, goes on, or breaks off for a reason that quotes nothing
  fun_induction readStringFrom .plain [] input <;>
    first | exact closeString_plainly _ _ | exact plainly_fixed rfl | assumption

/-- A number out of range is not quoted. -/
theorem realNumber_plainly (negative : Bool) (significand : Nat)
    (exponent : Int) (rest : Input) :
    Plainly (realNumber negative significand exponent rest) := by
  fun_cases realNumber negative significand exponent rest with
  | case1 => exact plainly_ok _
  | case2 => exact plainly_fixed rfl

/-- Exponents are refused for fixed causes. -/
theorem readExponent_plainly (negative : Bool) (significand : Nat) (shift : Int)
    (input : Input) :
    Plainly (readExponent negative significand shift input) := by
  fun_cases readExponent negative significand shift input <;>
    first
    | exact plainly_ok _
    | exact plainly_fixed rfl
    | exact realNumber_plainly _ _ _ _

/-- Fractions are refused for fixed causes. -/
theorem readFraction_plainly (negative : Bool) (significand : Nat) (shift : Int)
    (input : Input) :
    Plainly (readFraction negative significand shift input) := by
  fun_cases readFraction negative significand shift input with
  | case1 =>
    refine plainly_fixed ?_
    split <;> rfl
  | case2 | case3 => exact readExponent_plainly _ _ _ _
  | case4 => exact realNumber_plainly _ _ _ _

/-- Numbers are refused for fixed causes. -/
theorem readNumber_plainly (negative : Bool) (input : Input) :
    Plainly (readNumber negative input) := by
  fun_cases readNumber negative input <;>
    first
    | exact plainly_ok _
    | exact plainly_fixed rfl
    | exact readFraction_plainly _ _ _ _
    | exact readExponent_plainly _ _ _ _
    | exact realNumber_plainly _ _ _ _

/-- A value that cannot be read to be named is refused plainly. -/
theorem readFound_plainly (input : Input) : Plainly (readFound input) := by
  fun_cases readFound input <;>
    first
    | exact plainly_ok _
    | exact plainly_fixed rfl
    | exact (readWord_plainly _ _).bind fun _ => plainly_ok _
    | exact (readString_plainly _).bind fun _ => plainly_ok _
    | exact (readNumber_plainly _ _).bind fun _ => plainly_ok _

/-- **A value of another kind is refused plainly**, though it is quoted. -/
theorem refuseFound_plainly {α : Type} (input : Input) {expected : String}
    (h : OneLine expected) :
    Plainly (α := α) (refuseFound input expected) := by
  unfold refuseFound
  refine (readFound_plainly input).bind fun found => ?_
  exact plainly_error (Cause.plain_invalidType found.1 h) _

/-- Leaving a bracket does not change the cause. -/
theorem refuseIn_plainly {α : Type} (close : Char) (input : Input)
    {cause : Cause} (h : cause.Plain) :
    Plainly (α := α) (refuseIn close input cause) :=
  plainly_error h _

/-- The end of a list is refused for fixed causes. -/
theorem endList_plainly (input : Input) : Plainly (endList input) := by
  fun_cases endList input <;> first | exact plainly_ok _ | exact plainly_fixed rfl

/-- Separators are refused for fixed causes. -/
theorem nextItem_plainly (first : Bool) (input : Input) :
    Plainly (nextItem first input) := by
  fun_cases nextItem first input <;>
    first | exact plainly_ok _ | exact plainly_fixed rfl

/-- Keys are refused plainly: one that is unknown is not refused here. -/
theorem nextKey_plainly (first : Bool) (input : Input) :
    Plainly (nextKey first input) := by
  fun_cases nextKey first input <;>
    first
    | exact plainly_ok _
    | exact plainly_fixed rfl
    | exact (readString_plainly _).bind fun _ => plainly_ok _

/-- Colons are refused for fixed causes. -/
theorem readColon_plainly (input : Input) : Plainly (readColon input) := by
  fun_cases readColon input <;> first | exact plainly_ok _ | exact plainly_fixed rfl

/-- Items are refused plainly if each item is. -/
theorem readItems_plainly {α : Type} {item : Reader α}
    (h : ∀ input, Plainly (item input)) (input : Input) :
    Plainly (readItems item input) := by
  unfold readItems
  generalize input.length + 1 = fuel
  generalize true = first
  induction fuel generalizing first input with
  | zero => exact plainly_fixed rfl
  | succ fuel ih =>
    unfold readItemsFrom
    refine (nextItem_plainly first input).bind fun (more, rest) => ?_
    cases more with
    | false => exact plainly_ok _
    | true =>
      refine (h rest).bind fun (x, rest) => ?_
      exact (ih rest false).bind fun (xs, rest) => plainly_ok _

/-! ## Values that are passed over -/

/-- Strings that are passed over are refused for fixed causes. -/
theorem skipString_plainly (input : Input) : Plainly (skipString input) := by
  unfold skipString
  fun_induction skipStringFrom .plain input <;>
    first | exact plainly_ok _ | exact plainly_fixed rfl | assumption

theorem skipExponent_plainly (input : Input) :
    Plainly (skipExponent input) := by
  fun_cases skipExponent input <;>
    first | exact plainly_ok _ | exact plainly_fixed rfl

theorem skipExponent?_plainly (input : Input) :
    Plainly (skipExponent? input) := by
  fun_cases skipExponent? input <;>
    first | exact plainly_ok _ | exact skipExponent_plainly _

/-- Numbers that are passed over are refused for fixed causes. -/
theorem skipNumber_plainly (input : Input) : Plainly (skipNumber input) := by
  fun_cases skipNumber input <;>
    first | exact plainly_fixed rfl | exact skipExponent?_plainly _

/-- Keys that are passed over are refused for fixed causes. -/
theorem skipKey_plainly (input : Input) : Plainly (skipKey input) := by
  unfold skipKey
  split
  next =>
    refine (skipString_plainly _).bind fun rest => ?_
    split <;> first | exact plainly_ok _ | exact plainly_fixed rfl
  next => exact plainly_fixed rfl
  next => exact plainly_fixed rfl

/-- The three ways to pass over something, with as much fuel as there is. -/
theorem skipFrom_plainly (fuel : Nat) :
    (∀ input, Plainly (skipValueFrom fuel input)) ∧
      (∀ first input, Plainly (skipItemsFrom fuel first input)) ∧
        ∀ first input, Plainly (skipMembersFrom fuel first input) := by
  induction fuel with
  | zero =>
    exact ⟨fun _ => plainly_fixed rfl, fun _ _ => plainly_fixed rfl,
      fun _ _ => plainly_fixed rfl⟩
  | succ fuel ih =>
    obtain ⟨hvalue, hitems, hmembers⟩ := ih
    have hitem :
        ∀ input, Plainly (skipValueFrom fuel input >>= skipItemsFrom fuel false) :=
      fun input => (hvalue input).bind (hitems false)
    have hmember : ∀ input, Plainly (do
        let rest ← skipKey input
        let rest ← skipValueFrom fuel rest
        skipMembersFrom fuel false rest) :=
      fun input => (skipKey_plainly input).bind fun rest =>
        (hvalue rest).bind (hmembers false)
    refine ⟨fun input => ?_, fun first input => ?_, fun first input => ?_⟩
    · unfold skipValueFrom
      split
      next => exact plainly_fixed rfl
      next => exact readWord_plainly _ _
      next => exact readWord_plainly _ _
      next => exact readWord_plainly _ _
      next => exact skipString_plainly _
      next => exact skipNumber_plainly _
      next => exact hitems true _
      next => exact hmembers true _
      next =>
        split
        · exact skipNumber_plainly _
        · exact plainly_fixed rfl
    · unfold skipItemsFrom
      split
      next => exact plainly_fixed rfl
      next => exact plainly_ok _
      next =>
        split_ifs
        · exact hitem _
        · exact hitem _
        · exact plainly_fixed rfl
    · unfold skipMembersFrom
      split
      next => exact plainly_fixed rfl
      next => exact plainly_ok _
      next =>
        split_ifs
        · exact hmember _
        · exact hmember _
        · exact plainly_fixed rfl

/-- **Values that are passed over are refused plainly.** -/
theorem skipValue_plainly (input : Input) : Plainly (skipValue input) :=
  (skipFrom_plainly _).1 input

/-- Reading a whole document adds a fault for what follows it. -/
theorem readDocument_plainly {α : Type} {reader : Reader α}
    (h : ∀ input, Plainly (reader input)) (document : Input) :
    Plainly (readDocument reader document) := by
  unfold readDocument
  refine (h document).bind fun (x, rest) => ?_
  dsimp only
  split
  · exact plainly_ok _
  · exact plainly_fixed rfl

end DetectorBench.Json
