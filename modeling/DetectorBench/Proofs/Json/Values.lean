import DetectorBench.Proofs.Json.Skipping
import DetectorBench.Proofs.Json.Written

/-!
# Values are read back

`readWritten_finds` says that a value without fractional numbers is read from
every text of it, if there are enough brackets to spare for how deep it is
nested (`height`). The induction is on the brackets to spare, one level of
nesting at each step.

What is computed with is brought into canonical form after reading. Values that
are in this form already are the `Sorted` ones, in whose objects the keys ascend
(`sorted_iff_canonical`), and reading such a value changes nothing in it
(`readValue_finds`).
-/

namespace DetectorBench.Json

/-! ## Integers -/

/-- The digits that are written for a number stand for it. -/
theorem ofDigits_digits (n : Nat) :
    ofDigits ((symbols (Text.digits n)).filterMap Symbol.digit?) = n := by
  have hdigit :
      ∀ d, d < 10 → (Symbol.char (Nat.digitChar d)).digit? = some d := by decide
  unfold Text.digits
  induction n using Nat.strongRecOn with
  | _ n ih =>
    rcases Nat.lt_or_ge n 10 with hlt | hge
    · rw [Nat.toDigits_of_lt_base hlt, symbols_cons, List.filterMap_cons,
        hdigit n hlt]
      exact Nat.zero_add n
    · have hfront := ih (n / 10) (by omega)
      rw [Nat.toDigits_of_base_le (by omega) hge, symbols_append,
        List.filterMap_append, symbols_cons, List.filterMap_cons,
        hdigit (n % 10) (by omega)]
      unfold ofDigits at hfront ⊢
      rw [List.foldl_append, hfront]
      show n / 10 * 10 + n % 10 = n
      omega

/-- Digits only make a significand larger. -/
theorem le_foldl_digits (ds : List Nat) :
    ∀ significand, significand ≤ ds.foldl (fun n d => n * 10 + d) significand := by
  induction ds with
  | nil => exact Nat.le_refl
  | cons d ds ih =>
    intro significand
    rw [List.foldl_cons]
    have hrest := ih (significand * 10 + d)
    omega

/-- Digits are all taken in as long as their number has no more than 64 bits. -/
theorem absorb_of_le (ds : List Nat) :
    ∀ significand, ds.foldl (fun n d => n * 10 + d) significand ≤ maxUnsigned →
      absorb significand ds = (ds.foldl (fun n d => n * 10 + d) significand,
        ds.length, 0) := by
  induction ds with
  | nil => intro significand _; rfl
  | cons d ds ih =>
    intro significand h
    rw [List.foldl_cons] at h ⊢
    have hfirst := Nat.le_trans (le_foldl_digits ds (significand * 10 + d)) h
    rw [absorb, if_pos hfirst, ih _ h]
    rfl

/-- The digits of a number of 64 bits are read as an integer. -/
theorem readNumber_digits (negative : Bool) {n : Nat} (hn : n ≤ maxUnsigned)
    {rest : Input} (hr : Terminated rest) :
    readNumber negative (symbols (Text.digits n) ++ rest) =
      .ok (integerNumber negative n, rest) := by
  have hnodigit : ∀ s ∈ rest.head?, s.digit? = none := fun s hs => (hr s hs).1
  obtain ⟨d, ds, hwhole, hzero⟩ := readDigits_whole (wholePart_digits n) hnodigit
  have hall := readDigits_append (digits_symbols n).2 hnodigit
  rw [hwhole, Prod.mk.injEq] at hall
  have hvalue : (d :: ds).foldl (fun n d => n * 10 + d) 0 = n := by
    rw [hall.1]
    exact ofDigits_digits n
  have habsorb := absorb_of_le (d :: ds) 0 (by rw [hvalue]; exact hn)
  rw [hvalue] at habsorb
  unfold readNumber
  rw [hwhole]
  split
  next heq => cases heq
  next heq => cases heq
  next heq =>
    cases heq
    cases hzero rfl
  next heq =>
    cases heq
    simp only [habsorb]
    -- nothing that would go on with the number follows
    split
    next => exact absurd rfl (hr _ rfl).2.1
    next => exact absurd rfl (hr _ rfl).2.2.1
    next => exact absurd rfl (hr _ rfl).2.2.2
    next => rfl

/-- An integer is read with its sign. -/
theorem readFound_int {i : Int} (hi : InRange i) {rest : Input}
    (hr : Terminated rest) :
    readFound (symbols (Number.int i).text ++ rest) =
      .ok (.number (.int i), rest) := by
  obtain ⟨hlow, hhigh⟩ := hi
  have hmax : maxNegative ≤ maxUnsigned := by decide
  rw [Number.text]
  by_cases hneg : i < 0
  · have hread := readNumber_digits true (n := i.natAbs) (by omega) hr
    have hint : integerNumber true i.natAbs = .int i := by
      rw [integerNumber, if_neg (by decide), if_neg (by omega)]
      exact congrArg Number.int (by omega)
    rw [if_pos hneg, symbols_cons, List.cons_append]
    unfold readFound
    simp only [hread, hint]
    rfl
  · have hread := readNumber_digits false (n := i.natAbs) (by omega) hr
    have hint : integerNumber false i.natAbs = .int i := by
      rw [integerNumber, if_pos (by decide)]
      exact congrArg Number.int (by omega)
    rw [if_neg hneg]
    obtain ⟨s, u, hs, hdigit⟩ := (wholePart_digits i.natAbs).starts
    rw [hs, List.cons_append] at hread ⊢
    unfold readFound
    -- none of the letters, signs and brackets is a digit
    split
    next heq => cases heq; exact absurd hdigit (by decide)
    next heq => cases heq; exact absurd hdigit (by decide)
    next heq => cases heq; exact absurd hdigit (by decide)
    next heq => cases heq; exact absurd hdigit (by decide)
    next heq => cases heq; exact absurd hdigit (by decide)
    next heq => cases heq; exact absurd hdigit (by decide)
    next heq => cases heq; exact absurd hdigit (by decide)
    next heq => cases heq
    next heq =>
      cases heq
      rw [if_pos hdigit, hread, hint]
      rfl

/-! ## Nesting -/

mutual

/-- How deep brackets are nested in a value. -/
def height : Json → Nat
  | .array items => heightItems items + 1
  | .object members => heightMembers members + 1
  | _ => 0

/-- How deep brackets are nested in several values at most. -/
def heightItems : List Json → Nat
  | [] => 0
  | x :: xs => max (height x) (heightItems xs)

/-- How deep brackets are nested in the values of several members at most. -/
def heightMembers : List (String × Json) → Nat
  | [] => 0
  | (_, v) :: rest => max (height v) (heightMembers rest)

end

/-- A reader takes every text of a value whole and finds something in it. -/
def Finds {α : Type} (reader : Reader α) (j : Json) (x : α) : Prop :=
  ∀ ⦃t rest input : Input⦄, Spells j t → Terminated rest →
    skipBlanks input = t ++ rest →
    reader input = .ok (x, rest)

/-- Items that are read back one by one are read back together. -/
theorem readItemsFrom_spells {reader : Reader Json} {items : List Json}
    (h : ∀ j ∈ items, Finds reader j j) :
    ∀ {first : Bool} {t : Input}, SpellsItems first items t →
      ∀ (fuel : Nat) (rest : Input),
      items.length < fuel →
      readItemsFrom reader fuel first (t ++ rest) =
        .ok (items, .char ']' :: rest) := by
  induction items with
  | nil =>
    intro first t ht fuel rest hfuel
    obtain ⟨fuel, rfl⟩ : ∃ k, fuel = k + 1 := ⟨fuel - 1, by omega⟩
    cases ht with
    | close blank =>
      rw [List.append_assoc, readItemsFrom, List.singleton_append,
        nextItem_close first blank]
      rfl
  | cons j items ih =>
    intro first t ht fuel rest hfuel
    obtain ⟨fuel, rfl⟩ : ∃ k, fuel = k + 1 := ⟨fuel - 1, by omega⟩
    obtain ⟨hj, hitems⟩ := List.forall_mem_cons.mp h
    cases ht with
    | @item _ lead v u _ _ before value more =>
      have hfirst : reader (v ++ (u ++ rest)) = .ok (j, u ++ rest) :=
        hj value more.terminated (value.skipBlanks_append _)
      have hmore := ih hitems more fuel rest (Nat.lt_of_succ_lt_succ hfuel)
      obtain ⟨s, v, rfl, opens⟩ := value.opens
      rw [List.append_assoc, List.append_assoc, readItemsFrom, List.cons_append,
        nextItem_lead before opens.startsValue]
      simp only [List.cons_append] at hfirst
      simp only [bind, Except.bind, if_true, hfirst, hmore]
      rfl

/-- Members whose values are read back one by one are read back together. -/
theorem readMembersFrom_spells {reader : Reader Json}
    {members : List (String × Json)}
    (h : ∀ member ∈ members, Finds reader member.2 member.2) :
    ∀ {first : Bool} {t : Input}, SpellsMembers first members t →
      ∀ (fuel : Nat) (rest : Input),
      members.length < fuel →
      readMembersFrom reader fuel first (t ++ rest) = .ok (members, rest) := by
  induction members with
  | nil =>
    intro first t ht fuel rest hfuel
    obtain ⟨fuel, rfl⟩ : ∃ k, fuel = k + 1 := ⟨fuel - 1, by omega⟩
    cases ht with
    | close blank =>
      rw [List.append_assoc, readMembersFrom, List.singleton_append,
        nextKey_close first blank]
      rfl
  | cons member members ih =>
    intro first t ht fuel rest hfuel
    obtain ⟨fuel, rfl⟩ : ∃ k, fuel = k + 1 := ⟨fuel - 1, by omega⟩
    obtain ⟨hmember, hmembers⟩ := List.forall_mem_cons.mp h
    cases ht with
    | @member _ lead k b b' v u key j _ before name colon gap value more =>
      have hfirst : reader (b' ++ (v ++ (u ++ rest))) = .ok (j, u ++ rest) :=
        hmember value more.terminated
          (by rw [gap.skipBlanks_append, value.skipBlanks_append])
      have hmore := ih hmembers more fuel rest (Nat.lt_of_succ_lt_succ hfuel)
      simp only [List.append_assoc, List.cons_append]
      rw [readMembersFrom, nextKey_lead before name]
      simp only [bind, Except.bind, readColon_blank colon, hfirst, hmore]
      rfl

/-- Items are exact if the array is. -/
theorem exact_of_mem {items : List Json} (h : ExactItems items) :
    ∀ j ∈ items, Exact j := by
  induction items with
  | nil => exact nofun
  | cons x xs ih => exact List.forall_mem_cons.mpr ⟨h.1, ih h.2⟩

/-- Values of members are exact if the object is. -/
theorem exact_of_mem_members {members : List (String × Json)}
    (h : ExactMembers members) :
    ∀ member ∈ members, Exact member.2 := by
  induction members with
  | nil => exact nofun
  | cons member members ih => exact List.forall_mem_cons.mpr ⟨h.1, ih h.2⟩

/-- Items are not nested deeper than the array allows. -/
theorem height_le_of_mem {items : List Json} {depth : Nat}
    (h : heightItems items ≤ depth) :
    ∀ j ∈ items, j.height ≤ depth := by
  induction items with
  | nil => exact nofun
  | cons x xs ih =>
    obtain ⟨hx, hxs⟩ := Nat.max_le.mp h
    exact List.forall_mem_cons.mpr ⟨hx, ih hxs⟩

/-- Nor are values of members. -/
theorem height_le_of_mem_members {members : List (String × Json)} {depth : Nat}
    (h : heightMembers members ≤ depth) :
    ∀ member ∈ members, member.2.height ≤ depth := by
  induction members with
  | nil => exact nofun
  | cons member members ih =>
    obtain ⟨hvalue, hrest⟩ := Nat.max_le.mp h
    exact List.forall_mem_cons.mpr ⟨hvalue, ih hrest⟩

/-- A value without brackets is found as it is. -/
theorem readFound_spells {j : Json} (exact : Exact j) (flat : j.height = 0)
    {t rest : Input} (h : Spells j t) (hr : Terminated rest) :
    readFound (t ++ rest) = .ok (j, rest) := by
  cases h with
  | null =>
    show (do return (Json.null, ← readWord ['u', 'l', 'l']
      (symbols ['u', 'l', 'l'] ++ rest))) = _
    rw [readWord_symbols]
    rfl
  | true =>
    show (do return (Json.bool true, ← readWord ['r', 'u', 'e']
      (symbols ['r', 'u', 'e'] ++ rest))) = _
    rw [readWord_symbols]
    rfl
  | false =>
    show (do
      return (Json.bool false, ← readWord ['a', 'l', 's', 'e']
        (symbols ['a', 'l', 's', 'e'] ++ rest)))
      = _
    rw [readWord_symbols]
    rfl
  | number _ integer =>
    obtain ⟨i, rfl, hi⟩ := exact
    rw [(integer i rfl).2]
    exact readFound_int hi hr
  | string chars =>
    cases chars with
    | @quoted cs u chars =>
      unfold readFound
      simp only [List.cons_append, readString_spells chars]
      rfl
  | array => cases flat
  | object => cases flat

/-- What opens no bracket is read as it is found. -/
theorem readWritten_of_ne {depth : Nat} {input u : Input} {s : Symbol}
    (hi : skipBlanks input = s :: u) (hs : s ≠ .char '[') (hs' : s ≠ .char '\x7b') :
    readWritten depth input = readFound (s :: u) := by
  unfold readWritten
  rw [hi]
  split
  next heq => cases heq
  next heq => cases heq; exact absurd rfl hs
  next heq => cases heq; exact absurd rfl hs'
  next heq => cases heq; rfl

/-- A value without brackets is read as itself. -/
theorem readWritten_flat {depth : Nat} {j : Json} (exact : Exact j)
    (flat : j.height = 0) :
    Finds (readWritten depth) j j := by
  intro t rest input value hr hi
  have hfound := readFound_spells exact flat value hr
  obtain ⟨s, u, rfl, opens⟩ := value.opens
  cases opens with
  | array => cases flat
  | object => cases flat
  | digit digit =>
    rw [readWritten_of_ne hi (by rintro rfl; cases digit)
      (by rintro rfl; cases digit)]
    exact hfound
  | _ =>
    rw [readWritten_of_ne hi (by decide) (by decide)]
    exact hfound

/-- **A value is read back as it was written**, its members in their order. -/
theorem readWritten_finds {depth : Nat} :
    ∀ {j : Json}, Exact j → j.height ≤ depth → Finds (readWritten depth) j j := by
  induction depth with
  | zero =>
    intro j exact hj
    exact readWritten_flat exact (Nat.le_zero.mp hj)
  | succ depth ih =>
    intro j exact hj
    cases j with
    | array items =>
      have hitems : ∀ j ∈ items, Finds (readWritten depth) j j := fun j hmem =>
        ih (exact_of_mem exact j hmem)
          (height_le_of_mem (Nat.le_of_succ_le_succ hj) j hmem)
      intro t rest input value hr hi
      cases value with
      | @array _ u inside =>
        have hlength := inside.length_lt
        have hread :=
          readItemsFrom_spells hitems inside ((u ++ rest).length + 1) rest
          (by rw [List.length_append]; omega)
        unfold readWritten
        rw [hi, List.cons_append]
        dsimp only
        unfold readItems
        simp only [hread, bind, Except.bind]
        rw [← List.nil_append (Symbol.char ']' :: rest), endList_close blank_nil]
        rfl
    | object members =>
      have hmembers :
          ∀ member ∈ members, Finds (readWritten depth) member.2 member.2 :=
        fun member hmem => ih (exact_of_mem_members exact member hmem)
          (height_le_of_mem_members (Nat.le_of_succ_le_succ hj) member hmem)
      intro t rest input value hr hi
      cases value with
      | @object _ u inside =>
        have hlength := inside.length_lt
        have hread :=
          readMembersFrom_spells hmembers inside ((u ++ rest).length + 1) rest
          (by rw [List.length_append]; omega)
        unfold readWritten
        rw [hi, List.cons_append]
        dsimp only
        unfold readMembers
        simp only [hread]
        rfl
    | null | bool | number | string => exact readWritten_flat exact rfl

/-! ## Canonical form -/

mutual

/-- The keys of every object ascend, so that none of them occurs twice. -/
def Sorted : Json → Prop
  | .array items => SortedItems items
  | .object members =>
    members.Pairwise (fun a b => a.1 < b.1) ∧ SortedMembers members
  | _ => True

def SortedItems : List Json → Prop
  | [] => True
  | x :: xs => Sorted x ∧ SortedItems xs

def SortedMembers : List (String × Json) → Prop
  | [] => True
  | (_, v) :: rest => Sorted v ∧ SortedMembers rest

end

/-- A member whose key comes after all others is added at the end. -/
theorem insertMember_of_lt {key : String} (value : Json)
    {members : List (String × Json)} (h : ∀ member ∈ members, member.1 < key) :
    insertMember key value members = members ++ [(key, value)] := by
  induction members with
  | nil => rfl
  | cons member members ih =>
    obtain ⟨hmember, hmembers⟩ := List.forall_mem_cons.mp h
    have hne : key ≠ member.1 := fun heq => String.lt_irrefl key (heq ▸ hmember)
    rw [insertMember, if_neg (String.lt_asymm hmember), if_neg hne, ih hmembers]
    rfl

/-- Members that are sorted stay where they are. -/
theorem sortMembers_of_sorted {members : List (String × Json)}
    (h : members.Pairwise fun a b => a.1 < b.1) :
    sortMembers members = members := by
  -- on the members that are still to be added, those before them being in place
  have hadd : ∀ rest sorted : List (String × Json),
      (sorted ++ rest).Pairwise (fun a b => a.1 < b.1) →
        rest.foldl (fun sorted m => insertMember m.1 m.2 sorted) sorted =
          sorted ++ rest := by
    intro rest
    induction rest with
    | nil => intro sorted _; exact (List.append_nil sorted).symm
    | cons member rest ih =>
      intro sorted hsorted
      have hlast := (List.pairwise_append.mp hsorted).2.2
      rw [List.foldl_cons, insertMember_of_lt member.2 fun other hother =>
        hlast other hother member List.mem_cons_self]
      rw [List.append_cons sorted member rest] at hsorted ⊢
      exact ih _ hsorted
  exact hadd members [] h

mutual

/-- Sorted values are in canonical form. -/
theorem canonical_of_sorted : ∀ {j : Json}, Sorted j → j.canonical = j
  | .array items, h => by
    rw [canonical, canonicalItems_of_sorted h]
  | .object members, h => by
    rw [canonical, canonicalMembers_of_sorted h.2, sortMembers_of_sorted h.1]
  | .null, _ => rfl
  | .bool _, _ => rfl
  | .number _, _ => rfl
  | .string _, _ => rfl

/-- Sorted items are in canonical form. -/
theorem canonicalItems_of_sorted : ∀ {items : List Json}, SortedItems items →
    canonicalItems items = items
  | [], _ => rfl
  | x :: xs, h => by
    rw [canonicalItems, canonical_of_sorted h.1, canonicalItems_of_sorted h.2]

/-- Sorted members keep their values in canonical form. -/
theorem canonicalMembers_of_sorted : ∀ {members : List (String × Json)},
    SortedMembers members → canonicalMembers members = members
  | [], _ => rfl
  | (k, v) :: rest, h => by
    rw [canonicalMembers, canonical_of_sorted h.1, canonicalMembers_of_sorted h.2]

end

/-- Members are sorted inside if each value is. -/
theorem sortedMembers_iff {members : List (String × Json)} :
    SortedMembers members ↔ ∀ member ∈ members, Sorted member.2 := by
  induction members with
  | nil => exact ⟨fun _ => nofun, fun _ => trivial⟩
  | cons member members ih =>
    rw [List.forall_mem_cons, ← ih]
    exact Iff.rfl

/-- Adding a member brings in nothing else. -/
theorem mem_insertMember {key : String} {value : Json}
    {members : List (String × Json)} {member : String × Json}
    (h : member ∈ insertMember key value members) :
    member = (key, value) ∨ member ∈ members := by
  induction members with
  | nil => exact Or.inl (List.mem_singleton.mp h)
  | cons other members ih =>
    rw [insertMember] at h
    split at h
    next => exact List.mem_cons.mp h
    next =>
    split at h
    next => exact (List.mem_cons.mp h).imp_right (List.mem_cons_of_mem _)
    next =>
      rcases List.mem_cons.mp h with rfl | hmem
      · exact Or.inr List.mem_cons_self
      · exact (ih hmem).imp_right (List.mem_cons_of_mem _)

/-- A member is added where its key belongs. -/
theorem insertMember_pairwise (key : String) (value : Json)
    {members : List (String × Json)}
    (h : members.Pairwise fun a b => a.1 < b.1) :
    (insertMember key value members).Pairwise fun a b => a.1 < b.1 := by
  induction members with
  | nil => exact List.pairwise_singleton _ _
  | cons other members ih =>
    obtain ⟨hother, hmembers⟩ := List.pairwise_cons.mp h
    rw [insertMember]
    split
    next hlt =>
      refine List.pairwise_cons.mpr ⟨?_, h⟩
      refine List.forall_mem_cons.mpr ⟨hlt, ?_⟩
      intro member hmem
      exact String.lt_trans hlt (hother member hmem)
    next hnot =>
    split
    next heq =>
      subst heq
      exact List.pairwise_cons.mpr ⟨hother, hmembers⟩
    next hne =>
      have hlt : other.1 < key :=
        (Std.lt_trichotomy key other.1).resolve_left hnot |>.resolve_left hne
      refine List.pairwise_cons.mpr ⟨?_, ih hmembers⟩
      intro member hmem
      rcases mem_insertMember hmem with rfl | hmem
      · exact hlt
      · exact hother member hmem

/-- Members are sorted by adding them one by one. -/
theorem sortMembers_sorted {members : List (String × Json)}
    (h : SortedMembers members) :
    (sortMembers members).Pairwise (fun a b => a.1 < b.1) ∧
      SortedMembers (sortMembers members) := by
  have hadd : ∀ rest sorted : List (String × Json), SortedMembers rest →
      (sorted.Pairwise (fun a b => a.1 < b.1) ∧ SortedMembers sorted) →
      let all := rest.foldl (fun sorted m => insertMember m.1 m.2 sorted) sorted
      all.Pairwise (fun a b => a.1 < b.1) ∧ SortedMembers all := by
    intro rest
    induction rest with
    | nil => intro sorted _ h; exact h
    | cons member rest ih =>
      intro sorted hrest ⟨hpairwise, hvalues⟩
      refine ih _ hrest.2 ⟨insertMember_pairwise _ _ hpairwise, ?_⟩
      refine sortedMembers_iff.mpr fun other hmem => ?_
      rcases mem_insertMember hmem with rfl | hmem
      · exact hrest.1
      · exact sortedMembers_iff.mp hvalues other hmem
  exact hadd members [] h ⟨List.Pairwise.nil, trivial⟩

mutual

/-- What was brought into canonical form is sorted. -/
theorem canonical_sorted : ∀ j : Json, Sorted j.canonical
  | .array items => canonicalItems_sorted items
  | .object members => sortMembers_sorted (canonicalMembers_sorted members)
  | .null => trivial
  | .bool _ => trivial
  | .number _ => trivial
  | .string _ => trivial

/-- Items in canonical form are sorted. -/
theorem canonicalItems_sorted :
    ∀ items : List Json, SortedItems (canonicalItems items)
  | [] => trivial
  | x :: xs => ⟨canonical_sorted x, canonicalItems_sorted xs⟩

/-- Members in canonical form are sorted inside. -/
theorem canonicalMembers_sorted : ∀ members : List (String × Json),
    SortedMembers (canonicalMembers members)
  | [] => trivial
  | (_, v) :: rest => ⟨canonical_sorted v, canonicalMembers_sorted rest⟩

end

/-- The sorted values are those in canonical form. -/
theorem sorted_iff_canonical {j : Json} : Sorted j ↔ j.canonical = j := by
  constructor
  · exact canonical_of_sorted
  · intro h
    rw [← h]
    exact canonical_sorted j

/-- A value in canonical form is found, and nothing is changed in it. -/
theorem readValue_finds {depth : Nat} {j : Json} (exact : Exact j)
    (sorted : Sorted j) (hj : j.height ≤ depth) :
    Finds (readValue depth) j j := by
  intro t rest input value hr hi
  unfold readValue
  rw [readWritten_finds exact hj value hr hi]
  show Except.ok (j.canonical, rest) = _
  rw [canonical_of_sorted sorted]

/-! ## Documents -/

/-- The compact text of a value, read as a whole document, gives the value
again. -/
def Restores {α : Type} (read : Nat → Reader α) (encode : α → Json) (x : α) :
    Prop :=
  readDocument (read maxDepth) (symbolsOfText (encode x).compact) = .ok x

/-- A value is restored if it is found in every text of what it is written
as. -/
theorem Finds.restores {α : Type} {read : Nat → Reader α} {encode : α → Json}
    {x : α} (h : Finds (read maxDepth) (encode x) x)
    (exact : Exact (encode x)) : Restores read encode x := by
  have value := write_spells .compact (encode x) exact
  have hread := h value terminated_nil (value.skipBlanks_append [])
  rw [List.append_nil] at hread
  unfold Restores readDocument
  show (read maxDepth ((String.ofList ((encode x).write .compact)).toList.map
    Symbol.char) >>= _) = _
  rw [String.toList_ofList]
  show (read maxDepth (symbols ((encode x).write .compact)) >>= _) = _
  rw [hread]
  rfl

end DetectorBench.Json
