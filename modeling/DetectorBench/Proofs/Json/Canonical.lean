import DetectorBench.Proofs.Json.Values
import DetectorBench.Proofs.Record.Members

/-!
# What is read is the canonical form

Reading a text to compute with it sorts the members of its objects. Where no key
occurs twice this loses nothing but the order: under every key there is the
canonical form of what was there before (`get?_canonical`).

So a written value, in either layout, is read as its canonical form
(`parse_write`), and without the sorting as what it is, to whatever depth: a
text is written for one value only (`write_injective`).
-/

namespace DetectorBench.Json

/-! ## Looking up in sorted members -/

theorem get?_object_nil (key : String) : (object []).get? key = none := rfl

/-- Inserting a member sets what stands under its key, and under no other. -/
theorem get?_insertMember (key other : String) (value : Json)
    (members : List (String × Json)) :
    (object (insertMember key value members)).get? other =
      if key = other then some value else (object members).get? other := by
  induction members with
  | nil =>
    by_cases h : key = other
    · rw [if_pos h, ← h]
      exact get?_cons_self key value []
    · rw [if_neg h]
      exact get?_cons_of_ne h value []
  | cons member members ih =>
    obtain ⟨k, v⟩ := member
    unfold insertMember
    by_cases h : key = other
    · -- what stands before the place of the new member has another key
      subst h
      rw [if_pos rfl] at ih ⊢
      split
      next => exact get?_cons_self key value _
      next =>
      split
      next => exact get?_cons_self key value _
      next hne => rw [get?_cons_of_ne (Ne.symm hne), ih]
    · rw [if_neg h] at ih ⊢
      split
      next => exact get?_cons_of_ne h value _
      next =>
      split
      next heq =>
        subst heq
        rw [get?_cons_of_ne h, get?_cons_of_ne h]
      next =>
        by_cases hk : k = other
        · subst hk
          rw [get?_cons_self, get?_cons_self]
        · rw [get?_cons_of_ne hk, get?_cons_of_ne hk, ih]

/-- Under a key that no member has there is nothing. -/
theorem get?_of_notMem {key : String} {members : List (String × Json)}
    (h : key ∉ members.map (·.1)) : (object members).get? key = none := by
  induction members with
  | nil => rfl
  | cons member members ih =>
    obtain ⟨hmember, hmembers⟩ := not_or.mp (mt List.mem_cons.mpr h)
    rw [get?_cons_of_ne (Ne.symm hmember), ih hmembers]

/-- Sorting members with distinct keys changes nothing for a look-up. -/
theorem get?_sortMembers {members : List (String × Json)}
    (distinct : (members.map (·.1)).Nodup) (key : String) :
    (object (sortMembers members)).get? key = (object members).get? key := by
  -- on the members that are still to be added; those in place are found under
  -- the other keys
  have hadd : ∀ rest sorted : List (String × Json), (rest.map (·.1)).Nodup →
      (object
        (rest.foldl (fun sorted m => insertMember m.1 m.2 sorted) sorted)).get? key =
        ((object rest).get? key).or ((object sorted).get? key) := by
    intro rest
    induction rest with
    | nil => intro sorted _; rfl
    | cons member rest ih =>
      intro sorted hrest
      obtain ⟨k, v⟩ := member
      obtain ⟨hmember, hdistinct⟩ := List.nodup_cons.mp hrest
      rw [List.foldl_cons, ih _ hdistinct, get?_insertMember]
      by_cases hk : k = key
      · subst hk
        rw [get?_of_notMem hmember, if_pos rfl, get?_cons_self]
        rfl
      · rw [if_neg hk, get?_cons_of_ne hk]
  unfold sortMembers
  rw [hadd members [] distinct, get?_object_nil, Option.or_none]

/-- The members in canonical form have the keys that they had. -/
theorem keys_canonicalMembers (members : List (String × Json)) :
    (canonicalMembers members).map (·.1) = members.map (·.1) := by
  induction members with
  | nil => rfl
  | cons member members ih => exact congrArg (member.1 :: ·) ih

/-- Under each key there is the canonical form of what was there. -/
theorem get?_canonicalMembers (key : String) (members : List (String × Json)) :
    (object (canonicalMembers members)).get? key =
      ((object members).get? key).map canonical := by
  induction members with
  | nil => rfl
  | cons member members ih =>
    obtain ⟨k, v⟩ := member
    unfold canonicalMembers
    by_cases hk : k = key
    · subst hk
      rw [get?_cons_self, get?_cons_self]
      rfl
    · rw [get?_cons_of_ne hk, get?_cons_of_ne hk, ih]

/-- **Under every key of the canonical form there is the canonical form of what
was there**, if no key occurs twice. -/
theorem get?_canonical {members : List (String × Json)}
    (distinct : (members.map (·.1)).Nodup) (key : String) :
    (object members).canonical.get? key =
      ((object members).get? key).map canonical := by
  rw [← keys_canonicalMembers] at distinct
  show (object (sortMembers (canonicalMembers members))).get? key = _
  rw [get?_sortMembers distinct, get?_canonicalMembers]

/-! ## Keys of the canonical form -/

/-- Sorting invents no member. -/
theorem mem_sortMembers {members : List (String × Json)}
    {member : String × Json} (h : member ∈ sortMembers members) :
    member ∈ members := by
  have hadd : ∀ rest sorted : List (String × Json),
      member ∈ rest.foldl (fun sorted m => insertMember m.1 m.2 sorted) sorted →
        member ∈ sorted ∨ member ∈ rest := by
    intro rest
    induction rest with
    | nil => exact fun sorted hmem => .inl hmem
    | cons other rest ih =>
      intro sorted hmem
      rcases ih _ hmem with hsorted | hrest
      · rcases mem_insertMember hsorted with rfl | hsorted
        · exact .inr List.mem_cons_self
        · exact .inl hsorted
      · exact .inr (List.mem_cons_of_mem _ hrest)
  exact (hadd members [] h).resolve_left List.not_mem_nil

/-- The canonical form of an object has no other keys. -/
theorem mem_keys_canonical {members : List (String × Json)} {key : String}
    (h : key ∈ (object members).canonical.keys) : key ∈ members.map (·.1) := by
  obtain ⟨member, hmember, rfl⟩ := List.mem_map.mp h
  rw [← keys_canonicalMembers]
  exact List.mem_map.mpr ⟨member, mem_sortMembers hmember, rfl⟩

/-- In canonical form no key stands twice. -/
theorem nodup_keys_canonical (j : Json) : j.canonical.keys.Nodup := by
  cases j with
  | object members =>
    have hsorted := (canonical_sorted (.object members)).1
    refine List.pairwise_map.mpr (hsorted.imp fun {a b} hlt heq => ?_)
    exact String.lt_irrefl b.1 (heq ▸ hlt)
  | null | bool | number | string | array => exact List.nodup_nil

/-! ## Reading what was written -/

/-- **A value is read in canonical form**, from any of its texts. -/
theorem readValue_canonical {depth : Nat} {j : Json} (exact : Exact j)
    (hj : j.height ≤ depth) :
    Finds (readValue depth) j j.canonical := by
  intro t rest input value hr hi
  unfold readValue
  rw [readWritten_finds exact hj value hr hi]
  rfl

/-- The symbols of a written text are the characters that were written. -/
theorem symbolsOfText_write (layout : Layout) (j : Json) :
    symbolsOfText (String.ofList (j.write layout)) = symbols (j.write layout) := by
  show (String.ofList (j.write layout)).toList.map Symbol.char = _
  rw [String.toList_ofList]
  rfl

/-- A reader that finds something in the texts of a value finds it in the
written one. -/
theorem Finds.write {α : Type} {reader : Reader α} {j : Json} {x : α}
    (h : Finds reader j x) (exact : Exact j) (layout : Layout) :
    reader (symbols (j.write layout)) = .ok (x, []) := by
  have value := write_spells layout j exact
  have hread := h value terminated_nil (value.skipBlanks_append [])
  rwa [List.append_nil] at hread

/-- **A written value is read as its canonical form**, in either layout. -/
theorem parse_write {j : Json} (exact : Exact j) (hj : j.height ≤ maxDepth)
    (layout : Layout) :
    parse (String.ofList (j.write layout)) = .ok j.canonical := by
  have hread := (readValue_canonical exact hj).write exact layout
  unfold parse readDocument
  rw [symbolsOfText_write, hread]
  rfl

/-- `parse_write` for the layout over several lines. -/
theorem parse_pretty {j : Json} (exact : Exact j) (hj : j.height ≤ maxDepth) :
    parse j.pretty = .ok j.canonical :=
  parse_write exact hj (.pretty 0)

/-- **A text is written for one value only.** -/
theorem write_injective {j j' : Json} (exact : Exact j) (exact' : Exact j')
    {layout : Layout} (h : j.write layout = j'.write layout) : j = j' := by
  -- with brackets to spare for both there is no limit to how deep they are
  -- nested
  have hread :=
    (readWritten_finds exact (Nat.le_max_left j.height j'.height)).write exact layout
  have hread' :=
    (readWritten_finds exact' (Nat.le_max_right j.height j'.height)).write
      exact' layout
  rw [h, hread'] at hread
  cases hread
  rfl

/-- Two values with one text are the same. -/
theorem pretty_injective {j j' : Json} (exact : Exact j) (exact' : Exact j')
    (h : j.pretty = j'.pretty) : j = j' :=
  write_injective exact exact' (String.ofList_injective h)

end DetectorBench.Json
