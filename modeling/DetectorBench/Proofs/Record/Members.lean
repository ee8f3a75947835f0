import DetectorBench.Record.Fields

/-!
# What a record finds in an object

`Record.decode` goes through the members of an object once and fills a slot for
each field whose key it meets. What comes out does not depend on that order:
each field looks at the values under its own key, and no member but these
matters, unless the record is strict.

> `Fields.Complete`: given what is in the slots already, the members that are
> still to come make up the finished record.

One member either concerns no field (`complete_cons_of_notMem`) or moves exactly
one slot on (`decodeInto_of_mem`). Along the members this telescopes to
`Record.decode_object_iff`: an object is accepted exactly if the record knows
every key or is not strict, and every field gets along with the values under its
key. In an object whose keys are distinct that is one value at most, found by
`get?` (`Record.decode_iff`).
-/

namespace DetectorBench

open Json (Cause)

namespace Json

/-- The keys of an object, in order. -/
def keys : Json → List String
  | .object members => members.map (·.1)
  | _ => []

/-- The values under a key, in order. -/
def valuesOf (key : String) (members : List (String × Json)) : List Json :=
  (members.filter (·.1 == key)).map (·.2)

theorem valuesOf_cons_self (key : String) (j : Json)
    (members : List (String × Json)) :
    valuesOf key ((key, j) :: members) = j :: valuesOf key members := by
  unfold valuesOf
  rw [List.filter_cons_of_pos (by simp), List.map_cons]

theorem valuesOf_cons_of_ne {key other : String} (h : other ≠ key) (j : Json)
    (members : List (String × Json)) :
    valuesOf key ((other, j) :: members) = valuesOf key members := by
  unfold valuesOf
  rw [List.filter_cons_of_neg (by simpa using h)]

/-- Under a key that no member has there are no values. -/
theorem valuesOf_of_notMem {key : String} {members : List (String × Json)}
    (h : key ∉ members.map (·.1)) : valuesOf key members = [] := by
  unfold valuesOf
  rw [List.map_eq_nil_iff, List.filter_eq_nil_iff]
  intro member hmember heq
  exact h (List.mem_map.mpr ⟨member, hmember, beq_iff_eq.mp heq⟩)

theorem get?_cons_self (key : String) (j : Json)
    (members : List (String × Json)) :
    (Json.object ((key, j) :: members)).get? key = some j := by
  show (List.find? _ _).map _ = _
  rw [List.find?_cons_of_pos (by simp), Option.map_some]

theorem get?_cons_of_ne {key other : String} (h : other ≠ key) (j : Json)
    (members : List (String × Json)) :
    (Json.object ((other, j) :: members)).get? key =
      (Json.object members).get? key := by
  show (List.find? _ _).map _ = _
  rw [List.find?_cons_of_neg (by simpa using h)]
  rfl

/-- Under distinct keys there is the value that a look-up finds, and no
other. -/
theorem valuesOf_eq_get? {key : String} {members : List (String × Json)}
    (distinct : (members.map (·.1)).Nodup) :
    valuesOf key members = ((Json.object members).get? key).toList := by
  induction members with
  | nil => rfl
  | cons member members ih =>
    obtain ⟨other, j⟩ := member
    obtain ⟨hother, hmembers⟩ := List.nodup_cons.mp distinct
    by_cases hkey : other = key
    · subst hkey
      rw [valuesOf_cons_self, valuesOf_of_notMem hother, get?_cons_self]
      rfl
    · rw [valuesOf_cons_of_ne hkey, get?_cons_of_ne hkey, ih hmembers]

end Json

open Json (valuesOf)

/-! ## Fields -/

namespace Field

variable {α : Type}

/-- What a field makes of the values under its key: one is decoded, none leaves
the default, and more are refused. -/
def Takes (field : Field α) : List Json → α → Prop
  | [], x => field.default = some x
  | [j], x => field.codec.decode j = .ok x
  | _ :: _ :: _, _ => False

/-- The same for a slot, which may have been filled by a value before these. -/
def Completes (field : Field α) : Option α → List Json → α → Prop
  | none, js, x => field.Takes js x
  | some y, [], x => y = x
  | some _, _ :: _, _ => False

/-- A value that is decoded takes its place in the slot. -/
theorem completes_cons {field : Field α} {j : Json} {y : α}
    (h : field.codec.decode j = .ok y) (js : List Json) (x : α) :
    field.Completes none (j :: js) x ↔ field.Completes (some y) js x := by
  cases js with
  | nil =>
    show field.codec.decode j = .ok x ↔ y = x
    rw [h]
    exact Except.ok.injEq y x ▸ Iff.rfl
  | cons => exact Iff.rfl

/-- A value that cannot be decoded spoils the field. -/
theorem not_completes_of_error {field : Field α} {j : Json} {cause : Cause}
    (h : field.codec.decode j = .error cause) (js : List Json) (x : α) :
    ¬field.Completes none (j :: js) x := by
  cases js with
  | nil =>
    show ¬field.codec.decode j = .ok x
    rw [h]
    exact nofun
  | cons => exact id

end Field

namespace Fields

variable {σ τ : Type}

/-- The values that the slots hold, together with the members that are still to
come, make up the record. -/
def Complete : {σ τ : Type} → Fields σ τ → σ → List (String × Json) → τ → Prop
  | _, _, .nil, (), _, () => True
  | _, _, .cons field rest, (slot, slots), members, (x, xs) =>
    field.Completes slot (valuesOf field.key members) x ∧
      rest.Complete slots members xs

/-- With nothing to come, the slots are finished as they are. -/
theorem finish_eq_ok_iff {fields : Fields σ τ} {slots : σ} {xs : τ} :
    fields.finish slots = .ok xs ↔ fields.Complete slots [] xs := by
  induction fields with
  | nil => exact ⟨fun _ => trivial, fun _ => rfl⟩
  | cons field rest ih =>
    obtain ⟨slot, slots⟩ := slots
    obtain ⟨x, xs⟩ := xs
    have hfield : (slot <|> field.default) = some x ↔ field.Completes slot [] x := by
      cases slot with
      | none => exact Iff.rfl
      | some y => exact Option.some.injEq y x ▸ Iff.rfl
    unfold Complete finish
    rw [show valuesOf field.key [] = [] from rfl, ← hfield, ← ih]
    cases slot <|> field.default with
    | none => exact ⟨nofun, fun h => nomatch h.1⟩
    | some y =>
      cases rest.finish slots with
      | error cause => exact ⟨nofun, fun h => nomatch h.2⟩
      | ok ys =>
        constructor
        · intro h
          cases h
          exact ⟨rfl, rfl⟩
        · rintro ⟨hx, hxs⟩
          cases hx
          cases hxs
          rfl

/-- A member whose key no field has goes into no slot. -/
theorem decodeInto_of_notMem {fields : Fields σ τ} {key : String}
    (h : key ∉ fields.keys) (j : Json) (slots : σ) :
    fields.decodeInto key j slots = none := by
  induction fields with
  | nil => rfl
  | cons field rest ih =>
    obtain ⟨slot, slots⟩ := slots
    obtain ⟨hfield, hrest⟩ := not_or.mp (mt List.mem_cons.mpr h)
    unfold decodeInto
    rw [if_neg hfield, ih hrest slots]
    rfl

/-- A member that no field asks for makes no difference. -/
theorem complete_cons_of_notMem {fields : Fields σ τ} {key : String}
    (h : key ∉ fields.keys) (j : Json) (slots : σ)
    (members : List (String × Json)) (xs : τ) :
    fields.Complete slots ((key, j) :: members) xs ↔
      fields.Complete slots members xs := by
  induction fields with
  | nil => exact Iff.rfl
  | cons field rest ih =>
    obtain ⟨slot, slots⟩ := slots
    obtain ⟨x, xs⟩ := xs
    obtain ⟨hfield, hrest⟩ := not_or.mp (mt List.mem_cons.mpr h)
    unfold Complete
    rw [Json.valuesOf_cons_of_ne hfield, ih hrest slots xs]

/-- A member whose key a field has goes into the slot of that field, if the slot
is empty and the value can be decoded; and the record is complete after it if it
was complete with it. -/
theorem decodeInto_of_mem {fields : Fields σ τ} (keys : fields.keys.Nodup)
    {key : String} (h : key ∈ fields.keys) (j : Json) (slots : σ) :
    ∃ result, fields.decodeInto key j slots = some result ∧
      ∀ members xs, fields.Complete slots ((key, j) :: members) xs ↔
        ∃ slots', result = .ok slots' ∧ fields.Complete slots' members xs := by
  -- on the fields: the key is that of the first one, or that of one of the
  -- others and of no more
  induction fields with
  | nil => cases h
  | cons field rest ih =>
    obtain ⟨slot, slots⟩ := slots
    obtain ⟨hkey, hdistinct⟩ := List.nodup_cons.mp keys
    by_cases hfield : key = field.key
    · subst hfield
      have hothers := complete_cons_of_notMem hkey j slots
      unfold decodeInto
      rw [if_pos rfl]
      cases slot with
      | some y =>
        refine ⟨_, rfl, fun members xs => ?_⟩
        unfold Complete
        rw [Json.valuesOf_cons_self]
        exact ⟨fun hc => hc.1.elim, fun ⟨_, hresult, _⟩ => nomatch hresult⟩
      | none =>
        refine ⟨_, rfl, fun members xs => ?_⟩
        obtain ⟨x, xs⟩ := xs
        unfold Complete
        rw [Json.valuesOf_cons_self, hothers members xs]
        cases hd : field.codec.decode j with
        | error cause =>
          constructor
          · intro hc
            exact absurd hc.1 (Field.not_completes_of_error hd _ x)
          · rintro ⟨_, hresult, -⟩
            cases hresult
        | ok y =>
          rw [Field.completes_cons hd]
          constructor
          · intro hc
            exact ⟨_, rfl, hc⟩
          · rintro ⟨_, hresult, hc⟩
            cases hresult
            exact hc
    · have hmem : key ∈ rest.keys := (List.mem_cons.mp h).resolve_left hfield
      obtain ⟨result, hinto, hcomplete⟩ := ih hdistinct hmem slots
      unfold decodeInto
      rw [if_neg hfield, hinto]
      refine ⟨_, rfl, fun members xs => ?_⟩
      obtain ⟨x, xs⟩ := xs
      unfold Complete
      rw [Json.valuesOf_cons_of_ne hfield, hcomplete members xs]
      cases result with
      | error cause =>
        constructor
        · rintro ⟨-, _, hresult, -⟩
          cases hresult
        · rintro ⟨_, hresult, -⟩
          cases hresult
      | ok slots' =>
        constructor
        · rintro ⟨hx, _, hresult, hc⟩
          cases hresult
          exact ⟨_, rfl, hx, hc⟩
        · rintro ⟨_, hresult, hc⟩
          cases hresult
          exact ⟨hc.1, _, rfl, hc.2⟩

end Fields

/-! ## Records -/

/-- A value that can stand for a record only in the form of an object: it is no
array, and its keys are distinct. -/
structure Json.Plain (j : Json) : Prop where
  no_array : ∀ items, j ≠ .array items
  distinct : j.keys.Nodup

namespace Record

variable {σ τ : Type} {r : Record σ τ}

/-- The members of an object are taken in if the record knows their keys or is
not strict, and make up what they complete. -/
theorem decodeMembers_finish_iff (keys : r.fields.keys.Nodup)
    {members : List (String × Json)} {slots : σ} {xs : τ} :
    (∃ filled, r.decodeMembers members slots = .ok filled ∧
      r.fields.finish filled = .ok xs) ↔
      (r.strict = true → ∀ key ∈ members.map (·.1), key ∈ r.fields.keys) ∧
        r.fields.Complete slots members xs := by
  induction members generalizing slots with
  | nil =>
    rw [← Fields.finish_eq_ok_iff]
    constructor
    · rintro ⟨filled, hfilled, hfinish⟩
      cases hfilled
      exact ⟨fun _ _ hkey => (List.not_mem_nil hkey).elim, hfinish⟩
    · rintro ⟨-, hfinish⟩
      exact ⟨slots, rfl, hfinish⟩
  | cons member members ih =>
    obtain ⟨key, j⟩ := member
    rw [List.map_cons, List.forall_mem_cons]
    unfold decodeMembers
    by_cases hkey : key ∈ r.fields.keys
    · obtain ⟨result, hinto, hcomplete⟩ := Fields.decodeInto_of_mem keys hkey j slots
      rw [hinto, hcomplete members xs]
      cases result with
      | error cause =>
        constructor
        · rintro ⟨_, hfilled, -⟩
          cases hfilled
        · rintro ⟨-, _, hresult, -⟩
          cases hresult
      | ok slots' =>
        show (∃ filled, r.decodeMembers members slots' = .ok filled ∧ _) ↔ _
        rw [ih]
        constructor
        · rintro ⟨hstrict, hc⟩
          exact ⟨fun hs => ⟨hkey, hstrict hs⟩, slots', rfl, hc⟩
        · rintro ⟨hstrict, _, hresult, hc⟩
          cases hresult
          exact ⟨fun hs => (hstrict hs).2, hc⟩
    · rw [Fields.decodeInto_of_notMem hkey, Fields.complete_cons_of_notMem hkey]
      cases hs : r.strict with
      | true =>
        -- the record knows all of its keys, and this is none of them
        constructor
        · rintro ⟨_, hfilled, -⟩
          cases hfilled
        · rintro ⟨hstrict, -⟩
          exact absurd (hstrict rfl).1 hkey
      | false =>
        rw [hs] at ih
        show (∃ filled, r.decodeMembers members slots = .ok filled ∧ _) ↔ _
        rw [ih]
        exact ⟨fun hc => ⟨nofun, hc.2⟩, fun hc => ⟨nofun, hc.2⟩⟩

/-- **What a record finds in an object**, whatever the order of the members and
whatever stands under keys that the record does not know. -/
theorem decode_object_iff (keys : r.fields.keys.Nodup)
    {members : List (String × Json)} {xs : τ} :
    r.decode (.object members) = .ok xs ↔
      (r.strict = true → ∀ key ∈ members.map (·.1), key ∈ r.fields.keys) ∧
        r.fields.Complete r.fields.empty members xs := by
  rw [← decodeMembers_finish_iff keys]
  show (do r.fields.finish (← r.decodeMembers members r.fields.empty)) = .ok xs ↔ _
  cases r.decodeMembers members r.fields.empty with
  | error cause => exact ⟨nofun, fun ⟨_, hfilled, _⟩ => nomatch hfilled⟩
  | ok filled =>
    constructor
    · intro hfinish
      exact ⟨filled, rfl, hfinish⟩
    · rintro ⟨_, hfilled, hfinish⟩
      cases hfilled
      exact hfinish

end Record

/-- Every field gets along with what is found under its key. -/
def Fields.Find : {σ τ : Type} → Fields σ τ → (String → Option Json) → τ → Prop
  | _, _, .nil, _, () => True
  | _, _, .cons field rest, get, (x, xs) =>
    field.Takes (get field.key).toList x ∧ rest.Find get xs

/-- Where no key occurs twice, nothing but look-ups is left. -/
theorem Fields.complete_empty_iff {σ τ : Type} {fields : Fields σ τ}
    {members : List (String × Json)} (distinct : (members.map (·.1)).Nodup)
    {xs : τ} :
    fields.Complete fields.empty members xs ↔
      fields.Find (fun key => (Json.object members).get? key) xs := by
  induction fields with
  | nil => exact Iff.rfl
  | cons field rest ih =>
    obtain ⟨x, xs⟩ := xs
    show field.Takes (valuesOf field.key members) x ∧
      rest.Complete rest.empty members xs ↔ _
    rw [Json.valuesOf_eq_get? distinct, ih]
    exact Iff.rfl

/-- A record that is not written as an array is an object with what its fields
look for, and a strict record is nothing else. -/
theorem Record.decode_iff {σ τ : Type} {r : Record σ τ}
    (keys : r.fields.keys.Nodup) {j : Json} (plain : j.Plain) {xs : τ} :
    r.decode j = .ok xs ↔
      (∃ members, j = .object members) ∧
      (r.strict = true → ∀ key ∈ j.keys, key ∈ r.fields.keys) ∧
        r.fields.Find (fun key => j.get? key) xs := by
  cases j with
  | object members =>
    rw [Record.decode_object_iff keys, Fields.complete_empty_iff plain.distinct]
    exact ⟨fun h => ⟨⟨members, rfl⟩, h⟩, fun h => h.2⟩
  | array items => exact absurd rfl (plain.no_array items)
  | null | bool | number | string =>
    constructor
    · intro h
      cases h
    · rintro ⟨⟨_, hobject⟩, -⟩
      cases hobject

end DetectorBench
