import DetectorBench.Proofs.Record.Members
import Mathlib.Data.List.Forall2

/-!
# Shapes of values

What a codec accepts, said without the codec: a shape relates a JSON value to
what it stands for, as `IsText j s` does for strings. Shapes are put together
like codecs: `IsListOf` for lists, and for a field of a record one relation for
each thing that an absent field may mean (`Present`, `OrDefault`, `Optionally`),
each about what a look-up found.

> A codec *accepts* a shape at a value when what the value decodes to is what
> the shape says.

The lemmas carry this from the parts to the whole, value by value: nothing has
to be known about a value that does not occur.
-/

namespace DetectorBench

namespace Json

variable {α : Type}

/-- A string. -/
def IsText (j : Json) (s : String) : Prop :=
  j = .string s

/-- A truth value. -/
def IsFlag (j : Json) (b : Bool) : Prop :=
  j = .bool b

/-- An object, whatever it holds. -/
def IsObject (j : Json) : Prop :=
  ∃ members, j = .object members

/-- Null is no object, so absence and presence of one are told apart. -/
theorem not_isObject_null : ¬IsObject .null := by
  rintro ⟨_, h⟩
  cases h

/-- An array of values of one shape. -/
def IsListOf (shape : Json → α → Prop) (j : Json) (xs : List α) : Prop :=
  ∃ items, j = .array items ∧ List.Forall₂ shape items xs

/-- Something of a shape was found. -/
inductive Present (shape : Json → α → Prop) : Option Json → α → Prop where
  | found {j : Json} {x : α} (value : shape j x) : Present shape (some j) x

/-- Nothing was found, which stands for a default, or something of a shape. -/
inductive OrDefault (default : α) (shape : Json → α → Prop) :
    Option Json → α → Prop where
  | absent : OrDefault default shape none default
  | found {j : Json} {x : α} (value : shape j x) :
    OrDefault default shape (some j) x

/-- Nothing was found, or `null`, or something of a shape. -/
inductive Optionally (shape : Json → α → Prop) :
    Option Json → Option α → Prop where
  | absent : Optionally shape none none
  | null : Optionally shape (some .null) none
  | found {j : Json} {x : α} (value : shape j x) :
    Optionally shape (some j) (some x)

end Json

open Json

/-! ## Codecs -/

namespace Codec

variable {α β : Type}

/-- What a value decodes to is what the shape says. -/
def Accepts (c : Codec α) (shape : Json → α → Prop) (j : Json) : Prop :=
  ∀ x, c.decode j = .ok x ↔ shape j x

/-- A text is decoded from strings only. -/
theorem text_accepts (j : Json) : text.Accepts IsText j := by
  intro s
  cases j with
  | string s' =>
    constructor
    · intro h
      cases h
      rfl
    · intro h
      cases h
      rfl
  | null | bool | number | array | object => exact ⟨nofun, nofun⟩

/-- A flag is decoded from truth values only. -/
theorem flag_accepts (j : Json) : flag.Accepts IsFlag j := by
  intro b
  cases j with
  | bool b' =>
    constructor
    · intro h
      cases h
      rfl
    · intro h
      cases h
      rfl
  | null | number | string | array | object => exact ⟨nofun, nofun⟩

/-- A type in a different shape is accepted as the one that it is made of. -/
theorem decode_map_iff {c : Codec α} {wrap : α → β} {unwrap : β → α}
    (left : ∀ x, unwrap (wrap x) = x) (right : ∀ y, wrap (unwrap y) = y)
    {j : Json} {y : β} :
    (c.map wrap unwrap).decode j = .ok y ↔ c.decode j = .ok (unwrap y) := by
  show (do return wrap (← c.decode j)) = .ok y ↔ _
  cases c.decode j with
  | error cause => exact ⟨nofun, nofun⟩
  | ok x =>
    constructor
    · intro h
      cases h
      rw [left]
    · intro h
      cases h
      exact congrArg Except.ok (right y)

/-- Items are decoded one by one. -/
theorem mapM_decode_iff {c : Codec α} {shape : Json → α → Prop}
    {items : List Json} (h : ∀ item ∈ items, c.Accepts shape item)
    {xs : List α} :
    items.mapM c.decode = .ok xs ↔ List.Forall₂ shape items xs := by
  induction items generalizing xs with
  | nil =>
    rw [List.forall₂_nil_left_iff]
    constructor
    · intro hxs
      cases hxs
      rfl
    · rintro rfl
      rfl
  | cons item items ih =>
    obtain ⟨hitem, hitems⟩ := List.forall_mem_cons.mp h
    rw [List.mapM_cons, List.forall₂_cons_left_iff]
    cases hd : c.decode item with
    | error cause =>
      constructor
      · exact nofun
      · rintro ⟨x, _, hx, -⟩
        rw [(hitem x).mpr hx] at hd
        cases hd
    | ok y =>
      have hy : shape item y := (hitem y).mp hd
      cases hds : items.mapM c.decode with
      | error cause =>
        constructor
        · exact nofun
        · rintro ⟨_, xs', -, hxs, -⟩
          rw [(ih hitems).mpr hxs] at hds
          cases hds
      | ok ys =>
        constructor
        · intro hxs
          cases hxs
          exact ⟨y, ys, hy, (ih hitems).mp hds, rfl⟩
        · rintro ⟨x, xs', hx, hxs, rfl⟩
          -- a value stands for one thing only
          rw [(hitem x).mpr hx] at hd
          rw [(ih hitems).mpr hxs] at hds
          cases hd
          cases hds
          rfl

/-- A list is decoded from arrays, item by item. -/
theorem list_accepts {c : Codec α} {shape : Json → α → Prop} {j : Json}
    (h : ∀ items, j = .array items → ∀ item ∈ items, c.Accepts shape item) :
    c.list.Accepts (IsListOf shape) j := by
  intro xs
  cases j with
  | array items =>
    show items.mapM c.decode = .ok xs ↔ _
    rw [mapM_decode_iff (h items rfl)]
    constructor
    · intro hitems
      exact ⟨items, rfl, hitems⟩
    · rintro ⟨_, hj, hitems⟩
      cases hj
      exact hitems
  | null | bool | number | string | object =>
    exact ⟨nofun, fun ⟨_, hj, _⟩ => nomatch hj⟩

end Codec

/-! ## Fields -/

namespace Field

variable {α : Type} {key : String} {c : Codec α} {shape : Json → α → Prop}
  {found : Option Json}

/-- A required field takes what was found, and nothing else. -/
theorem required_takes_iff (h : ∀ j, found = some j → c.Accepts shape j)
    {x : α} :
    (required key c).Takes found.toList x ↔ Present shape found x := by
  cases found with
  | none => exact ⟨nofun, nofun⟩
  | some j =>
    show c.decode j = .ok x ↔ _
    rw [h j rfl x]
    constructor
    · exact .found
    · rintro ⟨value⟩
      exact value

/-- A field with a default takes that if nothing was found. -/
theorem withDefault_takes_iff {default : α}
    (h : ∀ j, found = some j → c.Accepts shape j) {x : α} :
    (withDefault key c default).Takes found.toList x ↔
      OrDefault default shape found x := by
  cases found with
  | none =>
    show some default = some x ↔ _
    constructor
    · intro hx
      cases hx
      exact .absent
    · rintro ⟨⟩
      rfl
  | some j =>
    show c.decode j = .ok x ↔ _
    rw [h j rfl x]
    constructor
    · exact .found
    · rintro ⟨⟩
      assumption

/-- A list that is absent is taken for an empty one. -/
theorem listing_takes_iff (h : ∀ j, c.Accepts shape j) {xs : List α} :
    (listing key c).Takes found.toList xs ↔
      OrDefault [] (IsListOf shape) found xs := by
  have hlist : ∀ j, found = some j → c.list.Accepts (IsListOf shape) j :=
    fun _ _ => Codec.list_accepts fun _ _ item _ => h item
  -- whether a field is written makes no difference to what it takes
  show (withDefault key c.list []).Takes found.toList xs ↔ _
  exact withDefault_takes_iff hlist

/-- An optional field takes null as it takes absence. -/
theorem maybe_takes_iff (h : ∀ j, found = some j → c.Accepts shape j)
    (hnull : ∀ x, ¬shape .null x) {x : Option α} :
    (maybe key c).Takes found.toList x ↔ Optionally shape found x := by
  cases found with
  | none =>
    show some none = some x ↔ _
    constructor
    · intro hx
      cases hx
      exact .absent
    · rintro ⟨⟩
      rfl
  | some j =>
    show c.optional.decode j = .ok x ↔ _
    by_cases hj : j = .null
    · subst hj
      constructor
      · intro hx
        cases hx
        exact .null
      · intro hx
        cases hx with
        | null => rfl
        | found value => exact absurd value (hnull _)
    · have hoptional : c.optional.decode j = (do return some (← c.decode j)) := by
        cases j with
        | null => exact absurd rfl hj
        | bool | number | string | array | object => rfl
      rw [hoptional]
      cases hd : c.decode j with
      | error cause =>
        constructor
        · exact nofun
        · intro hx
          cases hx with
          | null => exact absurd rfl hj
          | found value =>
            rw [(h j rfl _).mpr value] at hd
            cases hd
      | ok y =>
        constructor
        · intro hx
          cases hx
          exact .found ((h j rfl y).mp hd)
        · intro hx
          cases hx with
          | null => exact absurd rfl hj
          | found value =>
            rw [(h j rfl _).mpr value] at hd
            cases hd
            rfl

/-! Fields that hold texts. -/

/-- `required_takes_iff` for texts. -/
theorem required_text_iff {s : String} :
    (required key .text).Takes found.toList s ↔ Present IsText found s :=
  required_takes_iff fun j _ => Codec.text_accepts j

/-- `withDefault_takes_iff` for texts. -/
theorem withDefault_text_iff {s default : String} :
    (withDefault key .text default).Takes found.toList s ↔
      OrDefault default IsText found s :=
  withDefault_takes_iff fun j _ => Codec.text_accepts j

/-- `maybe_takes_iff` for texts. -/
theorem maybe_text_iff {s : Option String} :
    (maybe key .text).Takes found.toList s ↔ Optionally IsText found s :=
  maybe_takes_iff (fun j _ => Codec.text_accepts j) fun _ => nofun

/-- `listing_takes_iff` for texts. -/
theorem listing_text_iff {ss : List String} :
    (listing key .text).Takes found.toList ss ↔
      OrDefault [] (IsListOf IsText) found ss :=
  listing_takes_iff Codec.text_accepts

end Field

/-! ## Records -/

/-- A record in a different shape, in a plain value. -/
theorem Record.map_decode_iff {σ τ β : Type} {r : Record σ τ} {wrap : τ → β}
    {unwrap : β → τ} (left : ∀ xs, unwrap (wrap xs) = xs)
    (right : ∀ y, wrap (unwrap y) = y) (keys : r.fields.keys.Nodup) {j : Json}
    (plain : j.Plain) {y : β} :
    (r.codec.map wrap unwrap).decode j = .ok y ↔
      j.IsObject ∧ (r.strict = true → ∀ key ∈ j.keys, key ∈ r.fields.keys) ∧
        r.fields.Find (fun key => j.get? key) (unwrap y) := by
  rw [Codec.decode_map_iff left right]
  exact Record.decode_iff keys plain

end DetectorBench
