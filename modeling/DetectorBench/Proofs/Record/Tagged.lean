import DetectorBench.Output
import DetectorBench.Proofs.Json.Values
import DetectorBench.Proofs.Manifest.RoundTrip
import DetectorBench.Proofs.Record.Choices

/-!
# Variants are read back

A value of several variants is written with the name of its variant, and there
are two ways to do so. An attribute has the name as one more member among those
of the record that it carries, and they are kept as they are written until the
name is known. An output has it beside its value, which may be any value at all.
Either way the variant is found again (`Attribute.read_finds`,
`Output.read_finds`): the records of an attribute have no field of that name,
and the value of an output stands under a key of its own.
-/

namespace DetectorBench

open Json

/-! ## What a codec finds -/

/-- Where reading follows decoding, it finds what is decoded. -/
theorem Codec.FollowsAt.finds {α : Type} {c : Codec α} {height depth : Nat}
    {j : Json} {x : α} (h : c.FollowsAt height j) (hn : height ≤ depth)
    (hd : c.decode j = .ok x) :
    Finds (c.read depth) j x := by
  intro t rest input value hr hi
  rcases h value hr hi hn with ⟨y, hy, hread⟩ | ⟨cause, fault, hcause, -⟩
  · rw [hd] at hy
    cases hy
    exact hread
  · rw [hd] at hcause
    cases hcause

/-- A name is found by itself and by itself only. -/
theorem Choices.readName_finds {α : Type} {table : Choices α} {name : String}
    {x : α} (h : table.find name = .ok x) :
    Finds table.readName (.string name) x := by
  intro t rest input value hr hi
  cases value with
  | string chars =>
    cases chars with
    | @quoted cs u chars =>
      have hread :
          table.readName input = table.readName (.char '"' :: (u ++ rest)) := by
        unfold readName
        rw [hi, List.cons_append, skipBlanks_of_not_blank (by decide)]
      rw [hread, readName_spells chars, h]

/-! ## Attributes -/

/-- No field of a record is written with more brackets inside one another than
this. -/
def Fields.Shallow : {σ τ : Type} → Fields σ τ → (height : Nat) → Prop
  | _, _, .nil, _ => True
  | _, _, .cons field rest, height =>
    (∀ x, (field.codec.encode x).height ≤ height) ∧ rest.Shallow height

/-- The members of a record are nested no deeper than its fields. -/
theorem Fields.heightMembers_encode {σ τ : Type} {fields : Fields σ τ}
    {height : Nat} (h : fields.Shallow height) (xs : τ) :
    heightMembers (fields.encode xs) ≤ height := by
  induction fields with
  | nil => exact Nat.zero_le height
  | cons field others ih =>
    obtain ⟨x, xs⟩ := xs
    unfold encode
    split
    next => exact ih h.2 xs
    next => exact Nat.max_le.mpr ⟨h.1 x, ih h.2 xs⟩

namespace Attribute

/-- What an attribute carries is written as an object, without a member under
the key of the kind, and is decoded from it. -/
structure Carries (a : Attribute) (members : List (String × Json)) : Prop where
  content : a.encodeContent = .object members
  key : ∀ member ∈ members, member.1 ≠ kindKey
  exact : ExactMembers members
  height : heightMembers members ≤ 2
  decode : decodeContent (.object members) a.kind = .ok a

/-- An attribute is written with the members that it carries, behind its
kind. -/
theorem encode_of_carries {a : Attribute} {members : List (String × Json)}
    (h : a.Carries members) :
    a.encode = .object ((kindKey, .string a.kind.tag) :: members) := by
  unfold encode
  rw [h.content]

/-- A record without a field for the kind, and with shallow ones, is carried. -/
theorem carries_record {σ τ : Type} {a : Attribute} {r : Record σ τ} {xs : τ}
    (content : a.encodeContent = r.codec.encode xs)
    (key : kindKey ∉ r.fields.keys) (shallow : r.fields.Shallow 2)
    (exact : Exact (r.codec.encode xs))
    (decode : decodeContent (r.codec.encode xs) a.kind = .ok a) :
    ∃ members, a.Carries members := by
  refine ⟨r.fields.encode xs, content, ?_, exact,
    Fields.heightMembers_encode shallow xs, decode⟩
  intro member hmember heq
  exact key (heq ▸ Fields.key_of_mem_encode hmember)

/-- Every attribute carries some members. -/
theorem exists_carries (a : Attribute) : ∃ members, a.Carries members := by
  have text : ∀ s, (Codec.text.encode s).height ≤ 2 := fun _ => Nat.zero_le 2
  cases a with
  | definition d =>
    have maybe : ∀ s, (Codec.text.optional.encode s).height ≤ 2 := by
      intro s
      cases s <;> exact Nat.zero_le 2
    have topics : ∀ ts, (SupportTopic.codec.list.encode ts).height ≤ 2 := by
      intro ts
      refine Nat.succ_le_succ ?_
      induction ts with
      | nil => exact Nat.zero_le 1
      | cons t ts ih => exact Nat.max_le.mpr ⟨Nat.le_refl 1, ih⟩
    refine carries_record rfl (by decide)
      ⟨text, text, text, maybe, maybe, topics, trivial⟩
      (Definition.codec_lawful.exact d) ?_
    show (do
      return definition
        (← Definition.codec.decode (Definition.codec.encode d))) = _
    rw [Definition.codec_lawful.decode_encode]
    rfl
  | supportTopic t =>
    refine carries_record rfl (by decide) ⟨text, text, trivial⟩
      (SupportTopic.codec_lawful.exact t) ?_
    show (do
      return supportTopic
        (← SupportTopic.codec.decode (SupportTopic.codec.encode t))) = _
    rw [SupportTopic.codec_lawful.decode_encode]
    rfl
  | resourceFilter f =>
    refine carries_record rfl (by decide) ⟨text, fun _ => Nat.zero_le 2, trivial⟩
      (ResourceFilter.codec_lawful.exact f) ?_
    show (do
      return resourceFilter
        (← ResourceFilter.codec.decode (ResourceFilter.codec.encode f))) = _
    rw [ResourceFilter.codec_lawful.decode_encode]
    rfl
  | systemFilter f =>
    refine carries_record rfl (by decide) trivial
      (SystemFilter.codec_lawful.exact f) ?_
    show (do
      return systemFilter
        (← SystemFilter.codec.decode (SystemFilter.codec.encode f))) = _
    rw [SystemFilter.codec_lawful.decode_encode]
    rfl

/-- Members under other keys are kept as they are written. -/
theorem readMembersFrom_spells {depth : Nat} {members : List (String × Json)}
    (keys : ∀ member ∈ members, member.1 ≠ kindKey)
    (values : ∀ member ∈ members, Finds (readWritten depth) member.2 member.2) :
    ∀ {first : Bool} {t : Input}, SpellsMembers first members t →
      ∀ (fuel : Nat) (found : Option Kind) (rest : Input), members.length < fuel →
        readMembersFrom depth fuel first found (t ++ rest) =
          .ok ((found, members), rest) := by
  induction members with
  | nil =>
    intro first t ht fuel found rest hfuel
    obtain ⟨fuel, rfl⟩ : ∃ k, fuel = k + 1 := ⟨fuel - 1, by omega⟩
    cases ht with
    | close blank =>
      rw [List.append_assoc, readMembersFrom, List.singleton_append,
        nextKey_close first blank]
      rfl
  | cons member members ih =>
    intro first t ht fuel found rest hfuel
    obtain ⟨fuel, rfl⟩ : ∃ k, fuel = k + 1 := ⟨fuel - 1, by omega⟩
    obtain ⟨hkey, hkeys⟩ := List.forall_mem_cons.mp keys
    obtain ⟨hvalue, hvalues⟩ := List.forall_mem_cons.mp values
    cases ht with
    | @member _ lead k b b' v u key j _ before name colon gap value more =>
      have hfirst : readWritten depth (b' ++ (v ++ (u ++ rest))) =
          .ok (j, u ++ rest) :=
        hvalue value more.terminated
          (by rw [gap.skipBlanks_append, value.skipBlanks_append])
      have hmore :=
        ih hkeys hvalues more fuel found rest (Nat.lt_of_succ_lt_succ hfuel)
      simp only [List.append_assoc, List.cons_append]
      rw [readMembersFrom, nextKey_lead before name]
      simp only [bind, Except.bind, if_neg hkey, readColon_blank colon, hfirst,
        hmore]
      rfl

/-- An attribute in curly brackets is read member by member, and needs a
kind. -/
theorem readTagged_object {depth : Nat} {input u : Input}
    (hi : skipBlanks input = .char '\x7b' :: u) :
    readTagged (depth + 1) input =
      (do
        match ← readMembersFrom depth (u.length + 1) true none u with
        | ((none, _), rest) => .error (.here rest (.missingField kindKey))
        | ((some kind, members), rest) =>
          return ((kind, .object members), rest)) := by
  unfold readTagged
  generalize skipBlanks input = found at hi ⊢
  subst hi
  rfl

/-- The kind comes first, and the members behind it are kept as they are
written. -/
theorem readTagged_finds {depth : Nat} {kind : Kind}
    {members : List (String × Json)}
    (keys : ∀ member ∈ members, member.1 ≠ kindKey)
    (exact : ExactMembers members) (hdepth : heightMembers members ≤ depth) :
    Finds (readTagged (depth + 1)) (.object ((kindKey, .string kind.tag) :: members))
      (kind, .object members) := by
  have hfind : kinds.find kind.tag = .ok kind := by cases kind <;> rfl
  have hvalues : ∀ member ∈ members, Finds (readWritten depth) member.2 member.2 :=
    fun member hmem => readWritten_finds (exact_of_mem_members exact member hmem)
      (height_le_of_mem_members hdepth member hmem)
  intro t rest input value hr hi
  cases value with
  | @object _ t inside =>
    have hlength := inside.length_lt
    rw [List.cons_append] at hi
    rw [readTagged_object hi, readMembersFrom]
    generalize hfuel : (t ++ rest).length = fuel
    rw [List.length_append] at hfuel
    cases inside with
    | @member _ lead k b b' v u _ _ _ before name colon gap value more =>
      have hname :
          kinds.readName (b' ++ (v ++ (u ++ rest))) = .ok (kind, u ++ rest) :=
        Choices.readName_finds hfind value more.terminated
          (by rw [gap.skipBlanks_append, value.skipBlanks_append])
      have hmembers := readMembersFrom_spells keys hvalues more fuel (some kind) rest
        (by rw [List.length_cons] at hlength; omega)
      simp only [List.append_assoc, List.cons_append]
      rw [nextKey_lead before name]
      simp only [bind, Except.bind, if_true, readColon_blank colon, hname, hmembers]
      rfl

/-- **An attribute is found** in every text of what it is written as. -/
theorem read_finds {depth : Nat} (hdepth : 3 ≤ depth) (a : Attribute) :
    Finds (read depth) a.encode a := by
  obtain ⟨depth, rfl⟩ : ∃ k, depth = k + 1 := ⟨depth - 1, by omega⟩
  obtain ⟨members, carries⟩ := a.exists_carries
  intro t rest input value hr hi
  rw [encode_of_carries carries] at value
  have htagged := readTagged_finds carries.key carries.exact
    (Nat.le_trans carries.height (Nat.le_of_succ_le_succ hdepth)) value hr hi
  unfold read
  rw [htagged]
  simp only [bind, Except.bind, carries.decode]
  rfl

/-- What an attribute is written as has no numbers in it. -/
theorem encode_exact (a : Attribute) : Exact a.encode := by
  obtain ⟨members, carries⟩ := a.exists_carries
  rw [encode_of_carries carries]
  exact ⟨trivial, carries.exact⟩

end Attribute

/-! ## Outputs -/

namespace Output

/-- The value of an output has no fractional numbers, is in canonical form, and
leaves room for the bracket around it. -/
def Portable : Output → Prop
  | value v => Exact v ∧ Sorted v ∧ v.height < maxDepth
  | noValue => True

/-- A key that is relevant is found behind its separator. -/
theorem nextRelevantKey_lead {first : Bool} {lead k : Input} (key : Key)
    (before : Lead first lead) (name : SpellsString key.name k) (rest : Input) :
    nextRelevantKey first (lead ++ (k ++ rest)) = .ok (some key, rest) := by
  unfold nextRelevantKey
  rw [nextKeyFrom, nextKey_lead before name]
  cases key <;> rfl

/-- At the end of an object there is no further key. -/
theorem nextRelevantKey_close (first : Bool) {b : Input} (h : Blank b)
    (rest : Input) :
    nextRelevantKey first (b ++ .char '\x7d' :: rest) = .ok (none, rest) := by
  unfold nextRelevantKey
  rw [nextKeyFrom, nextKey_close first h]
  rfl

/-- An output in curly brackets is read member by member. -/
theorem read_object {depth : Nat} {input u : Input}
    (hi : skipBlanks input = .char '\x7b' :: u) :
    read (depth + 1) input = readMembers depth u := by
  unfold read
  generalize skipBlanks input = found at hi ⊢
  subst hi
  rfl

/-- The name of a kind is found where a value is expected. -/
theorem kind_finds {depth : Nat} (hdepth : 1 ≤ depth) {name : String}
    {kind : Kind} (h : kinds.find name = .ok kind) :
    Finds (kinds.read depth) (.string name) kind :=
  ((Choices.codec_follows kinds fun _ => name).at (.string name)).finds hdepth h

/-- A value is found behind its kind. -/
theorem readMembers_value {depth : Nat} (hdepth : 1 ≤ depth) {v : Json}
    (exact : Exact v) (sorted : Sorted v) (hv : v.height ≤ depth) {t : Input}
    (inside : SpellsMembers true [(kindKey, .string "value"), (valueKey, v)] t)
    (rest : Input) :
    readMembers depth (t ++ rest) = .ok (value v, rest) := by
  cases inside with
  | @member _ lead k b b' u w _ _ _ before name colon gap text more =>
    have hkind : kinds.read depth (b' ++ (u ++ (w ++ rest))) =
        .ok (.value, w ++ rest) :=
      kind_finds hdepth rfl text more.terminated
        (by rw [gap.skipBlanks_append, text.skipBlanks_append])
    unfold readMembers
    simp only [List.append_assoc, List.cons_append]
    rw [nextRelevantKey_lead .kind before name]
    simp only [bind, Except.bind, readColon_blank colon, hkind]
    cases more with
    | @member _ lead k b b' u w _ _ _ before name colon gap text more =>
      have hvalue : Json.readValue depth (b' ++ (u ++ (w ++ rest))) =
          .ok (v, w ++ rest) :=
        readValue_finds exact sorted hv text more.terminated
          (by rw [gap.skipBlanks_append, text.skipBlanks_append])
      simp only [List.append_assoc, List.cons_append]
      rw [nextRelevantKey_lead .value before name]
      simp only [readColon_blank colon, readContent, bind, Except.bind, hvalue,
        pure, Except.pure]
      cases more with
      | close blank =>
        unfold finishMembers
        rw [List.append_assoc, List.singleton_append,
          nextRelevantKey_close false blank]
        rfl

/-- No value is needed behind the kind that has none. -/
theorem readMembers_noValue {depth : Nat} (hdepth : 1 ≤ depth) {t : Input}
    (inside : SpellsMembers true [(kindKey, .string "no_value")] t)
    (rest : Input) :
    readMembers depth (t ++ rest) = .ok (noValue, rest) := by
  cases inside with
  | @member _ lead k b b' u w _ _ _ before name colon gap text more =>
    have hkind : kinds.read depth (b' ++ (u ++ (w ++ rest))) =
        .ok (.noValue, w ++ rest) :=
      kind_finds hdepth rfl text more.terminated
        (by rw [gap.skipBlanks_append, text.skipBlanks_append])
    unfold readMembers
    simp only [List.append_assoc, List.cons_append]
    rw [nextRelevantKey_lead .kind before name]
    simp only [bind, Except.bind, readColon_blank colon, hkind]
    cases more with
    | close blank =>
      rw [List.append_assoc, List.singleton_append,
        nextRelevantKey_close false blank]
      rfl

/-- **An output is found** in every text of what it is written as. -/
theorem read_finds {o : Output} (portable : o.Portable) :
    Finds (read maxDepth) o.encode o := by
  intro t rest input text hr hi
  cases o with
  | value v =>
    obtain ⟨exact, sorted, hv⟩ := portable
    cases text with
    | object inside =>
      rw [List.cons_append] at hi
      exact (read_object hi).trans
        (readMembers_value (by decide) exact sorted (Nat.le_of_lt_succ hv)
          inside rest)
  | noValue =>
    cases text with
    | object inside =>
      rw [List.cons_append] at hi
      exact (read_object hi).trans (readMembers_noValue (by decide) inside rest)

/-- An output that is portable is written without a number that JSON would not
keep. -/
theorem encode_exact {o : Output} (portable : o.Portable) : Exact o.encode := by
  cases o with
  | value v => exact ⟨trivial, portable.1, trivial⟩
  | noValue => exact ⟨trivial, trivial⟩

end Output

end DetectorBench
