import DetectorBench.Proofs.Manifest.Compilation

/-!
# What a check vouches for

A manifest is checked name by name and then for its routine, and a name that was
declared before is passed over. So a name is looked up once, when it is declared
for the first time, and the check reports no error exactly when every declared
name is allowed and the routine is registered (`check_clean_iff`). The induction
is on the declared names with the names that were seen before.

What the attributes of a manifest fold to is what the manifest declares
(`metadata_entryPoint`): the definition comes first and every kind but the
support topics at most once. So the image of a manifest declares the same under
its one name, and under no other (`image_offers_declared`).
-/

namespace DetectorBench

namespace Diagnostic

@[simp] theorem anyError_nil : anyError [] = false := rfl

@[simp] theorem anyError_cons (d : Diagnostic) (ds : List Diagnostic) :
    anyError (d :: ds) = (d.isError || anyError ds) := rfl

@[simp] theorem anyError_append (ds ds' : List Diagnostic) :
    anyError (ds ++ ds') = (anyError ds || anyError ds') :=
  List.any_append

end Diagnostic

namespace Manifest

/-! ## Checking -/

/-- All of some names are on a list of those allowed, if there is such a
list. -/
def Permitted (allowed : Option (List String)) (names : List String) : Prop :=
  ∀ list, allowed = some list → ∀ name ∈ names, name ∈ list

theorem permits_iff {allowed : Option (List String)} {name : String} :
    permits allowed name = true ↔ ∀ list, allowed = some list → name ∈ list := by
  cases allowed with
  | none => simp [permits]
  | some list => simp [permits]

/-- A name is looked up unless it was seen before. -/
theorem checkNames_clean_iff (what : String) (allowed : Option (List String)) :
    ∀ declared seen : List String,
      Diagnostic.anyError (checkNames what allowed seen declared) = false ↔
        ∀ name ∈ declared, name ∈ seen ∨ permits allowed name = true := by
  intro declared
  induction declared with
  | nil => intro seen; simp [checkNames]
  | cons name rest ih =>
    intro seen
    unfold checkNames
    rw [List.forall_mem_cons]
    by_cases hseen : name ∈ seen
    · -- the warning is no error, and the name need not be allowed
      rw [if_pos (List.contains_iff_mem.mpr hseen)]
      have hwarning : (duplicateWarning what name).isError = false := rfl
      rw [Diagnostic.anyError_cons, hwarning, Bool.false_or, ih seen]
      exact ⟨fun h => ⟨Or.inl hseen, h⟩, And.right⟩
    · rw [if_neg (mt List.contains_iff_mem.mp hseen)]
      by_cases hallowed : permits allowed name = true
      · rw [if_pos hallowed, ih (name :: seen)]
        -- where the name comes again it is seen, and was allowed
        constructor
        · intro h
          refine ⟨Or.inr hallowed, fun other hother => ?_⟩
          rcases h other hother with hmem | hpermits
          · rcases List.mem_cons.mp hmem with rfl | hmem
            · exact Or.inr hallowed
            · exact Or.inl hmem
          · exact Or.inr hpermits
        · rintro ⟨-, h⟩ other hother
          exact (h other hother).imp_left (List.mem_cons_of_mem name)
      · rw [if_neg hallowed]
        have herror : (forbiddenError what name).isError = true := rfl
        rw [Diagnostic.anyError_cons, herror, Bool.true_or]
        constructor
        · exact nofun
        · rintro ⟨hname, -⟩
          exact absurd hname (not_or.mpr ⟨hseen, hallowed⟩)

/-- At the start no name has been seen. -/
theorem checkNames_clean_iff_permitted (what : String)
    (allowed : Option (List String)) (declared : List String) :
    Diagnostic.anyError (checkNames what allowed [] declared) = false ↔
      Permitted allowed declared := by
  rw [checkNames_clean_iff]
  constructor
  · intro h list hlist name hname
    rcases h name hname with hseen | hpermits
    · exact absurd hseen List.not_mem_nil
    · exact permits_iff.mp hpermits list hlist
  · intro h name hname
    exact Or.inr (permits_iff.mpr fun list hlist => h list hlist name hname)

/-- A manifest checks clean if what it declares is allowed and its routine is
registered. -/
theorem check_clean_iff {m : Manifest} {registry : Registry}
    {references imports : Option (List String)} :
    Diagnostic.anyError (m.check registry references imports) = false ↔
      Permitted references m.references ∧ Permitted imports m.imports ∧
        registry.contains m.entry.routine = true := by
  unfold check
  rw [Diagnostic.anyError_append, Diagnostic.anyError_append, Bool.or_eq_false_iff,
    Bool.or_eq_false_iff, checkNames_clean_iff_permitted,
    checkNames_clean_iff_permitted, and_assoc]
  have hroutine : Diagnostic.anyError
      (if registry.contains m.entry.routine then []
        else [unknownRoutine m.entry]) = false ↔
        registry.contains m.entry.routine = true := by
    cases registry.contains m.entry.routine with
    | true => exact ⟨fun _ => rfl, fun _ => rfl⟩
    | false => exact ⟨nofun, nofun⟩
  rw [hroutine]

/-- What a source that is no manifest is met with tells the fault of reading
it. -/
theorem fault_of_parse_error {source : String} {d : Diagnostic}
    (h : parse source = .error d) :
    ∃ fault, codec.readDocument (Json.symbolsOfText source) = .error fault ∧
      d = diagnose (Json.symbolsOfText source) fault := by
  unfold parse at h
  cases hread : codec.readDocument (Json.symbolsOfText source) with
  | ok m =>
    simp only [hread] at h
    cases h
  | error fault =>
    simp only [hread] at h
    cases h
    exact ⟨fault, rfl, rfl⟩

/-- It is an error. -/
theorem severity_of_parse_error {source : String} {d : Diagnostic}
    (h : parse source = .error d) :
    d.severity = .error := by
  obtain ⟨fault, -, rfl⟩ := fault_of_parse_error h
  rfl

/-! ## Declaring -/

/-- Support topics are collected one after the other. -/
theorem gather_supportTopics (entry : String) (rest : List Attribute)
    (found : Metadata) :
    ∀ ts topics : List SupportTopic,
      Metadata.gather entry (ts.map .supportTopic ++ rest) found topics =
        Metadata.gather entry rest found (topics ++ ts) := by
  intro ts
  induction ts with
  | nil => intro topics; rw [List.map_nil, List.nil_append, List.append_nil]
  | cons t ts ih =>
    intro topics
    rw [List.map_cons, List.cons_append, Metadata.gather, ih, List.append_assoc]
    rfl

/-- The attributes of the filters add the filters. -/
theorem gather_filters (entry : String) (definition : Option Definition)
    (resource : Option ResourceFilter) (system : Option SystemFilter)
    (topics : List SupportTopic) :
    Metadata.gather entry
        ((resource.map Attribute.resourceFilter).toList
          ++ (system.map Attribute.systemFilter).toList) ⟨definition, none,
          none⟩ topics =
      .ok (⟨definition, resource, system⟩, topics) := by
  cases resource <;> cases system <;> rfl

/-- The attributes of a manifest fold to what it declares, under every name. -/
theorem ofAttributes_attributes (entry : String) (m : Manifest) :
    Metadata.ofAttributes entry m.attributes = .ok m.metadata := by
  obtain ⟨declaration, ⟨definition, resource, system⟩, references, imports⟩ := m
  unfold Metadata.ofAttributes attributes
  cases definition with
  | none =>
    simp only [Option.map_none, Option.getD_none, List.nil_append]
    rw [Metadata.empty, gather_filters]
    rfl
  | some d =>
    simp only [Option.map_some, Option.getD_some, definitionAttributes,
      List.cons_append, List.append_assoc]
    -- the definition goes first, without its topics, and gets them back at the
    -- end
    have hgather : Metadata.gather entry
        (.definition { d with supportTopics := [] } ::
          (d.supportTopics.map Attribute.supportTopic ++
            ((resource.map Attribute.resourceFilter).toList ++
              (system.map Attribute.systemFilter).toList))) .empty [] =
        .ok (⟨some { d with supportTopics := [] }, resource, system⟩,
          d.supportTopics) := by
      have hfresh : ¬Metadata.empty.definition.isSome = true := Bool.false_ne_true
      rw [Metadata.gather, if_neg hfresh, gather_supportTopics, List.nil_append]
      exact gather_filters entry _ resource system _
    rw [hgather]
    rfl

/-- So the entry point of a manifest never declares a kind of attribute
twice. -/
theorem metadata_entryPoint (m : Manifest) (r : Routine) :
    (m.entryPoint r).metadata = .ok m.metadata :=
  ofAttributes_attributes m.entry.name m

/-- **The image of a manifest** offers one entry point, which declares what the
manifest does, whatever the routine behind it. It is found under its name, and a
look-up by any other is an error of the unit. -/
theorem image_offers_declared (m : Manifest) (name : String) (r : Routine) :
    (∃ e, (m.image name r).resolve ⟨m.entry.name⟩ = .ok e ∧
      e.metadata = .ok m.metadata) ∧
      ∀ signature : Signature, signature.name ≠ m.entry.name →
        (m.image name r).resolve signature = .error (.compilation
          ("no entry point matching " ++ signature.render ++ " found; the unit declares '"
            ++ m.entry.name ++ "'")) := by
  constructor
  · exact ⟨m.entryPoint r, if_pos rfl, metadata_entryPoint m r⟩
  · intro signature hname
    exact if_neg hname.symm

/-- A definition with the same topic twice gets both back, and the canonical
signature finds nothing in a unit that declares another name. -/
theorem image_offers_declared_twice :
    let r : Routine := ⟨"nothing", 0, fun _ _ => .value .null⟩
    let topic : SupportTopic := ⟨"1", "100"⟩
    let d : Definition :=
      ((Definition.named "cpu" "CPU" "ops").addTopic topic).addTopic topic
    let m : Manifest := ⟨⟨"main", r.name⟩, ⟨some d, none, some ⟨⟩⟩, [], []⟩
    (∃ e, (m.image "unit" r).resolve ⟨"main"⟩ = .ok e ∧
        e.metadata = .ok ⟨some { d with supportTopics := [topic, topic] }, none,
          some ⟨⟩⟩) ∧
      (m.image "unit" r).resolve .canonical = .error (.compilation
        "no entry point matching run(..) found; the unit declares 'main'") := by
  intro r topic d m
  obtain ⟨hfound, hothers⟩ := image_offers_declared m "unit" r
  have hname : Signature.canonical.name ≠ "main" := by decide
  exact ⟨hfound, hothers .canonical hname⟩

end Manifest

end DetectorBench
