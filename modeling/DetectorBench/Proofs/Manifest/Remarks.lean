import DetectorBench.Proofs.Manifest.Outcome
import Mathlib.Data.List.Basic
import Mathlib.Data.List.Induction

/-!
# What there is to say about a manifest

A check walks over the declared names with the list of those it has seen. Seen
from outside there is no such list: what is said at a position depends on the
name there and on the names before it (`remark`), and a check says this position
by position (`check_eq_remarks`). So a name is reported as not permitted once,
where it is declared for the first time (`errors_remarks`).

Of an allow-list only its members count. Where more is allowed or more routines
are registered, errors are dropped and everything else is said as before, in the
same order (`LosesErrors`); this is shown for the remark at one position and
carried over lists by `LosesErrors.flatMap`.
-/

namespace DetectorBench

/-! ## Registering more routines -/

namespace Registry

/-- A registry contains the names of its routines. -/
theorem contains_iff {g : Registry} {name : String} :
    g.contains name = true ↔ ∃ r ∈ g.routines, r.name = name := by
  unfold contains get?
  rw [List.find?_isSome]
  simp

/-- Sorting a routine in loses no name, also where it takes the place of another
one. -/
theorem exists_mem_insertSorted (r : Routine) (name : String)
    (rs : List Routine) :
    (∃ s ∈ r.insertSorted rs, s.name = name) ↔ r.name = name ∨ ∃ s ∈ rs,
      s.name = name := by
  induction rs with
  | nil => simp [Routine.insertSorted]
  | cons s rest ih =>
    unfold Routine.insertSorted
    by_cases hlt : r.name < s.name
    · rw [if_pos hlt]
      simp
    · rw [if_neg hlt]
      by_cases heq : r.name = s.name
      · rw [if_pos heq]
        simp [heq]
      · rw [if_neg heq]
        simp only [List.mem_cons, exists_eq_or_imp, ih]
        exact or_left_comm

/-- Registering a routine adds its name to them. -/
theorem contains_insert {g : Registry} {r : Routine} {name : String} :
    (g.insert r).contains name = true ↔ r.name = name ∨ g.contains name = true := by
  rw [contains_iff, contains_iff]
  exact exists_mem_insertSorted r name g.routines

/-- A name that is registered stays so. -/
theorem contains_insertAll {g : Registry} {name : String}
    (h : g.contains name = true) (rs : List Routine) :
    (g.insertAll rs).contains name = true := by
  induction rs generalizing g with
  | nil => exact h
  | cons r rs ih => exact ih (contains_insert.mpr (Or.inr h))

end Registry

namespace Manifest

/-! ## Position by position -/

/-- What there is to say about a declared name, those declared before it being
`earlier`. -/
def remark (what : String) (allowed : Option (List String))
    (earlier : List String) (name : String) : List Diagnostic :=
  if name ∈ earlier then [.warning ("duplicate " ++ what ++ " '" ++ name ++ "'")]
  else if ∃ list ∈ allowed, name ∉ list then
    [.error (what ++ " '" ++ name ++ "' is not permitted for this detector")]
  else []

/-- What there is to say about declared names: the remarks at all positions, in
their order. -/
def remarks (what : String) (allowed : Option (List String))
    (declared : List String) :
    List Diagnostic :=
  declared.zipIdx.flatMap fun (name, i) => remark what allowed (declared.take i) name

/-- A name is not permitted if there is a list and the name is not on it. -/
theorem permits_eq_false_iff {allowed : Option (List String)} {name : String} :
    permits allowed name = false ↔ ∃ list ∈ allowed, name ∉ list := by
  rw [Bool.eq_false_iff, Ne, permits_iff]
  simp

/-- A walk over names says what there is to say at its first position, and goes
on behind it. -/
theorem checkNames_cons (what : String) (allowed : Option (List String))
    {seen earlier : List String} (hseen : ∀ name, name ∈ seen ↔ name ∈ earlier)
    (name : String) (rest : List String) :
    ∃ seen', (∀ other, other ∈ seen' ↔ other ∈ earlier ++ [name]) ∧
      checkNames what allowed seen (name :: rest) =
        remark what allowed earlier name ++ checkNames what allowed seen' rest := by
  rw [checkNames, remark]
  by_cases hname : name ∈ seen
  · refine ⟨seen, ?_, ?_⟩
    · intro other
      rw [List.mem_append, List.mem_singleton, ← hseen]
      constructor
      · exact Or.inl
      · intro hother
        rcases hother with hother | rfl
        · exact hother
        · exact hname
    · rw [if_pos (List.contains_iff_mem.mpr hname), if_pos ((hseen name).mp hname)]
      rfl
  · refine ⟨name :: seen, ?_, ?_⟩
    · intro other
      rw [List.mem_cons, List.mem_append, List.mem_singleton, ← hseen]
      exact or_comm
    · rw [if_neg (mt List.contains_iff_mem.mp hname),
        if_neg (mt (hseen name).mpr hname)]
      by_cases hallowed : permits allowed name = true
      · have hinside : ¬∃ list ∈ allowed, name ∉ list := by
          rw [← permits_eq_false_iff, hallowed]
          exact Bool.noConfusion
        rw [if_pos hallowed, if_neg hinside]
        rfl
      · have houtside := permits_eq_false_iff.mp ((Bool.not_eq_true _).mp hallowed)
        rw [if_neg hallowed, if_pos houtside]
        rfl

/-- The induction is on the names that are left, `earlier` being those that were
passed. -/
theorem checkNames_eq_flatMap (what : String) (allowed : Option (List String)) :
    ∀ (rest earlier seen : List String), (∀ name, name ∈ seen ↔ name ∈ earlier) →
      checkNames what allowed seen rest =
        (rest.zipIdx earlier.length).flatMap fun (name, i) =>
          remark what allowed ((earlier ++ rest).take i) name := by
  intro rest
  induction rest with
  | nil => intro earlier seen _; rfl
  | cons name rest ih =>
    intro earlier seen hseen
    obtain ⟨seen', hseen', heq⟩ := checkNames_cons what allowed hseen name rest
    have hrest := ih (earlier ++ [name]) seen' hseen'
    rw [List.length_append, List.length_singleton, List.append_assoc,
      List.singleton_append] at hrest
    have hfront : (earlier ++ name :: rest).take earlier.length = earlier :=
      List.take_left
    rw [heq, hrest, List.zipIdx_cons, List.flatMap_cons]
    dsimp only
    rw [hfront]

/-- A check of names says the remarks at all positions. -/
theorem checkNames_eq_remarks (what : String) (allowed : Option (List String))
    (declared : List String) :
    checkNames what allowed [] declared = remarks what allowed declared :=
  checkNames_eq_flatMap what allowed declared [] [] fun _ => Iff.rfl

/-- A check says what there is to say, position by position, and last whether
the routine is unknown. -/
theorem check_eq_remarks (m : Manifest) (registry : Registry)
    (references imports : Option (List String)) :
    m.check registry references imports =
      remarks "reference" references m.references
        ++ remarks "import" imports m.imports
        ++ (if registry.contains m.entry.routine then []
          else [unknownRoutine m.entry]) := by
  unfold check
  rw [checkNames_eq_remarks, checkNames_eq_remarks]

/-! ## The names reported -/

/-- The declared names outside an allow-list, in the order in which they are
declared first. -/
def outside (allowed : Option (List String)) (declared : List String) :
    List String :=
  declared.eraseDups.filter fun name => ∃ list ∈ allowed, name ∉ list

/-- Outside a list are the names that were declared and are not on it. -/
theorem mem_outside {allowed : Option (List String)} {declared : List String}
    {name : String} :
    name ∈ outside allowed declared ↔ name ∈ declared ∧ ∃ list ∈ allowed,
      name ∉ list := by
  unfold outside
  rw [List.mem_filter, List.mem_eraseDups, decide_eq_true_iff]

theorem nodup_eraseDups : ∀ names : List String, names.eraseDups.Nodup
  | [] => List.nodup_nil
  | name :: rest => by
    rw [List.eraseDups_cons, List.nodup_cons, List.mem_eraseDups]
    refine ⟨?_, nodup_eraseDups _⟩
    simp
termination_by names => names.length
decreasing_by exact Nat.lt_succ_of_le (List.length_filter_le _ _)

/-- Each of them is named once. -/
theorem nodup_outside (allowed : Option (List String))
    (declared : List String) :
    (outside allowed declared).Nodup :=
  (nodup_eraseDups declared).filter _

/-- One name more is reported if it is outside and was not declared before. -/
theorem outside_concat (allowed : Option (List String)) (declared : List String)
    (name : String) :
    outside allowed (declared ++ [name]) =
      outside allowed declared ++
        if name ∉ declared ∧ ∃ list ∈ allowed, name ∉ list then [name] else [] := by
  unfold outside
  rw [List.eraseDups_append, List.filter_append]
  congr 1
  by_cases hname : name ∈ declared
  · have hnone : [name].removeAll declared = [] := by simp [List.removeAll, hname]
    rw [hnone, if_neg fun h => h.1 hname]
    rfl
  · have hone : [name].removeAll declared = [name] := by simp [List.removeAll, hname]
    have heq : [name].eraseDups = [name] := rfl
    rw [hone, heq]
    simp [hname, List.filter_cons]

/-- The remarks at the positions of a front are those of the front alone. -/
theorem remarks_concat (what : String) (allowed : Option (List String))
    (declared : List String) (name : String) :
    remarks what allowed (declared ++ [name]) =
      remarks what allowed declared ++ remark what allowed declared name := by
  unfold remarks
  rw [List.zipIdx_append, List.flatMap_append]
  congr 1
  · apply List.flatMap_congr
    intro p hp
    have hlt : p.2 < declared.length := (List.mem_zipIdx' hp).1
    dsimp only
    rw [List.take_append_of_le_length (Nat.le_of_lt hlt)]
  · simp

/-- So every name outside the allow-list is reported, and each of them once. -/
theorem errors_remarks (what : String) (allowed : Option (List String))
    (declared : List String) :
    (remarks what allowed declared).filter Diagnostic.isError =
      (outside allowed declared).map (forbiddenError what) := by
  induction declared using List.reverseRecOn with
  | nil => rfl
  | append_singleton declared name ih =>
    rw [remarks_concat, outside_concat, List.filter_append, List.map_append, ih]
    congr 1
    unfold remark
    by_cases hname : name ∈ declared
    · rw [if_pos hname, if_neg fun h => h.1 hname]
      rfl
    · rw [if_neg hname]
      by_cases houtside : ∃ list ∈ allowed, name ∉ list
      · rw [if_pos houtside, if_pos ⟨hname, houtside⟩]
        rfl
      · rw [if_neg houtside, if_neg fun h => houtside h.2]
        rfl

/-! ## More that is allowed -/

/-- Everything that one list of diagnostics says is said by another one in the
same order, or is an error. -/
inductive LosesErrors : List Diagnostic → List Diagnostic → Prop where
  | nil : LosesErrors [] []
  | keep {ds ds' : List Diagnostic} (d : Diagnostic)
    (rest : LosesErrors ds ds') :
    LosesErrors (d :: ds) (d :: ds')
  | lose {ds ds' : List Diagnostic} {d : Diagnostic}
    (error : d.severity = .error) (rest : LosesErrors ds ds') :
    LosesErrors (d :: ds) ds'

/-- Dropping nothing is dropping errors only. -/
theorem losesErrors_refl : ∀ ds : List Diagnostic, LosesErrors ds ds
  | [] => .nil
  | d :: ds => .keep d (losesErrors_refl ds)

/-- Errors may be dropped in two parts of a list. -/
theorem LosesErrors.append {as as' bs bs' : List Diagnostic}
    (ha : LosesErrors as as') (hb : LosesErrors bs bs') :
    LosesErrors (as ++ bs) (as' ++ bs') := by
  induction ha with
  | nil => exact hb
  | keep d _ ih => exact .keep d ih
  | lose error _ ih => exact .lose error ih

/-- If errors are dropped at every position, they are dropped from the whole. -/
theorem LosesErrors.flatMap {α : Type} {f f' : α → List Diagnostic}
    (h : ∀ x, LosesErrors (f x) (f' x)) :
      ∀ xs : List α, LosesErrors (xs.flatMap f) (xs.flatMap f')
  | [] => .nil
  | x :: xs => by
    rw [List.flatMap_cons, List.flatMap_cons]
    exact (h x).append (LosesErrors.flatMap h xs)

/-- Where there was no error, the same is said. -/
theorem LosesErrors.eq_of_clean {ds ds' : List Diagnostic}
    (h : LosesErrors ds ds') (clean : ¬∃ d ∈ ds, d.severity = .error) :
    ds' = ds := by
  induction h with
  | nil => rfl
  | keep d _ ih =>
    rw [ih]
    intro herror
    obtain ⟨e, he, hseverity⟩ := herror
    exact clean ⟨e, List.mem_cons_of_mem d he, hseverity⟩
  | lose error => exact absurd ⟨_, List.mem_cons_self, error⟩ clean

/-- One allow-list allows what another one does; no list allows everything. -/
def Loosens (allowed allowed' : Option (List String)) : Prop :=
  ∀ list' ∈ allowed', ∃ list ∈ allowed, list ⊆ list'

/-- Where more is allowed, the remark at a position is the same or an error is
dropped. -/
theorem remark_loosened (what : String)
    {allowed allowed' : Option (List String)} (h : Loosens allowed allowed')
    (earlier : List String) (name : String) :
    LosesErrors (remark what allowed earlier name)
      (remark what allowed' earlier name) := by
  unfold remark
  by_cases hname : name ∈ earlier
  · rw [if_pos hname, if_pos hname]
    exact losesErrors_refl _
  · rw [if_neg hname, if_neg hname]
    by_cases houtside' : ∃ list ∈ allowed', name ∉ list
    · -- what is outside the longer list is outside the shorter one
      have houtside : ∃ list ∈ allowed, name ∉ list := by
        obtain ⟨list', hlist', hout⟩ := houtside'
        obtain ⟨list, hlist, hsubset⟩ := h list' hlist'
        exact ⟨list, hlist, fun hmem => hout (hsubset hmem)⟩
      rw [if_pos houtside', if_pos houtside]
      exact losesErrors_refl _
    · rw [if_neg houtside']
      by_cases houtside : ∃ list ∈ allowed, name ∉ list
      · rw [if_pos houtside]
        exact .lose rfl .nil
      · rw [if_neg houtside]
        exact .nil

/-- So it is with the remarks at all positions. -/
theorem remarks_loosened (what : String)
    {allowed allowed' : Option (List String)} (h : Loosens allowed allowed')
    (declared : List String) :
    LosesErrors (remarks what allowed declared)
      (remarks what allowed' declared) := by
  unfold remarks
  apply LosesErrors.flatMap
  intro p
  exact remark_loosened what h (declared.take p.2) p.1

/-- Of an allow-list only the members count, not their order or how often they
are listed. -/
def SameMembers (allowed allowed' : Option (List String)) : Prop :=
  Option.Rel (fun list list' => ∀ name, name ∈ list ↔ name ∈ list') allowed allowed'

/-- The remark at a position does not depend on the order of a list or on
repetitions. -/
theorem remark_sameMembers (what : String)
    {allowed allowed' : Option (List String)} (h : SameMembers allowed allowed')
    (earlier : List String) (name : String) :
    remark what allowed' earlier name = remark what allowed earlier name := by
  have houtside : (∃ list ∈ allowed', name ∉ list) ↔
      ∃ list ∈ allowed, name ∉ list := by
    cases h with
    | none => exact Iff.rfl
    | some hmembers => simp [hmembers name]
  unfold remark
  simp only [houtside]

/-- Larger lists and more routines drop errors from a check and change nothing
else. -/
theorem check_loosened (m : Manifest) (registry : Registry)
    (routines : List Routine)
    {references references' imports imports' : Option (List String)}
    (hreferences : Loosens references references')
    (himports : Loosens imports imports') :
    LosesErrors (m.check registry references imports)
      (m.check (registry.insertAll routines) references' imports') := by
  rw [check_eq_remarks, check_eq_remarks]
  refine ((remarks_loosened _ hreferences _).append
    (remarks_loosened _ himports _)).append ?_
  by_cases hroutine : registry.contains m.entry.routine = true
  · rw [if_pos hroutine, if_pos (Registry.contains_insertAll hroutine routines)]
    exact .nil
  · rw [if_neg hroutine]
    by_cases hroutine' :
      (registry.insertAll routines).contains m.entry.routine = true
    · rw [if_pos hroutine']
      exact .lose rfl .nil
    · rw [if_neg hroutine']
      exact losesErrors_refl _

/-- A check does not depend on the order of the lists or on repetitions in
them. -/
theorem check_sameMembers (m : Manifest) (registry : Registry)
    {references references' imports imports' : Option (List String)}
    (hreferences : SameMembers references references')
    (himports : SameMembers imports imports') :
    m.check registry references' imports' = m.check registry references imports := by
  rw [check_eq_remarks, check_eq_remarks]
  unfold remarks
  simp only [remark_sameMembers _ hreferences, remark_sameMembers _ himports]

/-- A manifest that is accepted stays so. -/
theorem Accepted.loosened {registry : Registry} {source : String}
    {references references' imports imports' : Option (List String)}
    {m : Manifest} (h : Accepted registry source references imports m)
    (hreferences : Loosens references references')
    (himports : Loosens imports imports') (routines : List Routine) :
    Accepted (registry.insertAll routines) source references' imports' m where
  parsed := h.parsed
  references list' hlist' name hname := by
    obtain ⟨list, hlist, hsubset⟩ := hreferences list' hlist'
    exact hsubset (h.references list hlist name hname)
  imports list' hlist' name hname := by
    obtain ⟨list, hlist, hsubset⟩ := himports list' hlist'
    exact hsubset (h.imports list hlist name hname)
  routine := Registry.contains_insertAll h.routine routines
  entry := h.entry

/-! ## The diagnostics of a manifest -/

/-- **What is said of a source that is a manifest**, with any routines and any
allow-lists: what there is to say at each position of its references, then of
its imports, and last whether its routine is unknown. So the names reported as
not permitted are those outside the allow-list, each of them once. Of an
allow-list only the members count; and with more allowed, or more routines
registered, only errors are lost, and a source that was accepted is met with the
same words and accepted again. -/
theorem manifest_remarked {source : String} {m : Manifest}
    (parsed : parse source = .ok m) (registry : Registry) (extension : String)
    (references imports : Option (List String)) :
    let said (registry : Registry) (references imports : Option (List String)) :=
      (Compilation.ofSource registry extension source references imports).diagnostics
    let unknown :=
      if registry.contains m.entry.routine then []
      else [Diagnostic.error
        ("entry point '" ++ m.entry.name ++ "' is bound to unknown routine '"
        ++ m.entry.routine ++ "'")]
    let ds := said registry references imports
    ds = remarks "reference" references m.references
        ++ remarks "import" imports m.imports ++ unknown ∧
    (ds.filter Diagnostic.isError =
        (outside references m.references).map (forbiddenError "reference")
          ++ (outside imports m.imports).map (forbiddenError "import") ++ unknown ∧
      ∀ allowed declared, (outside allowed declared).Nodup ∧
        ∀ name, name ∈ outside allowed declared ↔
          name ∈ declared ∧ ∃ list, allowed = some list ∧ name ∉ list) ∧
    (∀ references' imports', SameMembers references references' →
      SameMembers imports imports' →
      said registry references' imports' = ds) ∧
    ∀ references' imports' routines, Loosens references references' →
      Loosens imports imports' →
      let ds' := said (registry.insertAll routines) references' imports'
      LosesErrors ds ds' ∧ ((¬∃ d ∈ ds, d.severity = .error) → ds' = ds) ∧
        (Accepted registry source references imports m →
          Accepted (registry.insertAll routines) source references' imports' m) := by
  intro said unknown ds
  have hsaid : ∀ registry references imports,
      said registry references imports = m.check registry references imports :=
    fun registry references imports =>
      congrArg Compilation.diagnostics (Compilation.ofSource_of_parse parsed ..)
  have hds : ds = remarks "reference" references m.references
      ++ remarks "import" imports m.imports ++ unknown :=
    (hsaid ..).trans (check_eq_remarks ..)
  refine ⟨hds, ⟨?_, ?_⟩, ?_, ?_⟩
  · have hunknown : unknown.filter Diagnostic.isError = unknown := by
      dsimp only [unknown]
      split <;> rfl
    rw [hds, List.filter_append, List.filter_append, errors_remarks,
      errors_remarks, hunknown]
  · intro allowed declared
    exact ⟨nodup_outside allowed declared, fun _ => mem_outside⟩
  · intro references' imports' hreferences himports
    exact (hsaid ..).trans
      ((check_sameMembers m registry hreferences himports).trans (hsaid ..).symm)
  · intro references' imports' routines hreferences himports ds'
    have hloses : LosesErrors ds ds' := by
      have h := check_loosened m registry routines hreferences himports
      rw [← hsaid, ← hsaid] at h
      exact h
    exact ⟨hloses, hloses.eq_of_clean, fun h => h.loosened hreferences himports
      routines⟩

/-- A manifest that declares two names twice and is bound to a routine that is
not registered: a name that may not be used is reported once, and is let through
when the list is longer. -/
theorem manifest_remarked_twice :
    ∃ source m,
      let said (registry : Registry) (references : Option (List String)) :=
        (Compilation.ofSource registry "unit" source references none).diagnostics
      parse source = .ok m ∧
        said .empty (some ["b"]) =
          [forbiddenError "reference" "a", duplicateWarning "reference" "b",
            duplicateWarning "reference" "a", unknownRoutine m.entry] ∧
        LosesErrors (said .empty (some ["b"]))
          (said (Registry.empty.insertAll [⟨"r", 0, fun _ _ => .value .null⟩])
            (some ["a", "b", "a"])) := by
  have parsed :
      parse
        "\x7b\"entry\":\x7b\"routine\":\"r\"\x7d,\"references\":[\"a\",\"b\",\"b\",\"a\"]\x7d" =
        .ok ⟨⟨"run", "r"⟩, .empty, ["a", "b", "b", "a"], []⟩ := rfl
  obtain ⟨hsaid, -, -, hloosened⟩ :=
    manifest_remarked parsed .empty "unit" (some ["b"]) none
  refine ⟨_, _, parsed, hsaid.trans (by decide), ?_⟩
  refine (hloosened (some ["a", "b", "a"])
    none [⟨"r", 0, fun _ _ => .value .null⟩] ?_ ?_).1
  · intro list' hlist'
    cases hlist'
    exact ⟨["b"], rfl, by simp⟩
  · exact nofun

end Manifest

end DetectorBench
