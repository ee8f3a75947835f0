import DetectorBench.Environment
import DetectorBench.Proofs.Manifest.RoundTrip
import DetectorBench.Proofs.Text.Lines
import DetectorBench.Proofs.Text.Trimming
import Mathlib.Logic.Function.Basic

/-!
# Lists of names in variables

A variable lists names as entries between commas. `Lists` says which names some
entries list: an entry of blanks lists none, any other the name that is left
without the blanks around it. Reading a text is reading the entries that it is
joined from, and there is always one way to see it as such
(`splitNames_eq_iff`).

Names that were read are fit to be listed again (`listable_of_mem_names`), and
names that are fit for it are read back from the text that joins them
(`splitNames_join`). So reading a text and joining what was read gives a normal
form of it: what is read from the two is the same.
-/

namespace DetectorBench.Environment

open Text (trimChars isBlankChar piecesAt)

/-! ## Names and entries -/

/-- A text that can be listed as a name. -/
structure Listable (name : String) : Prop where
  content : name ≠ ""
  trimmed : Text.trim name = name
  noComma : ',' ∉ name.toList

instance (name : String) : Decidable (Listable name) :=
  decidable_of_iff (name ≠ "" ∧ Text.trim name = name ∧ ',' ∉ name.toList)
    ⟨fun ⟨content, trimmed, noComma⟩ => ⟨content, trimmed, noComma⟩,
      fun ⟨content, trimmed, noComma⟩ => ⟨content, trimmed, noComma⟩⟩

/-- Entries, and the names that they list in order. -/
inductive Lists : List String → List String → Prop where
  | nil : Lists [] []
  | empty {entry : String} {entries names : List String}
    (blank : Text.isBlank entry = true) (rest : Lists entries names) :
    Lists (entry :: entries) names
  | name {before name after : String} {entries names : List String}
    (before_blank : Text.isBlank before = true)
    (after_blank : Text.isBlank after = true)
    (listable : Listable name) (rest : Lists entries names) :
    Lists ((before ++ name ++ after) :: entries) (name :: names)

/-- The text of some entries. -/
def joinEntries (entries : List String) : String :=
  ",".intercalate entries

/-- A text is blank if every character of it is. -/
theorem isBlank_iff_forall {s : String} :
    Text.isBlank s = true ↔ ∀ c ∈ s.toList, isBlankChar c = true :=
  List.all_eq_true

/-- A comma is no blank. -/
theorem comma_notMem_of_isBlank {s : String} (blank : Text.isBlank s = true) :
    ',' ∉ s.toList := by
  intro hmem
  have hcomma := isBlank_iff_forall.mp blank ',' hmem
  exact absurd hcomma (by decide)

/-- No entry holds a comma, so the text of the entries can be cut into them. -/
theorem Lists.comma_notMem {entries names : List String}
    (h : Lists entries names) :
    ∀ entry ∈ entries, ',' ∉ entry.toList := by
  induction h with
  | nil => exact fun entry hentry => absurd hentry List.not_mem_nil
  | empty blank rest ih =>
    exact List.forall_mem_cons.mpr ⟨comma_notMem_of_isBlank blank, ih⟩
  | name before_blank after_blank listable rest ih =>
    refine List.forall_mem_cons.mpr ⟨?_, ih⟩
    rw [String.toList_append, String.toList_append, List.mem_append,
      List.mem_append, not_or, not_or]
    exact ⟨⟨comma_notMem_of_isBlank before_blank, listable.noComma⟩,
      comma_notMem_of_isBlank after_blank⟩

/-- What entries list can be listed as names. -/
theorem Lists.listable {entries names : List String} (h : Lists entries names) :
    ∀ name ∈ names, Listable name := by
  induction h with
  | nil => exact fun name hname => absurd hname List.not_mem_nil
  | empty blank rest ih => exact ih
  | name before_blank after_blank listable rest ih =>
    exact List.forall_mem_cons.mpr ⟨listable, ih⟩

/-- Listable names are a list of themselves. -/
theorem Lists.ofNames {names : List String}
    (h : ∀ name ∈ names, Listable name) :
    Lists names names := by
  induction names with
  | nil => exact .nil
  | cons name names ih =>
    obtain ⟨listable, hrest⟩ := List.forall_mem_cons.mp h
    have hentry : Lists (("" ++ name ++ "") :: names) (name :: names) :=
      .name rfl rfl listable (ih hrest)
    rwa [String.empty_append, String.append_empty] at hentry

/-! ## Reading pieces -/

/-- The names in the pieces of a text. -/
def namesOf (pieces : List (List Char)) : List String :=
  ((pieces.map trimChars).filter (· ≠ [])).map String.ofList

theorem splitNames_eq_namesOf (s : String) :
    splitNames s = namesOf (piecesAt ',' s.toList) := rfl

/-- A blank piece is no name. -/
theorem namesOf_cons_blank {piece : List Char} (blank : trimChars piece = [])
    (pieces : List (List Char)) :
    namesOf (piece :: pieces) = namesOf pieces := by
  unfold namesOf
  rw [List.map_cons, blank, List.filter_cons_of_neg (by simp)]

/-- Any other piece is a name without the blanks around it. -/
theorem namesOf_cons_of_ne {piece : List Char} (content : trimChars piece ≠ [])
    (pieces : List (List Char)) :
    namesOf (piece :: pieces) = String.ofList (trimChars piece) ::
      namesOf pieces := by
  unfold namesOf
  rw [List.map_cons, List.filter_cons_of_pos (by simpa using content), List.map_cons]

/-- What is left of a piece between commas is listable, if anything is. -/
theorem listable_trimChars {piece : List Char} (content : trimChars piece ≠ [])
    (noComma : ',' ∉ piece) : Listable (String.ofList (trimChars piece)) where
  content := by
    rw [Ne, ← String.toList_inj, String.toList_ofList]
    exact content
  trimmed := by
    rw [Text.trim_eq_self_iff, String.toList_ofList]
    exact Text.trimmed_trimChars piece
  noComma := by
    have hmem : ',' ∈ (Text.trim (String.ofList piece)).toList →
        ',' ∈ (String.ofList piece).toList :=
      Text.mem_of_mem_trim
    unfold Text.trim at hmem
    rw [String.toList_ofList, String.toList_ofList] at hmem
    rw [String.toList_ofList]
    exact mt hmem noComma

/-- The names that are read from pieces are those that the pieces list. -/
theorem lists_namesOf {pieces : List (List Char)}
    (noComma : ∀ piece ∈ pieces, ',' ∉ piece) :
    Lists (pieces.map String.ofList) (namesOf pieces) := by
  induction pieces with
  | nil => exact .nil
  | cons piece pieces ih =>
    obtain ⟨hpiece, hpieces⟩ := List.forall_mem_cons.mp noComma
    have hrest := ih hpieces
    rw [List.map_cons]
    by_cases hblank : trimChars piece = []
    · rw [namesOf_cons_blank hblank]
      refine .empty (isBlank_iff_forall.mpr ?_) hrest
      rw [String.toList_ofList]
      exact Text.trimChars_eq_nil_iff.mp hblank
    · obtain ⟨before, after, hbefore, hafter, hsplit⟩ :=
        Text.exists_blanks_around piece
      have hentry : String.ofList piece =
          String.ofList before ++ String.ofList (trimChars piece) ++
            String.ofList after := by
        rw [← String.ofList_append, ← String.ofList_append, ← hsplit]
      rw [namesOf_cons_of_ne hblank, hentry]
      refine .name (isBlank_iff_forall.mpr ?_) (isBlank_iff_forall.mpr ?_)
        (listable_trimChars hblank hpiece) hrest
      · rwa [String.toList_ofList]
      · rwa [String.toList_ofList]

/-- And entries list no other names. -/
theorem Lists.namesOf_eq {entries names : List String}
    (h : Lists entries names) :
    namesOf (entries.map String.toList) = names := by
  induction h with
  | nil => rfl
  | empty blank rest ih =>
    rw [List.map_cons, namesOf_cons_blank
      (Text.trimChars_eq_nil_iff.mpr (isBlank_iff_forall.mp blank)), ih]
  | @name before name after entries names before_blank after_blank listable rest
      ih =>
    have htrim : trimChars (before ++ name ++ after).toList = name.toList := by
      rw [String.toList_append, String.toList_append]
      exact Text.trimChars_blanks_around (Text.trim_eq_self_iff.mp listable.trimmed)
        (isBlank_iff_forall.mp before_blank) (isBlank_iff_forall.mp after_blank)
    have hcontent : trimChars (before ++ name ++ after).toList ≠ [] := by
      rw [htrim]
      exact mt String.toList_eq_nil_iff.mp listable.content
    rw [List.map_cons, namesOf_cons_of_ne hcontent, htrim, ih, String.ofList_toList]

/-! ## Reading texts -/

/-- A text is cut into the entries that it was joined from, if there are any. -/
theorem piecesAt_joinEntries {entries : List String}
    (noComma : ∀ entry ∈ entries, ',' ∉ entry.toList) (hne : entries ≠ []) :
    piecesAt ',' (joinEntries entries).toList = entries.map String.toList := by
  unfold joinEntries
  rw [Text.piecesAt_eq_splitOn, String.toList_intercalate]
  exact List.splitOn_intercalate ',' (List.forall_mem_map.mpr noComma)
    (mt List.map_eq_nil_iff.mp hne)

/-- No piece between commas holds a comma. -/
theorem comma_notMem_of_mem_piecesAt {cs piece : List Char}
    (h : piece ∈ piecesAt ',' cs) :
    ',' ∉ piece :=
  fun hmem => (Text.exists_mem_piecesAt_iff.mp ⟨piece, h, hmem⟩).2 rfl

/-- The pieces of a text join to the text. -/
theorem joinEntries_piecesAt (s : String) :
    joinEntries ((piecesAt ',' s.toList).map String.ofList) = s := by
  have hpieces : ((piecesAt ',' s.toList).map String.ofList).map String.toList =
      piecesAt ',' s.toList := by
    rw [List.map_map]
    exact (List.map_congr_left fun piece _ => String.toList_ofList).trans
      (List.map_id _)
  unfold joinEntries
  rw [← String.toList_inj, String.toList_intercalate, hpieces,
    Text.piecesAt_eq_splitOn]
  exact List.intercalate_splitOn ','

/-- **What a text lists.** Some names are read from a text exactly if it is
joined from entries that list them. -/
theorem splitNames_eq_iff {text : String} {names : List String} :
    splitNames text = names ↔ ∃ entries, text = joinEntries entries ∧
      Lists entries names := by
  constructor
  · rintro rfl
    exact ⟨(piecesAt ',' text.toList).map String.ofList,
      (joinEntries_piecesAt text).symm,
      lists_namesOf fun piece => comma_notMem_of_mem_piecesAt⟩
  · rintro ⟨entries, rfl, hlists⟩
    cases entries with
    | nil =>
      cases hlists
      rfl
    | cons entry entries =>
      rw [splitNames_eq_namesOf, piecesAt_joinEntries hlists.comma_notMem
        (List.cons_ne_nil _ _)]
      exact hlists.namesOf_eq

/-- **Reading the text of entries gives the names that they list.** -/
theorem splitNames_joinEntries {entries names : List String}
    (h : Lists entries names) :
    splitNames (joinEntries entries) = names :=
  splitNames_eq_iff.mpr ⟨entries, rfl, h⟩

/-- A name that was read can be listed again. -/
theorem listable_of_mem_splitNames {text name : String}
    (h : name ∈ splitNames text) :
    Listable name := by
  obtain ⟨entries, -, hlists⟩ :=
    splitNames_eq_iff.mp (rfl : splitNames text = splitNames text)
  exact hlists.listable name h

/-- Listable names are read back from the text that joins them. -/
theorem splitNames_join {names : List String}
    (h : ∀ name ∈ names, Listable name) :
    splitNames (joinEntries names) = names :=
  splitNames_joinEntries (.ofNames h)

example : splitNames " b,, c\u00A0 ,\u3000,a b" = ["b", "c", "a b"] := by decide

/-- Nothing is read from a text of commas and blanks, and something from any
other. -/
theorem splitNames_eq_nil_iff {text : String} :
    splitNames text = [] ↔ ∀ c ∈ text.toList, c = ',' ∨ isBlankChar c = true := by
  have hnames : splitNames text = [] ↔ ∀ piece ∈ piecesAt ',' text.toList,
      trimChars piece = [] := by
    rw [splitNames_eq_namesOf]
    simp [namesOf]
  simp only [hnames, Text.trimChars_eq_nil_iff]
  constructor
  · intro hblank c hc
    by_cases hcomma : c = ','
    · exact .inl hcomma
    · obtain ⟨piece, hpiece, hmem⟩ := Text.exists_mem_piecesAt_iff.mpr ⟨hc, hcomma⟩
      exact .inr (hblank piece hpiece c hmem)
  · intro hblank piece hpiece c hmem
    obtain ⟨hc, hcomma⟩ := Text.exists_mem_piecesAt_iff.mp ⟨piece, hpiece, hmem⟩
    exact (hblank c hc).resolve_left hcomma

/-! ## Variables -/

variable (env : Environment)

/-- The environment with another value of a variable, or without it. -/
def put (name : String) (value : Option ByteArray) : Environment :=
  ⟨Function.update env.raw name value⟩

/-- The environment with a variable set to a text. -/
def set (name text : String) : Environment :=
  env.put name (some text.toUTF8)

theorem raw_put (name : String) (value : Option ByteArray) :
    (env.put name value).raw name = value := by
  unfold put
  exact Function.update_self name value env.raw

/-- Other variables keep their values. -/
theorem raw_put_of_ne {name other : String} (h : other ≠ name)
    (value : Option ByteArray) :
    (env.put name value).raw other = env.raw other := by
  unfold put
  exact Function.update_of_ne h value env.raw

/-- The names in a variable are those that its text lists. -/
theorem names_set (name text : String) :
    (env.set name text).names name = splitNames text := by
  unfold names value? set
  rw [raw_put, Option.bind_some, Manifest.fromUTF8?_toUTF8]
  rfl

/-- Whatever a variable is set to, the names in it are listable. -/
theorem listable_of_mem_names {name listed : String}
    (h : listed ∈ env.names name) :
    Listable listed := by
  unfold names at h
  cases hvalue : env.value? name with
  | some text =>
    rw [hvalue] at h
    exact listable_of_mem_splitNames h
  | none =>
    rw [hvalue] at h
    exact absurd h List.not_mem_nil

end DetectorBench.Environment
