import DetectorBench.Artifact
import DetectorBench.Proofs.Metadata.Precedence
import DetectorBench.Proofs.Text.Trimming

/-!
# The stems of file names

The stem of a file name is the trimmed id with every character replaced that the
default rules refuse, or the front of the digest where there is no id to speak
of. The rules that a host validates by test the same class of characters, but
they test the id as it was written. Since trimming only takes away, an id that
passes is its own stem once it is trimmed (`stem_of_sound`); and since replacing
is the identity on just the texts that pass (`sanitize_eq_self_iff`), no stem is
ever in need of replacing again.
-/

namespace DetectorBench

/-! ## Digests -/

namespace Sha256

/-- A digest has 64 hexadecimal digits. -/
theorem length_hexDigest (bytes : List UInt8) : (hexDigest bytes).length = 64 :=
  rfl

/-- A digest is written with digits and small letters. -/
theorem mem_hexDigest {bytes : List UInt8} {c : Char}
    (h : c ∈ hexDigest bytes) :
    c ∈ "0123456789abcdef".toList := by
  have hdigit : ∀ d, d < 16 → Nat.digitChar d ∈ "0123456789abcdef".toList := by
    decide
  obtain ⟨w, -, hc⟩ := List.mem_flatMap.mp h
  obtain ⟨shift, -, rfl⟩ := List.mem_map.mp hc
  exact hdigit _ (Nat.mod_lt _ (by decide))

end Sha256

namespace Artifact

open Text (HasContent Trimmed trim trimChars mem_of_mem_trim
  trimChars_eq_nil_iff trimmed_trim
  trim_eq_self_iff trim_ne_empty_iff)

/-! ## Replacing -/

/-- A character that no file name may hold. -/
def Reserved (c : Char) : Prop :=
  Text.isControl c = true ∨ c ∈ Rules.defaultReserved.toList

/-- The default rules refuse the reserved characters. -/
theorem refuses_iff_reserved {c : Char} :
    Rules.default.refuses c = true ↔ Reserved c :=
  Rules.refuses_iff

/-- What replaces a character need not be replaced. -/
theorem not_reserved_underscore : ¬Reserved '_' := by
  rw [← refuses_iff_reserved]
  decide

/-- The default rules spare a text without reserved characters. -/
theorem spares_iff {s : String} :
    Rules.default.Spares s ↔ ∀ c ∈ s.toList, ¬Reserved c := by
  rw [← Rules.refused?_eq_none_iff, Rules.refused?, List.find?_eq_none]
  simp only [refuses_iff_reserved]

/-- Replacing keeps the number of characters. -/
theorem length_sanitize (cs : List Char) : (sanitize cs).length = cs.length :=
  List.length_map _

/-- After replacing nothing reserved is left, the underscore being none of
it. -/
theorem not_reserved_of_mem_sanitize {cs : List Char} {c : Char}
    (h : c ∈ sanitize cs) :
    ¬Reserved c := by
  obtain ⟨old, -, rfl⟩ := List.mem_map.mp h
  by_cases hold : Rules.default.refuses old = true
  · rw [if_pos hold]
    exact not_reserved_underscore
  · rw [if_neg hold]
    exact refuses_iff_reserved.not.mp hold

/-- Replacing changes nothing exactly where nothing is reserved. -/
theorem sanitize_eq_self_iff {cs : List Char} :
    sanitize cs = cs ↔ ∀ c ∈ cs, ¬Reserved c := by
  constructor
  · intro h c hc
    exact not_reserved_of_mem_sanitize (h.symm ▸ hc)
  · intro h
    have hkeep : ∀ c ∈ cs, (if Rules.default.refuses c then '_' else c) = id c :=
      fun c hc => if_neg (refuses_iff_reserved.not.mpr (h c hc))
    exact (List.map_congr_left hkeep).trans (List.map_id cs)

/-- What stands at an index is replaced if it is reserved, and is kept if it is
not. -/
theorem getElem?_sanitize_of_reserved {cs : List Char} {i : Nat} {c : Char}
    (hi : cs[i]? = some c) (hc : Reserved c) :
    (sanitize cs)[i]? = some '_' := by
  unfold sanitize
  rw [List.getElem?_map, hi, Option.map_some, if_pos (refuses_iff_reserved.mpr hc)]

/-- A character that is not reserved stays where it is. -/
theorem getElem?_sanitize_of_not_reserved {cs : List Char} {i : Nat} {c : Char}
    (hi : cs[i]? = some c) (hc : ¬Reserved c) : (sanitize cs)[i]? = some c := by
  unfold sanitize
  rw [List.getElem?_map, hi, Option.map_some,
    if_neg (refuses_iff_reserved.not.mpr hc)]

/-- A difference at an index means that a reserved character stands there. -/
theorem getElem?_sanitize_ne_iff {cs : List Char} {i : Nat} :
    (sanitize cs)[i]? ≠ cs[i]? ↔ ∃ c, cs[i]? = some c ∧ Reserved c := by
  constructor
  · intro hne
    cases hi : cs[i]? with
    | none =>
      have hlen := List.getElem?_eq_none_iff.mp hi
      rw [hi, List.getElem?_eq_none_iff.mpr
        (by rw [length_sanitize]; exact hlen)] at hne
      exact absurd rfl hne
    | some c =>
      by_contra hnot
      have hc : ¬Reserved c := fun hc => hnot ⟨c, rfl, hc⟩
      rw [hi, getElem?_sanitize_of_not_reserved hi hc] at hne
      exact hne rfl
  · rintro ⟨c, hi, hc⟩ heq
    rw [hi, getElem?_sanitize_of_reserved hi hc] at heq
    cases heq
    exact not_reserved_underscore hc

/-- Neither end becomes blank by replacing. -/
theorem trimmed_sanitize {cs : List Char} (h : Trimmed cs) :
    Trimmed (sanitize cs) := by
  have hkeep : ∀ c, Text.isBlankChar c = false →
      Text.isBlankChar (if Rules.default.refuses c then '_' else c) = false := by
    intro c hc
    split
    · decide
    · exact hc
  unfold Trimmed sanitize
  intro hne
  have hcs : cs ≠ [] := List.map_eq_nil_iff.not.mp hne
  rw [List.head_map, List.getLast_map]
  exact ⟨hkeep _ (h hcs).1, hkeep _ (h hcs).2⟩

/-! ## Stems -/

/-- The front of the digest of a source. -/
def shortDigest (source : String) : String :=
  String.ofList ((sourceDigest source).toList.take stemDigits)

/-- `length_hexDigest` for the digest of a source. -/
theorem length_sourceDigest (source : String) :
    (sourceDigest source).length = 64 := by
  unfold sourceDigest
  rw [String.length_ofList]
  exact Sha256.length_hexDigest _

/-- `mem_hexDigest` for the digest of a source. -/
theorem mem_sourceDigest {source : String} {c : Char}
    (h : c ∈ (sourceDigest source).toList) :
    c ∈ "0123456789abcdef".toList := by
  unfold sourceDigest at h
  rw [String.toList_ofList] at h
  exact Sha256.mem_hexDigest h

/-- The front of a digest is 16 digits. -/
theorem length_shortDigest (source : String) :
    (shortDigest source).length = 16 := by
  unfold shortDigest
  rw [String.length_ofList, List.length_take, String.length_toList,
    length_sourceDigest]
  rfl

/-- Without an id to speak of, the stem is the front of the digest. -/
theorem stem_of_no_content {id : Option String}
    (h : ∀ s, id = some s → ¬HasContent s) (source : String) :
    stem id source = shortDigest source := by
  unfold shortDigest sourceDigest
  rw [String.toList_ofList]
  cases id with
  | none => rfl
  | some s =>
    have hblank : trimChars s.toList = [] := by
      refine trimChars_eq_nil_iff.mpr fun c hc => ?_
      by_contra hfull
      exact h s rfl ⟨c, hc, Bool.eq_false_iff.mpr hfull⟩
    unfold stem
    dsimp only
    rw [if_pos hblank]

/-- With one, the stem is made of the id without the blanks around it. -/
theorem stem_of_content {id : String} (h : HasContent id) (source : String) :
    stem (some id) source = String.ofList (sanitize (trim id).toList) := by
  have hne : trimChars id.toList ≠ [] := by
    intro hnil
    exact trim_ne_empty_iff.mpr h (congrArg String.ofList hnil)
  unfold stem trim
  dsimp only
  rw [if_neg hne, String.toList_ofList]

/-- **No stem is empty.** -/
theorem stem_ne_empty (id : Option String) (source : String) :
    stem id source ≠ "" := by
  by_cases hid : ∃ s, id = some s ∧ HasContent s
  · obtain ⟨s, rfl, hs⟩ := hid
    intro hempty
    rw [stem_of_content hs, String.ofList_eq_empty_iff, sanitize,
      List.map_eq_nil_iff] at hempty
    exact trim_ne_empty_iff.mpr hs (String.toList_eq_nil_iff.mp hempty)
  · rw [stem_of_no_content fun s hs hcontent => hid ⟨s, hs, hcontent⟩]
    intro hempty
    have hlength := length_shortDigest source
    rw [hempty] at hlength
    cases hlength

/-- A stem is an id with its reserved characters replaced. -/
structure Replaces (stem id : String) : Prop where
  length : stem.length = id.length
  differs : ∀ i : Nat, stem.toList[i]? ≠ id.toList[i]? ↔
    ∃ c, id.toList[i]? = some c ∧ Reserved c
  replaced : ∀ (i : Nat) (c : Char), id.toList[i]? = some c → Reserved c →
    stem.toList[i]? = some '_'
  spared : ∀ c ∈ stem.toList, ¬Reserved c
  settled : sanitize stem.toList = stem.toList

/-- Replacing does what `Replaces` says of any id. -/
theorem replaces_sanitize (id : String) :
    Replaces (String.ofList (sanitize id.toList)) id where
  length := by rw [String.length_ofList, length_sanitize, String.length_toList]
  differs i := by
    rw [String.toList_ofList]
    exact getElem?_sanitize_ne_iff
  replaced i c hi hc := by
    rw [String.toList_ofList]
    exact getElem?_sanitize_of_reserved hi hc
  spared := by
    rw [String.toList_ofList]
    exact fun c hc => not_reserved_of_mem_sanitize hc
  settled := by
    rw [String.toList_ofList]
    exact sanitize_eq_self_iff.mpr fun c hc => not_reserved_of_mem_sanitize hc

/-- The stem is the trimmed id itself where the default rules have nothing
against it. -/
theorem stem_eq_trim_iff {id : String} (h : HasContent id) (source : String) :
    stem (some id) source = trim id ↔ Rules.default.refused? (trim id) = none := by
  rw [stem_of_content h, Rules.refused?_eq_none_iff, spares_iff,
    ← sanitize_eq_self_iff, ← String.toList_inj, String.toList_ofList]

/-- A stem that is taken for an id is its own stem. -/
theorem stem_stem {id : String} (h : HasContent id) (source source' : String) :
    stem (some (stem (some id) source)) source' = stem (some id) source := by
  have hne := stem_ne_empty (some id) source
  rw [stem_of_content h] at hne ⊢
  generalize hs : String.ofList (sanitize (trim id).toList) = s at hne ⊢
  have htrim : trim s = s := by
    rw [trim_eq_self_iff, ← hs, String.toList_ofList]
    exact trimmed_sanitize (trimmed_trim id)
  have hcontent : HasContent s := trim_ne_empty_iff.mp (htrim.symm ▸ hne)
  rw [stem_of_content hcontent, htrim, ← hs, (replaces_sanitize _).settled,
    String.ofList_toList]

/-- What obeys rules that are as strict as the default ones is named by its
trimmed id. -/
theorem spares_trim_of_sound {d : Definition} {rules : Rules}
    (h : d.Sound rules)
    (more : ∀ c ∈ Rules.defaultReserved.toList, c ∈ rules.reserved.toList) :
    Rules.default.refused? (trim d.id) = none := by
  have hsound : d.Sound Rules.default := h.of_reserves more
  exact Rules.refused?_eq_none_iff.mpr fun c hc =>
    hsound.id_usable c (mem_of_mem_trim hc)

/-- **Names and rules agree** on what a file name may hold. The stem that comes
from an id replaces the reserved characters of the trimmed id and nothing else,
so it needs no replacing itself, and it is the trimmed id just where the default
rules find no fault with that; which they do not in metadata that passes under
rules as strict as they are. Where there is no id to speak of, the stem is the
front of the digest, which is long enough and consists of digits. -/
theorem stem_agrees_with_rules (source extension : String) :
    (∀ id : String, trim id ≠ "" →
      Replaces (stem (some id) source) (trim id) ∧
        (∀ source', stem (some (stem (some id) source)) source' =
          stem (some id) source) ∧
        (stem (some id) source = trim id ↔
          Rules.default.refused? (trim id) = none)) ∧
      (∀ (m : Metadata) (rules : Rules) (verdict : Verdict) (d : Definition),
        m.validate rules = .ok verdict → m.definition = some d →
          (∀ c ∈ Rules.defaultReserved.toList, c ∈ rules.reserved.toList) →
            trim d.id ≠ "" ∧ Rules.default.refused? (trim d.id) = none ∧
              stem (some d.id) source = trim d.id) ∧
      (∀ id : Option String, (∀ s, id = some s → trim s = "") →
        stem id source = String.ofList ((sourceDigest source).toList.take 16)) ∧
      (sourceDigest source).length = 64 ∧
      (∀ c ∈ (sourceDigest source).toList, c ∈ "0123456789abcdef".toList) ∧
      ∀ id, fileName id source extension = stem id source ++ "." ++ extension := by
  refine ⟨fun id hid => ?_, fun m rules verdict d hvalid hd more => ?_,
    fun id hid => ?_, length_sourceDigest source, fun c => mem_sourceDigest,
    fun id => rfl⟩
  · have hcontent := trim_ne_empty_iff.mp hid
    refine ⟨?_, stem_stem hcontent source, stem_eq_trim_iff hcontent source⟩
    rw [stem_of_content hcontent]
    exact replaces_sanitize (trim id)
  · have hsound := ((Metadata.validate_eq_ok_iff.mp hvalid).1 d hd).1
    have hrefused := spares_trim_of_sound hsound more
    exact ⟨trim_ne_empty_iff.mpr hsound.id, hrefused,
      (stem_eq_trim_iff hsound.id source).mpr hrefused⟩
  · exact stem_of_no_content
      (fun s hs hcontent => trim_ne_empty_iff.mpr hcontent (hid s hs)) source

/-- An id between blanks of which one is a control character too, metadata that
passes under stricter rules, and an id of blanks only. -/
theorem stem_agrees_with_rules_blanks :
    (trim "\t a/b\x85" ≠ "" ∧ Replaces (stem (some "\t a/b\x85") "")
      (trim "\t a/b\x85")) ∧ (Metadata.validate
      ⟨some (.named " cpu " "n" "ops"), none, none⟩ ⟨"#<>:\"/\\|?*", true⟩ =
          .ok ⟨true, []⟩ ∧
        stem (some " cpu ") "" = trim " cpu ") ∧
      trim " \x85" = "" ∧
        stem (some " \x85") "" =
          String.ofList ((sourceDigest "").toList.take 16) := by
  obtain ⟨hreplaces, hvalid, hblank, -⟩ := stem_agrees_with_rules "" "unit"
  have hcontent : trim "\t a/b\x85" ≠ "" := by decide
  have hempty : trim " \x85" = "" := by decide
  have hpassed : Metadata.validate ⟨some (.named " cpu " "n" "ops"), none, none⟩
      ⟨"#<>:\"/\\|?*", true⟩ = .ok ⟨true, []⟩ := rfl
  have hmore : (Rules.defaultReserved.toList.all (· ∈ "#<>:\"/\\|?*".toList)) =
      true := by decide
  refine ⟨⟨hcontent, (hreplaces _ hcontent).1⟩, ⟨hpassed, ?_⟩, hempty, ?_⟩
  · have hreserves := List.all_eq_true.mp hmore
    exact (hvalid _ _ _ _ hpassed rfl fun c hc => of_decide_eq_true
      (hreserves c hc)).2.2
  · exact hblank (some " \x85") fun s hs => Option.some.inj hs ▸ hempty

end Artifact

end DetectorBench
