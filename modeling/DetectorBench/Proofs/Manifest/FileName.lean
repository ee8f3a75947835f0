import DetectorBench.Manifest.Compiler
import DetectorBench.Proofs.Artifact.Naming
import DetectorBench.Proofs.Text.Lines
import DetectorBench.Routine.Builtin

/-!
# File names of compiled units

A file name is a stem, a dot and an extension. The stem is clean whatever the id
holds, but the extension is taken from the environment with only the blanks
around it and the dots before it removed. So whether a file name is plain, that
is the name of one file in whatever directory it is put (`Path.PlainName`), is
up to the extension (`plainName_fileName_iff`): it must hold no reserved
character, and it must not be empty where the stem is a single dot, since then
the name is that of the directory above.
-/

namespace DetectorBench

open Artifact (Reserved)

/-! ## Plain names -/

namespace Path

/-- A text that is the name of one file in whatever directory it is put. -/
structure PlainName (name : String) : Prop where
  ne_empty : name ≠ ""
  ne_here : name ≠ "."
  ne_above : name ≠ ".."
  spared : ∀ c ∈ name.toList, ¬Reserved c

/-- A slash is reserved, so a plain name leads nowhere else. -/
theorem reserved_slash : Reserved '/' :=
  Or.inr (by decide)

/-- Behind a directory a plain name is one name more. -/
theorem PlainName.pieces_append {name : String} (h : PlainName name)
    (directory : String) :
    pieces (directory ++ "/" ++ name) = pieces directory ++ [name] := by
  have hslash : '/' ∉ name.toList := fun hmem => h.spared _ hmem reserved_slash
  have hjoin : (directory ++ "/" ++ name).toList =
      directory.toList ++ '/' :: name.toList := by
    rw [String.toList_append, String.toList_append, List.append_assoc]
    rfl
  unfold pieces
  rw [hjoin, Text.piecesAt_eq_splitOn, Text.piecesAt_eq_splitOn,
    List.splitOn_append_cons_self,
    List.splitOn_eq_singleton hslash, List.map_append, List.map_singleton,
    String.ofList_toList]

end Path

open DetectorBench.Path (PlainName)

/-! ## Stems -/

namespace Artifact

/-- A dot is not reserved, so a stem may be one. -/
theorem not_reserved_dot : ¬Reserved '.' := by
  rw [← refuses_iff_reserved]
  decide

/-- Whatever the id holds, nothing reserved is in the stem. -/
theorem not_reserved_of_mem_stem {id : Option String} {source : String}
    {c : Char} (h : c ∈ (stem id source).toList) : ¬Reserved c := by
  have hdigit : ∀ d ∈ "0123456789abcdef".toList, ¬Reserved d :=
    sanitize_eq_self_iff.mp (by decide)
  by_cases hid : ∃ s, id = some s ∧ Text.HasContent s
  · obtain ⟨s, rfl, hs⟩ := hid
    rw [stem_of_content hs, String.toList_ofList] at h
    exact not_reserved_of_mem_sanitize h
  · rw [stem_of_no_content (fun s hs hcontent => hid ⟨s, hs, hcontent⟩)] at h
    unfold shortDigest at h
    rw [String.toList_ofList] at h
    exact hdigit c (mem_sourceDigest (List.mem_of_mem_take h))

/-- The stem is a single dot just where the id is one. -/
theorem stem_eq_dot_iff {id : Option String} {source : String} :
    stem id source = "." ↔ ∃ s, id = some s ∧ Text.trim s = "." := by
  constructor
  · intro h
    by_cases hid : ∃ s, id = some s ∧ Text.HasContent s
    · obtain ⟨s, rfl, hs⟩ := hid
      have hlist : sanitize (Text.trim s).toList = ['.'] := by
        rw [stem_of_content hs] at h
        rw [← String.toList_ofList (l := sanitize _), h]
        rfl
      obtain ⟨c, htrim, hc⟩ := List.map_eq_singleton_iff.mp hlist
      -- the dot was not put there in place of something else
      have hdot : c = '.' := by
        split at hc
        · cases hc
        · exact hc
      refine ⟨s, rfl, String.toList_inj.mp ?_⟩
      rw [htrim, hdot]
      rfl
    · rw [stem_of_no_content fun s hs hcontent => hid ⟨s, hs, hcontent⟩] at h
      have hlength := length_shortDigest source
      rw [h] at hlength
      cases hlength
  · rintro ⟨s, rfl, hs⟩
    have hcontent : Text.HasContent s :=
      Text.trim_ne_empty_iff.mp (by rw [hs]; decide)
    rw [stem_of_content hcontent, hs]
    rfl

/-! ## File names -/

/-- A file name is a stem, a dot and an extension. -/
theorem toList_fileName (id : Option String) (source extension : String) :
    (fileName id source extension).toList =
      (stem id source).toList ++ '.' :: extension.toList := by
  unfold fileName
  rw [String.toList_append, String.toList_append, List.append_assoc]
  rfl

/-- A file name has two characters at least, since no stem is empty. -/
theorem two_le_length_fileName (id : Option String)
    (source extension : String) :
    2 ≤ (fileName id source extension).toList.length := by
  have hstem := String.toList_eq_nil_iff.not.mpr (stem_ne_empty id source)
  have hpos := List.length_pos_iff.mpr hstem
  rw [toList_fileName, List.length_append, List.length_cons]
  omega

/-- No file name is empty. -/
theorem fileName_ne_empty (id : Option String) (source extension : String) :
    fileName id source extension ≠ "" := by
  intro h
  have hlength := two_le_length_fileName id source extension
  rw [h] at hlength
  exact absurd hlength (by decide)

/-- No file name is that of the directory itself. -/
theorem fileName_ne_here (id : Option String) (source extension : String) :
    fileName id source extension ≠ "." := by
  intro h
  have hlength := two_le_length_fileName id source extension
  rw [h] at hlength
  exact absurd hlength (by decide)

/-- Reserved characters come in through the extension. -/
theorem mem_extension_of_reserved {id : Option String}
    {source extension : String} {c : Char}
    (hc : c ∈ (fileName id source extension).toList) (hreserved : Reserved c) :
    c ∈ extension.toList := by
  rw [toList_fileName, List.mem_append, List.mem_cons] at hc
  rcases hc with hstem | rfl | hextension
  · exact absurd hreserved (not_reserved_of_mem_stem hstem)
  · exact absurd hreserved not_reserved_dot
  · exact hextension

/-- A file name is the name of the directory above only for a dot as stem and
nothing as extension. -/
theorem fileName_eq_above_iff {id : Option String} {source extension : String} :
    fileName id source extension = ".." ↔ stem id source = "." ∧ extension = "" := by
  constructor
  · intro h
    have hlist := toList_fileName id source extension
    rw [h] at hlist
    cases hstem : (stem id source).toList with
    | nil => exact absurd (String.toList_eq_nil_iff.mp hstem) (stem_ne_empty id
        source)
    | cons c rest =>
      rw [hstem] at hlist
      cases rest with
      | nil =>
        obtain ⟨hdot, hextension⟩ := List.cons.inj hlist
        refine ⟨String.toList_inj.mp (hstem.trans (hdot ▸ rfl)), ?_⟩
        exact String.toList_eq_nil_iff.mp (List.cons.inj hextension).2.symm
      | cons next rest =>
        have hlength := congrArg List.length hlist
        simp at hlength
  · rintro ⟨hstem, rfl⟩
    unfold fileName
    rw [hstem]
    rfl

/-- **Plain file names**: the extension decides. -/
theorem plainName_fileName_iff {id : Option String}
    {source extension : String} :
    PlainName (fileName id source extension) ↔
      (∀ c ∈ extension.toList, ¬Reserved c) ∧
        ¬(extension = "" ∧ ∃ s, id = some s ∧ Text.trim s = ".") := by
  rw [← @stem_eq_dot_iff id source, and_comm (a := extension = ""),
    ← fileName_eq_above_iff]
  constructor
  · intro h
    refine ⟨fun c hc => h.spared c ?_, h.ne_above⟩
    rw [toList_fileName]
    exact List.mem_append_right _ (List.mem_cons_of_mem _ hc)
  · rintro ⟨hextension, habove⟩
    exact
      { ne_empty := fileName_ne_empty id source extension
        ne_here := fileName_ne_here id source extension
        ne_above := habove
        spared := fun c hc hreserved =>
          hextension c (mem_extension_of_reserved hc hreserved) hreserved }

end Artifact

namespace Manifest

open Artifact (fileName plainName_fileName_iff)

/-! ## Compiled units -/

/-- The id that a source declares, if it is a manifest with a definition. -/
def declaredId? (source : String) : Option String :=
  (parse source).toOption.bind definitionId?

/-- What is compiled is named by the id that the source declares. -/
theorem Compilation.ofSource_name (registry : Registry)
    (extension source : String) (references imports : Option (List String)) :
    (ofSource registry extension source references imports).name =
      fileName (declaredId? source) source extension := by
  unfold ofSource declaredId?
  split
  next hparse =>
    rw [hparse]
    rfl
  next hparse =>
    rw [hparse]
    rfl

/-- What an environment asks for as an extension, if it asks for one. -/
def askedExtension? (env : Environment) : Option String :=
  (env.text? "DETECTOR_ARTIFACT_EXTENSION").map Text.trim

/-- An environment that asks for no extension gets the default one. -/
theorem extensionOf_of_none {env : Environment}
    (h : askedExtension? env = none) :
    extensionOf env = Artifact.defaultExtension := by
  unfold extensionOf
  rw [Option.map_eq_none_iff.mp h]

/-- An extension that is asked for is taken without the dots before it. -/
theorem extensionOf_of_some {env : Environment} {asked : String}
    (h : askedExtension? env = some asked) :
    (extensionOf env).toList = asked.toList.dropWhile (· = '.') := by
  obtain ⟨value, hvalue, rfl⟩ := Option.map_eq_some_iff.mp h
  unfold extensionOf Text.trim
  rw [hvalue]
  dsimp only
  rw [String.toList_ofList, String.toList_ofList]

/-- No reserved character goes with the dots before an extension. -/
theorem spared_dropWhile_dot_iff {cs : List Char} :
    (∀ c ∈ cs.dropWhile (· = '.'), ¬Reserved c) ↔ ∀ c ∈ cs, ¬Reserved c := by
  constructor
  · intro h c hc
    rw [← List.takeWhile_append_dropWhile (p := fun c => decide (c = '.')) (l := cs),
      List.mem_append] at hc
    rcases hc with hdot | hrest
    · have heq : c = '.' :=
        of_decide_eq_true (List.mem_takeWhile_imp (p := (· = '.')) hdot)
      exact heq ▸ Artifact.not_reserved_dot
    · exact h c hrest
  · intro h c hc
    exact h c ((List.dropWhile_suffix _).mem hc)

/-- **Names of compiled units.** Whatever the environment and the source, a name
is not empty and not a single dot, and it holds no reserved character but those
of the extension. It is plain unless the environment asks for an extension with
a reserved character, or for one of dots only while the declared id is a dot;
and a plain name, put behind a directory, is one name more. -/
theorem name_plain_iff (registry : Registry) (env : Environment)
    (source : String) (references imports : Option (List String)) :
    let name := (Compilation.ofSource registry (extensionOf env) source
      references imports).name
    name ≠ "" ∧ name ≠ "." ∧
      (∀ c ∈ name.toList, Reserved c → c ∈ (extensionOf env).toList) ∧
      (PlainName name ↔ ∀ asked, askedExtension? env = some asked →
        (∀ c ∈ asked.toList, ¬Reserved c) ∧
          ¬((∀ c ∈ asked.toList, c = '.') ∧
            ∃ id, declaredId? source = some id ∧ Text.trim id = ".")) ∧
      (PlainName name → ∀ directory,
        Path.pieces (directory ++ "/" ++ name) =
          Path.pieces directory ++ [name]) := by
  intro name
  have hname : name = fileName (declaredId? source) source (extensionOf env) :=
    Compilation.ofSource_name ..
  rw [hname]
  refine ⟨Artifact.fileName_ne_empty _ _ _, Artifact.fileName_ne_here _ _ _, fun c =>
    Artifact.mem_extension_of_reserved, ?_, fun h => h.pieces_append⟩
  rw [plainName_fileName_iff]
  cases hasked : askedExtension? env with
  | none =>
    -- the extension is the default one
    rw [extensionOf_of_none hasked]
    have hspared : ∀ c ∈ Artifact.defaultExtension.toList, ¬Reserved c :=
      Artifact.sanitize_eq_self_iff.mp (by decide)
    exact ⟨fun _ => nofun, fun _ => ⟨hspared, fun h => absurd h.1 (by decide)⟩⟩
  | some asked =>
    have hempty : extensionOf env = "" ↔ ∀ c ∈ asked.toList, c = '.' := by
      rw [← String.toList_eq_nil_iff, extensionOf_of_some hasked,
        List.dropWhile_eq_nil_iff]
      simp only [decide_eq_true_eq]
    rw [hempty, extensionOf_of_some hasked, spared_dropWhile_dot_iff]
    exact ⟨fun h _ heq => Option.some.inj heq ▸ h, fun h => h asked rfl⟩

/-- A name that leads out of the directory it is put in, by an extension with
slashes, and a name that is the directory above, by an extension of dots. The
sources give their records as arrays. -/
theorem name_escapes :
    let named (asked source : String) := (Compilation.ofSource Routine.builtin
      (extensionOf ⟨fun _ => some asked.toUTF8⟩) source none none).name
    (named "x/../../up"
      "\x7b\"entry\":[\"run\",\"echo\"],\"definition\":[\"cpu\",\"n\",\"a\"]\x7d" =
          "cpu.x/../../up" ∧
        ¬PlainName "cpu.x/../../up") ∧
      named "."
        "\x7b\"entry\":[\"run\",\"echo\"],\"definition\":[\".\",\"n\",\"a\"]\x7d" = ".." ∧
        ¬PlainName ".." := by
  refine ⟨⟨rfl, fun h => ?_⟩, rfl, fun h => h.ne_above rfl⟩
  exact h.spared '/' (by decide) Path.reserved_slash

end Manifest

end DetectorBench
