import DetectorBench.Proofs.Disk.Writing
import DetectorBench.Proofs.Text.Lines

/-!
# Directories on the way

A path has a parent, and whoever writes to the path makes the directory there
first. Making it adds to the tree only, also when it fails half-way, and only
directories on the way: each of them is where a front of the names leads to
(`makeDirectories_grows`).

The names of the parent are not a front of the names of the path, since slashes
and dots at its end are dropped and so are those before its last name. They are
one if the names that lead nowhere are left out of both (`leading_parent`), and
a way without them goes through the same places (`walk_of_walk_leading`).
-/

namespace DetectorBench

/-! ## The names of a parent -/

namespace Path

/-- The names that lead anywhere; an empty name and a single dot do not. -/
def leading (names : List String) : List String :=
  names.filter fun n => n ≠ "" ∧ n ≠ "."

/-- The leading names of a path that is given in reverse. -/
def leadingReversed (cs : List Char) : List String :=
  leading ((Text.piecesAt '/' cs.reverse).map String.ofList)

/-- The last name of a path, and the leading names before it. -/
theorem leadingReversed_append_slash (name rest : List Char) :
    leadingReversed (name ++ '/' :: rest) =
      leadingReversed rest ++
        leading ((Text.piecesAt '/' name.reverse).map String.ofList) := by
  unfold leadingReversed leading
  rw [Text.piecesAt_eq_splitOn, Text.piecesAt_eq_splitOn, Text.piecesAt_eq_splitOn,
    List.reverse_append, List.reverse_cons, List.append_assoc, List.singleton_append,
    List.splitOn_append_cons_self, List.map_append, List.filter_append]

/-- A slash at the end adds no leading name. -/
theorem leadingReversed_slash (rest : List Char) :
    leadingReversed ('/' :: rest) = leadingReversed rest := by
  rw [← List.nil_append ('/' :: rest), leadingReversed_append_slash]
  exact List.append_nil _

/-- A single dot at the end adds none either. -/
theorem leadingReversed_dot_slash (rest : List Char) :
    leadingReversed ('.' :: '/' :: rest) = leadingReversed ('/' :: rest) := by
  rw [← List.singleton_append, leadingReversed_append_slash, leadingReversed_slash]
  exact List.append_nil _

/-- So trimming the end of a path keeps the leading names. -/
theorem leadingReversed_trimReversed (cs : List Char) :
    leadingReversed (trimReversed cs) = leadingReversed cs := by
  fun_induction trimReversed cs with
  | case1 => rfl
  | case2 rest _ ih => rw [ih, leadingReversed_slash]
  | case3 rest ih => rw [ih, leadingReversed_dot_slash]
  | case4 => rfl

/-- Dropping the last name leaves a front. -/
theorem leadingReversed_dropWhile (cs : List Char) :
    leadingReversed (cs.dropWhile (· ≠ '/')) <+: leadingReversed cs := by
  cases hdrop : cs.dropWhile (· ≠ '/') with
  | nil => exact List.nil_prefix
  | cons c rest =>
    have hc : c = '/' := by
      have hhead := List.head?_dropWhile_not (· ≠ '/') cs
      rw [hdrop] at hhead
      simpa using hhead
    subst hc
    have hsplit := List.takeWhile_append_dropWhile (p := (· ≠ '/')) (l := cs)
    rw [hdrop] at hsplit
    rw [← hsplit, leadingReversed_append_slash, leadingReversed_slash]
    exact List.prefix_append _ _

/-- The names of the parent are a front of the names of the path. -/
theorem leading_parent {path parent : String} (h : parent? path = some parent) :
    leading (pieces parent) <+: leading (pieces path) := by
  have hpieces : ∀ path : String, leading (pieces path) =
      leadingReversed path.toList.reverse := by
    intro path
    unfold pieces leadingReversed
    rw [List.reverse_reverse]
  unfold parent? at h
  split at h
  next => cases h
  next => cases h
  next =>
    cases h
    rw [hpieces, hpieces, String.toList_ofList, List.reverse_reverse,
      leadingReversed_trimReversed, ← leadingReversed_trimReversed
        path.toList.reverse]
    exact leadingReversed_dropWhile _

end Path

namespace FileTree

/-! ## Growing trees -/

/-- Between two trees a directory was made where nothing stood, at a place that
some of the names from the front lead to. -/
structure Made (names : List String) (t t' : FileTree) (place : Place) :
    Prop where
  missing : t.node? place = none
  made : t'.node? place = some .directory
  way : ∃ front, front <+: names ∧ t'.walk [] front = .ok place

/-- One tree comes from another by making directories on the way that some names
lead. -/
def GrowsAlong (names : List String) (t t' : FileTree) : Prop :=
  ∀ place, t'.node? place = t.node? place ∨ Made names t t' place

section GrowsAlong

variable {ns ns' : List String} {t t' t'' : FileTree}

/-- Doing nothing makes no directory elsewhere. -/
theorem growsAlong_refl (ns : List String) (t : FileTree) : GrowsAlong ns t t :=
  fun _ => Or.inl rfl

/-- A tree that grows keeps everything it has. -/
theorem GrowsAlong.extends (h : GrowsAlong ns t t') : Extends t t' := by
  intro place node hnode
  rcases h place with hsame | made
  · exact hsame.trans hnode
  · rw [made.missing] at hnode
    cases hnode

/-- What grows twice along a way has grown along it. -/
theorem GrowsAlong.trans (h : GrowsAlong ns t t') (h' : GrowsAlong ns t' t'') :
    GrowsAlong ns t t'' := by
  intro place
  rcases h' place with hsame' | made'
  · rcases h place with hsame | made
    · exact Or.inl (hsame'.trans hsame)
    · obtain ⟨front, hfront, hwalk⟩ := made.way
      have hwalk' := walk_of_keepsDirectories h'.extends.keepsDirectories hwalk
      exact Or.inr ⟨made.missing, hsame'.trans made.made, front, hfront, hwalk'⟩
  · rcases h place with hsame | made
    · exact Or.inr ⟨hsame.symm.trans made'.missing, made'.made, made'.way⟩
    · -- what was made before is not missing
      have hmissing := made'.missing
      rw [made.made] at hmissing
      cases hmissing

/-- Along a longer way there is more that may grow. -/
theorem GrowsAlong.mono (hns : ns <+: ns') (h : GrowsAlong ns t t') :
    GrowsAlong ns' t t' := by
  intro place
  rcases h place with hsame | made
  · exact Or.inl hsame
  · obtain ⟨front, hfront, hwalk⟩ := made.way
    exact Or.inr ⟨made.missing, made.made, front, hfront.trans hns, hwalk⟩

end GrowsAlong

/-! ## Names that lead nowhere -/

/-- Where names come to a directory, they start from one. -/
theorem isDirectory_start {t : FileTree} {start place : Place}
    {names : List String} (hwalk : t.walk start names = .ok place)
    (hplace : t.node? place = some .directory) :
    t.node? start = some .directory := by
  cases names with
  | nil =>
    cases hwalk
    exact hplace
  | cons name rest =>
    unfold walk at hwalk
    split at hwalk
    next => cases hwalk
    next => cases hwalk
    next hnode => exact hnode

/-- Names that lead nowhere can be put in, on the way to a directory. -/
theorem walk_of_walk_leading {t : FileTree} {start place : Place}
    {names : List String}
    (hwalk : t.walk start (Path.leading names) = .ok place)
    (hplace : t.node? place = some .directory) :
    t.walk start names = .ok place := by
  induction names generalizing start with
  | nil => exact hwalk
  | cons name rest ih =>
    have hstart := isDirectory_start hwalk hplace
    unfold walk
    rw [hstart]
    dsimp only
    by_cases hstay : name = "" ∨ name = "."
    · have hleading : Path.leading (name :: rest) = Path.leading rest :=
        List.filter_cons_of_neg (by simpa using fun h => hstay.resolve_left h)
      rw [if_pos hstay]
      exact ih (hleading ▸ hwalk)
    · have hleading : Path.leading (name :: rest) = name :: Path.leading rest :=
        List.filter_cons_of_pos (by simpa using hstay)
      rw [hleading] at hwalk
      unfold walk at hwalk
      rw [hstart] at hwalk
      dsimp only at hwalk
      rw [if_neg hstay] at hwalk ⊢
      split at hwalk
      next hup =>
        rw [if_pos hup]
        exact ih hwalk
      next hup =>
        rw [if_neg hup]
        split at hwalk
        next => cases hwalk
        next hlong =>
          rw [if_neg hlong]
          exact ih hwalk

/-- Names that lead nowhere may be put back into the way. -/
theorem GrowsAlong.of_leading {ns : List String} {t t' : FileTree}
    (h : GrowsAlong (Path.leading ns) t t') : GrowsAlong ns t t' := by
  intro place
  rcases h place with hsame | made
  · exact Or.inl hsame
  · obtain ⟨front, ⟨behind, hfront⟩, hwalk⟩ := made.way
    obtain ⟨front', behind', hns, hfront', -⟩ :=
      List.filter_eq_append_iff.mp hfront.symm
    have hleading : Path.leading front' = front := hfront'
    rw [← hleading] at hwalk
    exact Or.inr ⟨made.missing, made.made, front', ⟨behind', hns.symm⟩,
      walk_of_walk_leading hwalk made.made⟩

/-! ## Making directories -/

/-- Making one directory grows the tree along its names. -/
theorem makeDirectory_grows {t t' : FileTree} {ns : List String}
    (h : t.makeDirectory ns = .ok t') : GrowsAlong ns t t' := by
  unfold makeDirectory at h
  cases hwalk : t.walk [] ns with
  | error e =>
    rw [hwalk] at h
    cases h
  | ok place =>
    simp only [bind, Except.bind, hwalk] at h
    split at h
    next => cases h
    next hnone =>
      cases h
      have htop : place ≠ [] := by
        intro heq
        rw [heq] at hnone
        cases hnone
      have hwalk' :=
        walk_of_keepsDirectories (put_extends hnone .directory).keepsDirectories
          hwalk
      intro other
      by_cases hother : other = place
      · subst hother
        exact Or.inr ⟨hnone, node?_put_self htop t .directory, ns,
          List.prefix_refl ns, hwalk'⟩
      · exact Or.inl (node?_put_of_ne hother t .directory)

/-- So does making sure that there is one. -/
theorem ensureDirectory_grows {t t' : FileTree} {ns : List String}
    (h : t.ensureDirectory ns = .ok t') : GrowsAlong ns t t' := by
  unfold ensureDirectory at h
  split at h
  next hmake =>
    cases h
    exact makeDirectory_grows hmake
  next =>
    split at h
    next =>
      cases h
      exact growsAlong_refl ns t
    next => cases h

/-- Making directories adds directories on the way and nothing else, even when
it fails half-way. -/
theorem makeDirectoriesFrom_grows (t : FileTree) (above : List String) :
    GrowsAlong above.reverse t (t.makeDirectoriesFrom above).2 := by
  induction above with
  | nil => exact growsAlong_refl _ t
  | cons name above ih =>
    have hfront : above.reverse <+: (name :: above).reverse := by
      rw [List.reverse_cons]
      exact List.prefix_append _ _
    unfold makeDirectoriesFrom
    split
    next hensure => exact ensureDirectory_grows hensure
    next =>
      split
      next hmake =>
        rw [hmake] at ih
        exact ih.mono hfront
      next hmake =>
        rw [hmake] at ih
        split
        next hensure => exact (ih.mono hfront).trans (ensureDirectory_grows hensure)
        next => exact ih.mono hfront
    next => exact growsAlong_refl _ t

/-- The names of a path are its pieces, unless it is refused for them. -/
theorem eq_pieces_of_names {path : String} {ns : List String}
    (h : names path = .ok ns) :
    ns = Path.pieces path := by
  unfold names at h
  split at h
  next => cases h
  next =>
    split at h
    next => cases h
    next =>
      split at h
      next => cases h
      next => exact (Except.ok.inj h).symm

/-- **Making all directories of a path grows the tree along the path**, whether
it succeeds or not. -/
theorem makeDirectories_grows (t : FileTree) (path : String) :
    GrowsAlong (Path.leading (Path.pieces path)) t (t.makeDirectories path).2 := by
  unfold makeDirectories
  split
  next => exact growsAlong_refl _ t
  next ns hnames =>
    rw [← eq_pieces_of_names hnames]
    have hgrows := makeDirectoriesFrom_grows t (Path.leading ns).reverse
    rw [List.reverse_reverse] at hgrows
    exact hgrows

/-! ## Writing a file where directories were made -/

/-- One tree comes from another by storing a file at a path: the file is there,
in the place of no directory, and all that was changed elsewhere is that
directories above it were made. -/
structure Stores (t : FileTree) (path : String) (content : ByteArray)
    (t' : FileTree) : Prop where
  reads : t'.read path = .ok content
  replaces : ∀ place, t'.walk [] (Path.pieces path) = .ok place →
    t.node? place ≠ some .directory
  elsewhere : ∀ place, t'.walk [] (Path.pieces path) ≠ .ok place →
    t'.node? place = t.node? place ∨ Made (Path.pieces path) t t' place

/-- Writing a file behind that stores it. -/
theorem GrowsAlong.stores {t between t' : FileTree} {path : String}
    {content : ByteArray} (h : GrowsAlong (Path.pieces path) t between)
    (hwrite : between.write path content = .ok t') :
    Stores t path content t' := by
  have hread := read_write hwrite
  obtain ⟨ns, target, hnames, hwalk, hdirectory, rfl⟩ := write_eq_ok hwrite
  cases eq_pieces_of_names hnames
  have hkeeps := put_keepsDirectories hdirectory (.file content)
  have htarget := walk_of_keepsDirectories hkeeps hwalk
  refine ⟨hread, ?_, ?_⟩
  · intro place hplace hnode
    rw [htarget] at hplace
    cases hplace
    exact node?_ne_directory hdirectory (h.extends target _ hnode)
  · intro place hplace
    have hne : place ≠ target := fun heq => hplace (heq ▸ htarget)
    have hput := node?_put_of_ne hne between (.file content)
    rcases h place with hsame | made
    · exact Or.inl (hput.trans hsame)
    · obtain ⟨front, hfront, hway⟩ := made.way
      exact Or.inr ⟨made.missing, hput.trans made.made, front, hfront,
        walk_of_keepsDirectories hkeeps hway⟩

/-- A path that leads to another place still leads to what it led to. -/
theorem Stores.read_other {t t' : FileTree} {path other : String}
    {content before : ByteArray} (h : Stores t path content t')
    (hread : t.read other = .ok before)
    (hother : t'.walk [] (Path.pieces other) ≠ t'.walk [] (Path.pieces path)) :
    t'.read other = .ok before := by
  obtain ⟨ns, place, hnames, hwalk, hnode⟩ := read_eq_ok_iff.mp hread
  cases eq_pieces_of_names hnames
  have hkeeps : KeepsDirectories t t' := by
    intro directory hdirectory
    by_cases hplace : t'.walk [] (Path.pieces path) = .ok directory
    · exact absurd hdirectory (h.replaces directory hplace)
    · rcases h.elsewhere directory hplace with hsame | made
      · exact hsame.trans hdirectory
      · exact made.made
  have hwalk' := walk_of_keepsDirectories hkeeps hwalk
  rcases h.elsewhere place fun hplace =>
    hother (hwalk'.trans hplace.symm) with hsame | made
  · exact read_eq_ok_iff.mpr ⟨_, place, hnames, hwalk', hsame.trans hnode⟩
  · have hmissing := made.missing
    rw [hnode] at hmissing
    cases hmissing

end FileTree

end DetectorBench
