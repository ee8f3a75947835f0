import DetectorBench.Disk.FileTree

/-!
# Writing files

What was written to a path is read from it (`read_write`). A path leads through
directories only, and writing refuses to replace one; so the way that a path
takes is still there after the write (`walk_of_keepsDirectories`), and at its
end stands the new file. Any other file that could be read is still read, and
holds what it held unless its path leads to the new one (`read_of_write`).
-/

namespace DetectorBench.FileTree

/-! ## What stands where -/

theorem lookup_filter_ne {place other : Place} (h : other ≠ place)
    (nodes : List (Place × FileNode)) :
    (nodes.filter (·.1 ≠ place)).lookup other = nodes.lookup other := by
  induction nodes with
  | nil => rfl
  | cons entry nodes ih =>
    obtain ⟨here, node⟩ := entry
    by_cases hhere : here = place
    · -- an entry that is dropped is not the one that is looked up
      have hother : (other == here) = false := beq_eq_false_iff_ne.mpr (hhere ▸ h)
      rw [List.filter_cons_of_neg (by simpa using hhere), ih, List.lookup_cons,
        hother]
    · rw [List.filter_cons_of_pos (by simpa using hhere), List.lookup_cons,
        List.lookup_cons, ih]

theorem lookup_filter_self (place : Place) (nodes : List (Place × FileNode)) :
    (nodes.filter (·.1 ≠ place)).lookup place = none := by
  rw [List.lookup_eq_none_iff]
  intro entry hentry
  have hne : entry.1 ≠ place := by simpa using (List.mem_filter.mp hentry).2
  exact bne_iff_ne.mpr hne.symm

/-- What was put at a place stands there. -/
theorem node?_put_self {place : Place} (h : place ≠ []) (t : FileTree)
    (node : FileNode) :
    (t.put place node).node? place = some node := by
  unfold node? put
  rw [if_neg h, List.lookup_append, lookup_filter_self]
  simp

/-- Other places are left alone. -/
theorem node?_put_of_ne {place other : Place} (h : other ≠ place) (t : FileTree)
    (node : FileNode) :
    (t.put place node).node? other = t.node? other := by
  have hother : (other == place) = false := beq_eq_false_iff_ne.mpr h
  unfold node? put
  rw [List.lookup_append, lookup_filter_ne h, List.lookup_cons, hother]
  simp

/-! ## Trees that keep what another has -/

/-- Every directory of one tree is one of another. -/
def KeepsDirectories (t t' : FileTree) : Prop :=
  ∀ place, t.node? place = some .directory → t'.node? place = some .directory

/-- Where directories are kept, names lead where they led before. -/
theorem walk_of_keepsDirectories {t t' : FileTree} (h : KeepsDirectories t t')
    {start place : Place} {names : List String}
    (hwalk : t.walk start names = .ok place) :
    t'.walk start names = .ok place := by
  fun_induction walk t start names with
  | case1 start => exact hwalk
  | case2 start name rest hnode => cases hwalk
  | case3 start name rest content hnode => cases hwalk
  | case4 start name rest hnode hstay ih =>
    unfold walk
    rw [h start hnode]
    dsimp only
    rw [if_pos hstay]
    exact ih hwalk
  | case5 start rest hnode hstay ih =>
    unfold walk
    rw [h start hnode]
    dsimp only
    rw [if_neg hstay, if_pos rfl]
    exact ih hwalk
  | case6 start name rest hnode hstay hup hlong => cases hwalk
  | case7 start name rest hnode hstay hup hlong ih =>
    unfold walk
    rw [h start hnode]
    dsimp only
    rw [if_neg hstay, if_neg hup, if_neg hlong]
    exact ih hwalk

/-- Where no directory is found, none stands. -/
theorem node?_ne_directory {t : FileTree} {place : Place}
    (h : t.isDirectory place = false) :
    t.node? place ≠ some .directory := by
  intro hnode
  unfold isDirectory at h
  rw [hnode] at h
  cases h

/-- Putting something where no directory is keeps all directories. -/
theorem put_keepsDirectories {t : FileTree} {place : Place}
    (h : t.isDirectory place = false) (node : FileNode) :
    KeepsDirectories t (t.put place node) := by
  intro other hother
  have hne : other ≠ place := fun heq => node?_ne_directory h (heq ▸ hother)
  rw [node?_put_of_ne hne]
  exact hother

/-- Everything that stands in one tree stands in another. -/
def Extends (t t' : FileTree) : Prop :=
  ∀ place node, t.node? place = some node → t'.node? place = some node

/-- A tree that keeps everything keeps its directories. -/
theorem Extends.keepsDirectories {t t' : FileTree} (h : Extends t t') :
    KeepsDirectories t t' :=
  fun place hplace => h place .directory hplace

/-- Putting something where nothing stands keeps everything. -/
theorem put_extends {t : FileTree} {place : Place} (h : t.node? place = none)
    (node : FileNode) :
    Extends t (t.put place node) := by
  intro other found hother
  have hne : other ≠ place := by
    intro heq
    rw [heq, h] at hother
    cases hother
  rw [node?_put_of_ne hne]
  exact hother

/-! ## Files -/

/-- A path leads to a file. -/
theorem read_eq_ok_iff {t : FileTree} {path : String} {content : ByteArray} :
    t.read path = .ok content ↔
      ∃ ns place, names path = .ok ns ∧ t.walk [] ns = .ok place ∧
        t.node? place = some (.file content) := by
  unfold read
  constructor
  · intro h
    cases hnames : names path with
    | error e =>
      rw [hnames] at h
      cases h
    | ok ns =>
      rw [hnames] at h
      cases hwalk : t.walk [] ns with
      | error e =>
        simp only [bind, Except.bind, hwalk] at h
        cases h
      | ok place =>
        simp only [bind, Except.bind, hwalk] at h
        refine ⟨ns, place, rfl, hwalk, ?_⟩
        split at h
        next hnode =>
          cases h
          exact hnode
        next => cases h
        next => cases h
  · rintro ⟨ns, place, hnames, hwalk, hnode⟩
    rw [hnames]
    simp only [bind, Except.bind, hwalk, hnode]
    rfl

/-- A file is read alike from a tree with more in it. -/
theorem read_of_extends {t t' : FileTree} (h : Extends t t') {path : String}
    {content : ByteArray} (hread : t.read path = .ok content) :
    t'.read path = .ok content := by
  obtain ⟨ns, place, hnames, hwalk, hnode⟩ := read_eq_ok_iff.mp hread
  have hwalk' := walk_of_keepsDirectories h.keepsDirectories hwalk
  exact read_eq_ok_iff.mpr ⟨ns, place, hnames, hwalk', h place _ hnode⟩

/-- A write that succeeds puts a file where the path leads to, and there was no
directory. -/
theorem write_eq_ok {t t' : FileTree} {path : String} {content : ByteArray}
    (h : t.write path content = .ok t') :
    ∃ ns place, names path = .ok ns ∧ t.walk [] ns = .ok place ∧
      t.isDirectory place = false ∧ t' = t.put place (.file content) := by
  unfold write at h
  cases hnames : names path with
  | error e =>
    rw [hnames] at h
    cases h
  | ok ns =>
    rw [hnames] at h
    simp only [bind, Except.bind] at h
    split at h
    next =>
      -- a path that ends in a slash is never written to
      split at h <;> cases h
    next =>
      cases hwalk : t.walk [] ns with
      | error e =>
        rw [hwalk] at h
        cases h
      | ok place =>
        rw [hwalk] at h
        dsimp only at h
        split at h
        next => cases h
        next hdirectory =>
          cases h
          exact ⟨ns, place, rfl, hwalk, Bool.eq_false_iff.mpr hdirectory, rfl⟩

/-- **What was written is read.** -/
theorem read_write {t t' : FileTree} {path : String} {content : ByteArray}
    (h : t.write path content = .ok t') : t'.read path = .ok content := by
  obtain ⟨ns, place, hnames, hwalk, hdirectory, rfl⟩ := write_eq_ok h
  have htop : place ≠ [] := by
    rintro rfl
    cases hdirectory
  have hwalk' :=
    walk_of_keepsDirectories (put_keepsDirectories hdirectory (.file content)) hwalk
  exact read_eq_ok_iff.mpr ⟨ns, place, hnames, hwalk', node?_put_self htop t _⟩

/-- After a write every file holds what it held, unless its path leads to the
place of the new one. -/
theorem read_of_write {t t' : FileTree} {path other : String}
    {content before : ByteArray} (h : t.write path content = .ok t')
    (hread : t.read other = .ok before) :
    t'.read other = .ok before ∨ t'.read other = .ok content := by
  obtain ⟨-, place, -, -, hdirectory, rfl⟩ := write_eq_ok h
  obtain ⟨ns, place', hnames, hwalk, hnode⟩ := read_eq_ok_iff.mp hread
  have hwalk' :=
    walk_of_keepsDirectories (put_keepsDirectories hdirectory (.file content)) hwalk
  by_cases hplace : place' = place
  · subst hplace
    have htop : place' ≠ [] := by
      rintro rfl
      cases hdirectory
    exact Or.inr (read_eq_ok_iff.mpr ⟨ns, place', hnames, hwalk',
      node?_put_self htop t _⟩)
  · have hnode' := (node?_put_of_ne hplace t (.file content)).trans hnode
    exact Or.inl (read_eq_ok_iff.mpr ⟨ns, place', hnames, hwalk', hnode'⟩)

end DetectorBench.FileTree
