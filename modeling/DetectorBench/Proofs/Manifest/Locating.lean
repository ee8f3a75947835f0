import DetectorBench.Proofs.Manifest.Remarks
import DetectorBench.Proofs.Record.Places
import DetectorBench.Proofs.Text.Lines

/-!
# Where compilation errors are located

A source that is no manifest is reported by one error with a place, and that
place is in the source (`Location.Inside`): on one of its lines, and not behind
the end of that line. Two things are needed for it. The fault must be placed in
the document, which is so for every reader (`Codec.Placed`); and counting lines
and columns up to a place in a document must give a place in its text
(`Position.advance_inside`, by induction on what is left to count over). Columns
before the first byte of a line are moved onto it, which is why an empty line
has a column.

What is said about a source that is a manifest has no place.
-/

namespace DetectorBench

open Json (Fault Input Position Symbol symbolsOfText)
open Text (lines piecesAt)

/-- A place in a text: on one of its lines, and no further than the line
goes. -/
structure Location.Inside (place : Location) (source : String) : Prop where
  line : 1 ≤ place.line ∧ place.line ≤ 1 + source.toList.count '\n'
  column : 1 ≤ place.column
  lineEnd : ∃ text, (lines source)[place.line - 1]? = some text ∧
    place.column ≤ max 1 text.utf8ByteSize

/-! ## Counting -/

/-- The size of a text is counted character by character. -/
theorem utf8ByteSize_ofList_cons (c : Char) (cs : List Char) :
    (String.ofList (c :: cs)).utf8ByteSize =
      c.utf8Size + (String.ofList cs).utf8ByteSize := by
  rw [String.ofList_cons, String.utf8ByteSize_append, String.utf8ByteSize_singleton]

namespace Json.Position

/-- Inside a character the column counts its bytes. -/
theorem advance_of_lt {c : Char} {count : Nat} (h : count < c.utf8Size)
    (p : Position) (rest : Input) :
    p.advance count (.char c :: rest) = ⟨p.line, p.column + count⟩ := by
  cases count with
  | zero => rfl
  | succ count =>
    rw [advance]
    · exact if_pos h
    · exact Nat.succ_ne_zero count

/-- Behind a line break the next line begins. -/
theorem advance_newline (p : Position) (count : Nat) (rest : Input) :
    p.advance (count + 1) (.char '\n' :: rest) =
      advance ⟨p.line + 1, 0⟩ count rest := by
  rw [advance]
  · rfl
  · exact Nat.succ_ne_zero count

/-- Behind any other character the column is its bytes further. -/
theorem advance_of_le {c : Char} (hc : c ≠ '\n') {count : Nat}
    (h : c.utf8Size ≤ count) (p : Position) (rest : Input) :
    p.advance count (.char c :: rest) =
      advance ⟨p.line, p.column + c.utf8Size⟩ (count - c.utf8Size) rest := by
  have hpos := c.utf8Size_pos
  rw [advance]
  · rw [Json.Symbol.width_char, if_neg (Nat.not_lt.mpr h), if_neg]
    rwa [Symbol.char.injEq]
  · omega

/-- Counting over characters ends on one of their lines, and at its end at the
furthest. The line that the counting starts on may have been begun before. -/
theorem advance_inside (cs : List Char) (p : Position) (count : Nat) :
    ∃ i piece, (piecesAt '\n' cs)[i]? = some piece ∧
      (p.advance count (cs.map Symbol.char)).line = p.line + i ∧
        (p.advance count (cs.map Symbol.char)).column ≤
          (if i = 0 then p.column else 0) + (String.ofList piece).utf8ByteSize := by
  induction cs generalizing p count with
  | nil =>
    refine ⟨0, [], rfl, ?_, ?_⟩
    · cases count <;> rfl
    · cases count <;> exact Nat.le_add_right _ _
  | cons c cs ih =>
    rw [List.map_cons]
    by_cases hc : c = '\n'
    · subst hc
      rw [Text.piecesAt_cons_self]
      cases count with
      | zero => exact ⟨0, [], rfl, rfl, Nat.le_add_right _ _⟩
      | succ count =>
        obtain ⟨i, piece, hpiece, hline, hcolumn⟩ := ih ⟨p.line + 1, 0⟩ count
        rw [advance_newline]
        refine ⟨i + 1, piece, hpiece, ?_, ?_⟩
        · rw [hline, Nat.add_assoc, Nat.add_comm 1 i]
        · simpa using hcolumn
    · obtain ⟨first, others, hpieces⟩ := Text.exists_piecesAt_eq_cons '\n' cs
      rw [Text.piecesAt_cons_of_ne hc hpieces]
      by_cases hcount : count < c.utf8Size
      · -- the place is within the character
        rw [advance_of_lt hcount]
        refine ⟨0, c :: first, rfl, rfl, ?_⟩
        rw [if_pos rfl, utf8ByteSize_ofList_cons]
        dsimp only
        omega
      · rw [advance_of_le hc (Nat.not_lt.mp hcount)]
        obtain ⟨i, piece, hpiece, hline, hcolumn⟩ :=
          ih ⟨p.line, p.column + c.utf8Size⟩ (count - c.utf8Size)
        rw [hpieces] at hpiece
        cases i with
        | zero =>
          cases hpiece
          refine ⟨0, c :: first, rfl, hline, ?_⟩
          rw [utf8ByteSize_ofList_cons, ← Nat.add_assoc]
          exact hcolumn
        | succ i => exact ⟨i + 1, piece, hpiece, hline, hcolumn⟩

end Json.Position

/-- The bytes of a document are the bytes of its text. -/
theorem Json.bytes_symbolsOfText (source : String) :
    (symbolsOfText source).bytes = source.utf8ByteSize := by
  have hchars : ∀ cs : List Char,
      Input.bytes (cs.map Symbol.char) = (String.ofList cs).utf8ByteSize := by
    intro cs
    induction cs with
    | nil => rfl
    | cons c cs ih =>
      rw [List.map_cons, Input.bytes_cons, ih, utf8ByteSize_ofList_cons]; rfl
  have hsource := hchars source.toList
  rwa [String.ofList_toList] at hsource

/-- The place in a text that has so many bytes after it, columns counted from
one. -/
def Location.before (source : String) (left : Nat) : Location :=
  let place := Position.before (symbolsOfText source) left
  ⟨max place.line 1, max place.column 1⟩

/-- **A place that was counted up to is inside the text.** -/
theorem Location.inside_before (source : String) (left : Nat) :
    (Location.before source left).Inside source := by
  obtain ⟨i, piece, hpiece, hline, hcolumn⟩ :=
    Position.advance_inside source.toList ⟨1, 0⟩
    ((symbolsOfText source).bytes - left)
  obtain ⟨hindex, -⟩ := List.getElem?_eq_some_iff.mp hpiece
  rw [Text.length_piecesAt] at hindex
  rw [ite_self, Nat.zero_add] at hcolumn
  have hplace : (Location.before source left).line = 1 + i := by
    rw [← hline]
    exact Nat.max_eq_left (hline ▸ Nat.le_add_right 1 i)
  refine ⟨?_, Nat.le_max_right _ _, String.ofList piece, ?_, ?_⟩
  · rw [hplace]
    omega
  · rw [hplace, Nat.add_sub_cancel_left]
    unfold lines
    rw [List.getElem?_map, hpiece]
    rfl
  · show max _ 1 ≤ max 1 _
    rw [Nat.max_comm]
    exact Nat.max_le.mpr ⟨Nat.le_max_left _ _,
      Nat.le_trans hcolumn (Nat.le_max_right _ _)⟩

-- the end of a text that ends with a line break is on a line of its own
example : Location.before "\x7b\n" 0 = ⟨2, 1⟩ := by
  decide

namespace Manifest

/-! ## Diagnostics -/

/-- A remark on names has no place in the source. -/
theorem unlocated_of_mem_remarks {what : String}
    {allowed : Option (List String)} {declared : List String} {d : Diagnostic}
    (h : d ∈ remarks what allowed declared) :
    d.location = none := by
  obtain ⟨⟨name, i⟩, -, hremark⟩ := List.mem_flatMap.mp h
  dsimp only [remark] at hremark
  split_ifs at hremark with hbefore houtside
  · cases List.mem_singleton.mp hremark
    rfl
  · cases List.mem_singleton.mp hremark
    rfl
  · cases hremark

/-- Nothing that is said about a manifest has a place. -/
theorem unlocated_of_mem_check {m : Manifest} {registry : Registry}
    {references imports : Option (List String)} {d : Diagnostic}
    (h : d ∈ m.check registry references imports) : d.location = none := by
  rw [check_eq_remarks, List.mem_append, List.mem_append] at h
  rcases h with (h | h) | h
  · exact unlocated_of_mem_remarks h
  · exact unlocated_of_mem_remarks h
  · split_ifs at h with hregistered
    · cases h
    · cases List.mem_singleton.mp h
      rfl

/-- **Every fault of a manifest is placed in its source.** -/
theorem codec_placed : codec.Placed :=
  codec_of_carried Codec.carried_placed

/-- Reading a source as a manifest breaks off at a place, which has bytes of the
source after it. -/
def BreaksOff (source : String) (place : Location) : Prop :=
  ∃ fault left, codec.readDocument (symbolsOfText source) = .error fault ∧
    fault.left = some left ∧ left ≤ source.utf8ByteSize ∧
    place = Location.before source left

/-- A source is not a manifest because reading it breaks off, and that is where
the error is put. -/
theorem breaksOff_of_parse_error {source : String} {d : Diagnostic}
    (h : parse source = .error d) :
    ∃ place, d.location = some place ∧ BreaksOff source place := by
  obtain ⟨fault, hread, rfl⟩ := fault_of_parse_error h
  have hplaced := codec_placed.readDocument (symbolsOfText source)
  rw [hread] at hplaced
  obtain ⟨left, hleft, hbound⟩ := hplaced
  rw [Json.bytes_symbolsOfText] at hbound
  refine ⟨Location.before source left, ?_, fault, left, hread, hleft, hbound, rfl⟩
  show some _ = some _
  rw [Fault.position?, hleft]
  rfl

/-- **Rejected sources are located.** A source that is not a manifest is
reported by one error and nothing else, at the place where reading it breaks
off, which is inside the source. Nothing that is said about any other source has
a place. -/
theorem rejection_located (registry : Registry) (extension source : String)
    (references imports : Option (List String)) :
    let diagnostics :=
      (Compilation.ofSource registry extension source references imports).diagnostics
    (∃ d place, parse source = .error d ∧ diagnostics = [d] ∧ d.severity = .error ∧
        d.location = some place ∧ BreaksOff source place ∧ place.Inside source) ∨
      ((∃ m, parse source = .ok m) ∧ ∀ d ∈ diagnostics, d.location = none) := by
  intro diagnostics
  cases hparse : parse source with
  | error d =>
    have hdiagnostics : diagnostics = [d] := by
      show (Compilation.ofSource registry extension source references
        imports).diagnostics = [d]
      unfold Compilation.ofSource
      rw [hparse]
    obtain ⟨place, hplace, hbreaks⟩ := breaksOff_of_parse_error hparse
    have hinside : place.Inside source := by
      obtain ⟨_, left, -, -, -, rfl⟩ := hbreaks
      exact Location.inside_before source left
    exact Or.inl ⟨d, place, rfl, hdiagnostics, severity_of_parse_error hparse,
      hplace, hbreaks, hinside⟩
  | ok m =>
    refine Or.inr ⟨⟨m, rfl⟩, fun d hd => ?_⟩
    have hdiagnostics : diagnostics = m.check registry references imports := by
      show (Compilation.ofSource registry extension source references
        imports).diagnostics = _
      rw [Compilation.ofSource_of_parse hparse]
    rw [hdiagnostics] at hd
    exact unlocated_of_mem_check hd

end Manifest

end DetectorBench
