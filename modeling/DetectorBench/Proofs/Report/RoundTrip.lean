import DetectorBench.Proofs.Manifest.RoundTrip
import DetectorBench.Proofs.Record.Choices
import DetectorBench.Report

/-!
# Reports are read back

The JSON report on a host is a record, and whoever reads it finds what the
report was made of (`shownBy_report`), though it is printed with a line break
behind it.
-/

namespace DetectorBench

open Json Codec

/-! ## The records that a report is made of -/

theorem Metadata.codec_follows : Metadata.codec.Follows 4 := by
  have hresource := ResourceFilter.codec_follows.mono (show 1 ≤ 3 by omega)
  have hsystem := SystemFilter.codec_follows.mono (show 1 ≤ 3 by omega)
  refine Follows.map (Record.codec_follows ?_) _ _
  exact ⟨optional_follows Definition.codec_follows, optional_follows hresource,
    optional_follows hsystem, trivial⟩

theorem Metadata.codec_lawful : Metadata.codec.Lawful := by
  refine Lawful.map (Record.codec_lawful ?_ (by decide)) fun _ => rfl
  exact ⟨Field.maybe_lawful _ Definition.codec_lawful fun _ => nofun,
    Field.maybe_lawful _ ResourceFilter.codec_lawful fun _ => nofun,
    Field.maybe_lawful _ SystemFilter.codec_lawful fun _ => nofun, trivial⟩

theorem Stage.codec_follows : Stage.codec.Follows 1 :=
  Choices.codec_follows _ _

theorem Stage.codec_lawful : Stage.codec.Lawful := by
  refine Choices.codec_lawful ?_
  intro stage
  cases stage <;> rfl

namespace Report

theorem codec_follows : codec.Follows 5 := by
  have hstage := Stage.codec_follows.mono (show 1 ≤ 4 by omega)
  have htext : Codec.text.Follows 0 := text_follows
  have hlist := (list_follows htext).mono (show 0 + 1 ≤ 4 by omega)
  refine Follows.map (Record.codec_follows ?_) _ _
  exact ⟨flag_follows.mono (Nat.zero_le 4), hstage, hlist,
    optional_follows text_follows,
    Metadata.codec_follows, trivial⟩

theorem codec_lawful : codec.Lawful := by
  refine Lawful.map (Record.codec_lawful ?_ (by decide)) fun _ => rfl
  exact ⟨Field.required_lawful _ flag_lawful,
    Field.required_lawful _ Stage.codec_lawful,
    Field.required_lawful _ text_lawful.list, Field.maybe_lawful _ text_lawful
      fun _ => nofun,
    Field.required_lawful _ Metadata.codec_lawful, trivial⟩

/-! ## What is printed -/

/-- A text is read as a report. -/
def ShownBy (r : Report) (text : String) : Prop :=
  codec.readDocument (symbolsOfText text) = .ok r

/-- A text shows one report at most. -/
theorem ShownBy.unique {r r' : Report} {text : String} (h : r.ShownBy text)
    (h' : r'.ShownBy text) :
    r = r' := by
  unfold ShownBy at h h'
  rw [h] at h'
  cases h'
  rfl

/-- The empty text shows no report. -/
theorem not_shownBy_empty (r : Report) : ¬r.ShownBy "" := by
  intro h
  cases h

/-- A line break behind a report does not matter. -/
theorem shownBy_line (r : Report) : r.ShownBy (codec.pretty r ++ "\n") := by
  have value := write_spells (.pretty 0) (codec.encode r) (codec_lawful.exact r)
  have newline : Blank (symbols ['\n']) := by
    intro s hs
    rw [List.mem_singleton.mp hs]
    rfl
  have hread := codec_follows.readDocument_iff (by decide) blank_nil value newline r
  have htext : symbolsOfText (codec.pretty r ++ "\n") =
      [] ++ (symbols ((codec.encode r).write (.pretty 0)) ++ symbols ['\n']) := by
    show (String.ofList _ ++ "\n").toList.map Symbol.char = _
    rw [String.toList_append, String.toList_ofList, List.map_append]
    rfl
  unfold ShownBy
  rw [htext]
  exact hread.mpr (codec_lawful.decode_encode r)

end Report

/-- The JSON report on a host shows what the host has found. -/
theorem Host.shownBy_report (h : Host) :
    (Report.ofHost h).ShownBy (h.report true ++ "\n") :=
  Report.shownBy_line _

end DetectorBench
