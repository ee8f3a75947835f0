import DetectorBench.Proofs.Command.Agreement
import DetectorBench.Proofs.Command.Line
import DetectorBench.Proofs.Json.Canonical
import DetectorBench.Proofs.Json.Causes
import DetectorBench.Proofs.Json.Sound

/-!
# Arguments reach a detector as they are

An argument is read as JSON, and what is not JSON is taken for a text. Nobody is
told which of the two happened, so a value that was written and not read back
would silently turn into a text. That does not happen to a value whose numbers
are exact and that is not nested too deep (`readArgument_compact`), and what is
a text of no value at all is taken as it is (`readArgument_of_not_spelled`).

The routine that gives its argument back shows both. What it came to is printed
so that every output, the missing one included, has a print of its own
(`Output.report_injective`, `Output.noValue_ne_value`).
-/

namespace DetectorBench

/-! ## Values as arguments -/

/-- A value that an argument can carry: its numbers are integers of 64 bits, its
members are in order, and its brackets are nested no deeper than is read. -/
structure Json.Passable (v : Json) : Prop where
  exact : v.Exact
  canonical : v.canonical = v
  shallow : v.height ≤ Json.maxDepth

namespace Command

/-- **A value that was written is read back.** -/
theorem readArgument_compact {v : Json} (passable : v.Passable) :
    readArgument v.compact = v := by
  have hparse : Json.parse v.compact = .ok v := by
    have hcanonical := Json.parse_write passable.exact passable.shallow .compact
    rwa [passable.canonical] at hcanonical
  unfold readArgument
  rw [hparse]

/-- Where no value starts there is no text of one. -/
theorem not_spelled_of_head {source : String} {s : Json.Symbol}
    {rest : Json.Input} (hsource : Json.symbolsOfText source = s :: rest)
    (hs : s.isBlank = false) (hopens : ∀ j, ¬Json.Opens j s) (j : Json) :
    ¬j.Spelled source := by
  rintro ⟨b, t, b', hb, value, -, htext⟩
  rw [hsource] at htext
  cases b with
  | nil =>
    obtain ⟨s', u, rfl, opens⟩ := value.opens
    cases htext
    exact hopens j opens
  | cons x b =>
    cases htext
    rw [hb s List.mem_cons_self] at hs
    cases hs

/-- **What is no JSON is taken for a text.** -/
theorem readArgument_of_not_spelled {raw : String}
    (h : ∀ j : Json, ¬j.Spelled raw) :
    readArgument raw = .string raw := by
  unfold readArgument
  cases hparse : Json.parse raw with
  | ok j =>
    obtain ⟨w, spelled, -⟩ := Json.spelled_of_parse hparse
    exact absurd spelled (h w)
  | error fault => rfl

end Command

/-! ## Outputs in print -/

namespace Output

/-- Every number of an output is an integer of 64 bits. -/
def Exact (o : Output) : Prop :=
  ∀ v, o.value? = some v → v.Exact

/-- What JSON reports of an output. -/
def reported (present : Bool) (v : Json) : Json :=
  .object [("success", .bool true), ("has_value", .bool present), ("value", v)]

/-- No value is printed as what stands for none: a text has quotation marks
around it, and a number has no bracket. -/
theorem pretty_ne_noValue (v : Json) : v.pretty ≠ "(no value)" := by
  intro h
  have hchars : v.write (.pretty 0) = "(no value)".toList :=
    String.ofList_injective h
  cases v with
  | number n =>
    have hbracket : '(' ∉ n.text := Json.notMem_number (by decide) (by decide) n
    have htext : n.text = "(no value)".toList := hchars
    rw [htext] at hbracket
    exact hbracket (by decide)
  | bool b => cases b <;> cases hchars
  | array items => cases items <;> cases hchars
  | object members => cases members <;> cases hchars
  | null | string => cases hchars

/-- In JSON it is told beside the value whether there is one. -/
theorem reported_ne (v w : Json) :
    (reported false v).pretty ≠ (reported true w).pretty := by
  intro h
  have hchars := String.ofList_injective h
  simp [reported, Json.write, Json.writeMembers] at hchars

/-- **A missing value is not printed like any value**, not even like `null` or
like a text that says so. -/
theorem noValue_ne_value (v : Json) (json : Bool) :
    Output.noValue.report json ≠ (Output.value v).report json := by
  cases json with
  | false => exact (pretty_ne_noValue v).symm
  | true => exact reported_ne .null v

/-- **Every output has a print of its own.** -/
theorem report_injective {o o' : Output} (exact : o.Exact) (exact' : o'.Exact)
    {json : Bool} (h : o.report json = o'.report json) : o = o' := by
  cases o with
  | noValue =>
    cases o' with
    | noValue => rfl
    | value w => exact absurd h (noValue_ne_value w json)
  | value v =>
    cases o' with
    | noValue => exact absurd h.symm (noValue_ne_value v json)
    | value w =>
      have hv := exact v rfl
      have hw := exact' w rfl
      cases json with
      | false => rw [Json.pretty_injective hv hw h]
      | true =>
        have hreported : reported true v = reported true w :=
          Json.pretty_injective ⟨trivial, trivial, hv, trivial⟩
            ⟨trivial, trivial, hw, trivial⟩ h
        cases hreported
        rfl

end Output

/-! ## Manifests that give their argument back -/

/-- Opening a file leads to a ready host, for a manifest that is bound to a
routine. -/
def Session.ReadiesWith (s : Session) (t : FileTree) (path routine : String) :
    Prop :=
  ∃ h m, s.openManifest FileTree.disk path t = (.ok h, t) ∧ h.stage = .ready ∧
    Manifest.parse h.unit.script = .ok m ∧ m.entry.routine = routine

/-- That is so if the file holds a manifest that is accepted, and only then. -/
theorem Session.readiesWith_iff {s : Session} {t : FileTree}
    {path routine : String} :
    s.ReadiesWith t path routine ↔ ∃ source m r verdict, t.Holds path source ∧
      Manifest.parse source = .ok m ∧ s.Accepts m r verdict ∧
      m.entry.routine = routine := by
  constructor
  · intro hready
    obtain ⟨h, m, opened, stage, parsed, bound⟩ := hready
    have readies : s.Readies t path := by
      by_contra hnot
      obtain ⟨outcome, hopen, unready⟩ := openManifest_of_not_readies hnot
      rw [opened] at hopen
      cases hopen
      exact (unready h rfl).1 stage
    obtain ⟨source, m', r, verdict, holds, parsed', accepts⟩ := readies
    have hopen := openManifest_of_accepts holds parsed' accepts
    rw [opened] at hopen
    cases hopen
    have hsource : (s.readyHost path source m' r verdict).unit.script = source := rfl
    rw [hsource, parsed'] at parsed
    cases parsed
    exact ⟨source, m, r, verdict, holds, parsed', accepts, bound⟩
  · intro haccepted
    obtain ⟨source, m, r, verdict, holds, parsed, accepts, bound⟩ := haccepted
    exact ⟨_, m, openManifest_of_accepts holds parsed accepts, rfl, parsed, bound⟩

theorem FileTree.ne_empty_of_holds {t : FileTree} {path text : String}
    (holds : t.Holds path text) :
    path ≠ "" := by
  rintro rfl
  obtain ⟨bytes, hread, -⟩ := holds
  have hnames : FileTree.names "" = .error .notFound := rfl
  unfold FileTree.read at hread
  rw [hnames] at hread
  cases hread

namespace Command

theorem invoke_echo (m : Manifest) (v : Json) (more : List Json) :
    (m.entryPoint Routine.echo).invoke (v :: more) = .ok (.value v) := rfl

/-- Invoking such a manifest prints the first argument, and that is all. -/
theorem execute_echo {s : Session} (registry : s.registry = Routine.builtin)
    {t : FileTree} {path : String} (ready : s.ReadiesWith t path "echo")
    (first : String) (more : List String) (json : Bool) :
    (run path (first :: more)).execute s FileTree.disk json t =
      (.success ((Output.value (readArgument first)).report json), t) := by
  obtain ⟨source, m, r, verdict, holds, parsed, accepts, bound⟩ :=
    Session.readiesWith_iff.mp ready
  have hr : r = Routine.echo := by
    have hbuiltin : Routine.builtin.get? "echo" = some Routine.echo := rfl
    have hroutine := accepts.routine
    rw [registry, bound, hbuiltin] at hroutine
    cases hroutine
    rfl
  subst hr
  have hinvoke : (s.readyHost path source m Routine.echo verdict).invoke
      ((first :: more).map readArgument) = .ok (.value (readArgument first)) :=
    invoke_echo m (readArgument first) (more.map readArgument)
  rw [execute_run (Session.openManifest_of_accepts holds parsed accepts), hinvoke]
  rfl

/-- **Arguments reach a detector unchanged.** The text of a value is read back
as the value, and what is no JSON is taken for a text as it is. So a run of a
manifest that gives its argument back prints the first argument, and has nothing
to say on the error stream (log lines are left out), whatever the other
arguments are, in every environment and with all lists of what may be used; and
there is a line that asks for it. Different outputs are printed differently, and
the print of a missing value is that of no value. -/
theorem arguments_echoed (env : Environment) (references imports : List String)
    (t : FileTree) :
    (∀ v : Json, v.Passable → readArgument v.compact = v) ∧
    (∀ raw, (∀ j : Json, ¬j.Spelled raw) → readArgument raw = .string raw) ∧
    (∀ path,
      (Session.ofEnvironment env references imports).ReadiesWith t path "echo" →
      ∀ v : Json, v.Passable → ∀ more json,
        let printed := if json then
            (Json.object [("success", .bool true), ("has_value", .bool true),
              ("value", v)]).pretty
          else v.pretty
        let arguments := v.compact :: more
        CommandLine.Request.endOn
            ⟨.run path arguments, json, references, imports⟩ env t =
          (⟨0, printed ++ "\n", ""⟩, t) ∧
          Program.run env FileTree.disk
              (CommandLine.runLine path arguments json references imports) t =
            (⟨0, printed ++ "\n", ""⟩, t)) ∧
    (∀ o o' : Output, o.Exact → o'.Exact → ∀ json,
      o.report json = o'.report json → o = o') ∧
    (∀ (v : Json) json,
      Output.noValue.report json ≠ (Output.value v).report json) := by
  refine ⟨fun v => readArgument_compact, fun raw => readArgument_of_not_spelled, ?_,
    fun o o' exact exact' json => Output.report_injective exact exact',
    Output.noValue_ne_value⟩
  intro path ready v passable more json printed arguments
  have hends :
      CommandLine.Request.endOn ⟨.run path arguments, json, references, imports⟩
        env t = (⟨0, printed ++ "\n", ""⟩, t) := by
    have hexecute := execute_echo rfl ready v.compact more json
    rw [readArgument_compact passable] at hexecute
    exact CommandLine.Request.endOn_of_execute
      ⟨.run path arguments, json, references, imports⟩ hexecute
  obtain ⟨source, -, -, -, holds, -⟩ := Session.readiesWith_iff.mp ready
  have hparse :=
    CommandLine.parse_runLine (FileTree.ne_empty_of_holds holds) arguments json
      references imports
  exact ⟨hends, (Program.run_of_parse hparse env t).trans hends⟩

/-- A negative number is attached to its option, and a bare word is no JSON. -/
theorem arguments_echoed_negative :
    let m : Manifest := ⟨⟨"run", "echo"⟩, .empty, [], []⟩
    let t : FileTree := ⟨[(["m"], .file m.bytes)]⟩
    readArgument "[-5]" = .array [.number (.int (-5))] ∧
      readArgument "bare" = .string "bare" ∧
      Program.run .empty FileTree.disk
          ["--json", "run", "--arg=-5", "--arg=bare", "--", "m"] t =
        (⟨0,
          "\x7b\n  \"success\": true,\n  \"has_value\": true,\n  \"value\": -5\n\x7d\n", ""⟩, t) ∧
      Output.noValue.report true ≠ (Output.value .null).report true := by
  intro m t
  have accepts :
      (Session.ofEnvironment .empty [] []).Accepts m Routine.echo ⟨false, []⟩ :=
    ⟨rfl, rfl, rfl, rfl⟩
  have holds : t.Holds "m" m.text := ⟨m.bytes, rfl, Manifest.fromUTF8?_toUTF8 m.text⟩
  have ready : (Session.ofEnvironment .empty [] []).ReadiesWith t "m" "echo" :=
    Session.readiesWith_iff.mpr ⟨_, m, _, _, holds, Manifest.parse_text m,
      accepts, rfl⟩
  have inRange : Json.InRange (-5) := ⟨by decide, by decide⟩
  have number : (Json.number (.int (-5))).Passable :=
    ⟨⟨-5, rfl, inRange⟩, rfl, Nat.zero_le _⟩
  have items : (Json.array [.number (.int (-5))]).Passable :=
    ⟨⟨⟨-5, rfl, inRange⟩, trivial⟩, rfl, by decide⟩
  have hbare : ∀ j : Json, ¬j.Spelled "bare" := by
    refine not_spelled_of_head rfl rfl fun j opens => ?_
    cases opens with
    | digit digit => exact Bool.noConfusion digit
  obtain ⟨hreads, htexts, hruns, -, hnoValue⟩ := arguments_echoed .empty [] [] t
  have hitems : (Json.array [.number (.int (-5))]).compact = "[-5]" := by
    decide +kernel
  have hnumber : (Json.number (.int (-5))).compact = "-5" := by decide +kernel
  have hline : CommandLine.runLine "m" ["-5", "bare"] true [] [] =
      ["--json", "run", "--arg=-5", "--arg=bare", "--", "m"] := by decide +kernel
  have hprinted : (Json.object [("success", .bool true), ("has_value", .bool true),
      ("value", .number (.int (-5)))]).pretty ++ "\n" =
      "\x7b\n  \"success\": true,\n  \"has_value\": true,\n  \"value\": -5\n\x7d\n" := by
    decide +kernel
  refine ⟨?_, htexts "bare" hbare, ?_, hnoValue .null true⟩
  · rw [← hitems]
    exact hreads _ items
  · obtain ⟨-, hrun⟩ := hruns "m" ready _ number ["bare"] true
    rw [hnumber, hline, if_pos rfl, hprinted] at hrun
    exact hrun

end Command

end DetectorBench
