import DetectorBench.CommandLine

/-!
# Lines that ask for a run

A text that is attached to its option by an equals sign reaches the option
whatever it looks like: it is taken neither for an option nor for the file. So
there is a line for every run (`parse_runLine`), also where an argument is a
negative number, or a reference is the name of a command.
-/

namespace DetectorBench.CommandLine

/-- A word that gives a value to an option. -/
def attach (long value : String) : String :=
  "--" ++ long ++ "=" ++ value

/-- Values that were given to an option one by one. -/
def entriesOf (long : String) (values : List String) :
    List (String × List String) :=
  values.map fun value => (long, [value])

/-! ## What was found -/

namespace Found

variable {long other : String} {values : List String}
  {entries entries' : List (String × List String)}

/-- An option is there if it is in one of two parts. -/
theorem has_append :
    (Found.mk (entries ++ entries')).has long =
      ((mk entries).has long || (mk entries').has long) :=
  List.any_append

/-- What is given to an option in two parts is given in their order. -/
theorem values_append :
    (Found.mk (entries ++ entries')).values long =
      (mk entries).values long ++ (mk entries').values long := by
  unfold Found.values
  rw [List.filter_append, List.flatMap_append]

/-- Values of one option do not make another one there. -/
theorem has_entriesOf_ne (h : other ≠ long) :
    (Found.mk (entriesOf other values)).has long = false := by
  refine List.any_eq_false.mpr fun entry hentry => ?_
  obtain ⟨value, -, rfl⟩ := List.mem_map.mp hentry
  simpa using h

/-- The values of an option are found as they were given. -/
theorem values_entriesOf :
    (Found.mk (entriesOf long values)).values long = values := by
  induction values with
  | nil => rfl
  | cons value values ih =>
    have hfirst : (Found.mk (entriesOf long [value])).values long = [value] := by
      simp [entriesOf, Found.values]
    show (Found.mk (entriesOf long [value] ++ entriesOf long values)).values long = _
    rw [values_append, ih, hfirst]
    rfl

/-- They are not found for another option. -/
theorem values_entriesOf_ne (h : other ≠ long) :
    (Found.mk (entriesOf other values)).values long = [] := by
  have hnone : (entriesOf other values).filter (·.1 == long) = [] := by
    refine List.filter_eq_nil_iff.mpr fun entry hentry => ?_
    obtain ⟨value, -, rfl⟩ := List.mem_map.mp hentry
    simpa using h
  unfold Found.values
  rw [hnone]
  rfl

end Found

/-! ## Reading options with their values attached -/

/-- A line before the file, when no option is open. -/
def Progress.idle (entries : List (String × List String)) : Progress :=
  ⟨⟨entries⟩, none, false, false, false⟩

/-- An attached value is split off at the first equals sign, however many it
holds itself. -/
theorem splitLong_attach {name : List Char} (hname : '=' ∉ name)
    (value : List Char) :
    splitLong (name ++ '=' :: value) =
      (String.ofList name, some (String.ofList value)) := by
  have hplain : ∀ c ∈ name, decide (c ≠ '=') = true := by
    intro c hc
    exact decide_eq_true fun heq => hname (heq ▸ hc)
  have hdrop : (name ++ '=' :: value).dropWhile (· ≠ '=') = '=' :: value := by
    rw [List.dropWhile_append_of_pos hplain]
    rfl
  have htake : (name ++ '=' :: value).takeWhile (· ≠ '=') = name := by
    rw [List.takeWhile_append_of_pos hplain]
    simp
  unfold splitLong
  rw [hdrop, htake]

namespace Grammar

variable {g : Grammar} {spec : OptionSpec}

/-- An option takes any text that is attached to it, and may be given again. -/
structure Attaches (g : Grammar) (spec : OptionSpec) : Prop where
  listed : g.options.find? (·.long == spec.long) = some spec
  plain : '=' ∉ spec.long.toList
  repeats : spec.kind = .text ∨ spec.kind = .texts
  /-- No command of the grammar is mistaken for an option. -/
  commands : ∀ c ∈ g.commands, c.toList.head? ≠ some '-'

/-- What an attached value looks like, character by character. -/
theorem toList_attach (long value : String) :
    (attach long value).toList = '-' :: '-' ::
      (long.toList ++ '=' :: value.toList) := by
  simp [attach]

/-- The value is kept beside those given before. -/
theorem Attaches.take (a : g.Attaches spec)
    (entries : List (String × List String)) (value : String) :
    (Progress.idle entries).take spec [value] =
      .ok (.idle (entries ++ [(spec.long, [value])])) := by
  obtain ⟨long, short, kind⟩ := spec
  rcases a.repeats with hkind | hkind <;> cases hkind <;> rfl

/-- An option that may be given again takes values. -/
theorem Attaches.takesValues (a : g.Attaches spec) :
    spec.kind.takesValues = true := by
  rcases a.repeats with hkind | hkind <;> rw [hkind] <;> rfl

/-- An attached value is read in one step, and no option is open afterwards. -/
theorem Attaches.readWord (a : g.Attaches spec)
    (entries : List (String × List String)) (value : String) :
    g.readWord (.idle entries) (attach spec.long value) =
      .ok (.idle (entries ++ [(spec.long, [value])])) := by
  have hlong : g.readLong (.idle entries) (spec.long.toList ++ '=' :: value.toList) =
      .ok (.idle (entries ++ [(spec.long, [value])])) := by
    unfold readLong
    rw [splitLong_attach a.plain, String.ofList_toList, String.ofList_toList]
    dsimp only
    rw [a.listed]
    exact (if_pos a.takesValues).trans (a.take entries value)
  obtain ⟨c, cs, hcs⟩ : ∃ c cs, spec.long.toList ++ '=' :: value.toList = c :: cs :=
    List.exists_cons_of_ne_nil
      (List.append_ne_nil_of_right_ne_nil _ (List.cons_ne_nil _ _))
  unfold Grammar.readWord
  rw [toList_attach]
  rw [hcs] at hlong ⊢
  exact hlong

/-- It is not taken for a command. -/
theorem Attaches.startsCommand (a : g.Attaches spec) (p : Progress)
    (value : String) :
    g.startsCommand p (attach spec.long value) = false := by
  have hcommand : g.commands.contains (attach spec.long value) = false := by
    refine Bool.eq_false_iff.mpr fun hmem => ?_
    refine a.commands _ (List.contains_iff_mem.mp hmem) ?_
    rw [toList_attach]
    rfl
  unfold Grammar.startsCommand
  rw [hcommand, Bool.and_false]

/-- A word that is read without starting a command can be left behind. -/
theorem readFrom_cons {p p' : Progress} {word : String}
    (hplain : g.startsCommand p word = false)
    (hword : g.readWord p word = .ok p') (rest : List String) :
    g.readFrom p (word :: rest) = g.readFrom p' rest := by
  show (if g.startsCommand p word then _ else (g.readWord p word).bind
    (g.readFrom · rest)) = _
  rw [hplain, hword]
  rfl

/-- **Attached values are recorded in order**, and the rest of the line is read
as it would be. -/
theorem Attaches.readFrom (a : g.Attaches spec) (values rest : List String) :
    ∀ entries : List (String × List String),
      g.readFrom (.idle entries) (values.map (attach spec.long) ++ rest) =
        g.readFrom (.idle (entries ++ entriesOf spec.long values)) rest := by
  induction values with
  | nil =>
    intro entries
    show g.readFrom (.idle entries) rest = g.readFrom (.idle (entries ++ [])) rest
    rw [List.append_nil]
  | cons value values ih =>
    intro entries
    rw [List.map_cons, List.cons_append,
      readFrom_cons (a.startsCommand _ value) (a.readWord entries value), ih,
      List.append_assoc]
    rfl

end Grammar

/-! ## The line of a run -/

/-- A line that asks for a run. -/
def runLine (manifest : String) (arguments : List String) (json : Bool)
    (references imports : List String) : List String :=
  (if json then ["--json"] else []) ++
    (references.map (attach "reference") ++ (imports.map (attach "import") ++
      "run" :: (arguments.map (attach "arg") ++ ["--", manifest])))

/-- Both lists of names can be attached. -/
theorem attaches_shared {long : String}
    (h : long = "reference" ∨ long = "import") :
    grammar.Attaches ⟨long, none, .text⟩ := by
  rcases h with rfl | rfl <;>
    exact ⟨by decide, by decide, .inl rfl, by decide⟩

/-- So can arguments, behind the command. -/
theorem attaches_argument :
    (Verb.run.grammar sharedOptions).Attaches ⟨"arg", none, .texts⟩ :=
  ⟨by decide, by decide, .inr rfl, by decide⟩

/-- What is found before the command in the line of a run. -/
def foundBefore (json : Bool) (references imports : List String) : Found :=
  ⟨(if json then [("json", [])] else []) ++
    (entriesOf "reference" references ++ entriesOf "import" imports)⟩

/-- What is found after the command. -/
def foundAfter (manifest : String) (arguments : List String) : Found :=
  ⟨entriesOf "arg" arguments ++ [("file", [manifest])]⟩

section Read

variable {manifest : String} (named : manifest ≠ "") (arguments : List String)
  (json : Bool)
  (references imports : List String)

/-- The flag before the command is found if it was given. -/
theorem has_json_foundBefore :
    (foundBefore json references imports).has "json" = json := by
  unfold foundBefore
  rw [Found.has_append, Found.has_append, Found.has_entriesOf_ne (by decide),
    Found.has_entriesOf_ne (by decide)]
  cases json <;> rfl

/-- What else is found before the command was given to one of the two lists. -/
theorem values_foundBefore {long : String} (hlong : "json" ≠ long) :
    (foundBefore json references imports).values long =
      (Found.mk (entriesOf "reference" references)).values long ++
        (Found.mk (entriesOf "import" imports)).values long := by
  have hflag :
      (Found.mk (if json then [("json", [])] else [])).values long = [] := by
    cases json <;> simp [Found.values, hlong]
  unfold foundBefore
  rw [Found.values_append, Found.values_append, hflag, List.nil_append]

/-- The references are found in order. -/
theorem references_foundBefore :
    (foundBefore json references imports).values "reference" = references := by
  rw [values_foundBefore json references imports (by decide), Found.values_entriesOf,
    Found.values_entriesOf_ne (by decide), List.append_nil]

/-- The imports are found in order. -/
theorem imports_foundBefore :
    (foundBefore json references imports).values "import" = imports := by
  rw [values_foundBefore json references imports (by decide), Found.values_entriesOf,
    Found.values_entriesOf_ne (by decide), List.nil_append]

/-- After the command only arguments and the file are found. -/
theorem not_has_foundAfter {long : String} (hargument : "arg" ≠ long)
    (hfile : "file" ≠ long) :
    (foundAfter manifest arguments).has long = false := by
  unfold foundAfter
  rw [Found.has_append, Found.has_entriesOf_ne hargument]
  simpa [Found.has] using hfile

/-- They are made the run that was meant. -/
theorem command_foundAfter :
    Verb.run.command (foundAfter manifest arguments) =
      .ok (.run manifest arguments) := by
  have hfile : (foundAfter manifest arguments).values Verb.fileArgument =
      [manifest] := by
    unfold foundAfter
    rw [Found.values_append, Found.values_entriesOf_ne (by decide)]
    rfl
  have harguments : (foundAfter manifest arguments).values "arg" = arguments := by
    unfold foundAfter
    rw [Found.values_append, Found.values_entriesOf]
    exact List.append_nil arguments
  simp only [Verb.command, Verb.file, hfile, harguments]
  rfl

/-- The words before the command are read as they were meant, and the rest is
left to the command. -/
theorem read_runLine :
    grammar.read (runLine manifest arguments json references imports) =
      .ok (foundBefore json references imports,
        "run" :: (arguments.map (attach "arg") ++ ["--", manifest])) := by
  have hrest : ∀ entries : List (String × List String),
      grammar.readFrom (.idle entries)
          (references.map (attach "reference") ++ (imports.map (attach "import") ++
            "run" :: (arguments.map (attach "arg") ++ ["--", manifest]))) =
        .ok
          (⟨entries ++ (entriesOf "reference" references ++
            entriesOf "import" imports)⟩,
          "run" :: (arguments.map (attach "arg") ++ ["--", manifest])) := by
    intro entries
    rw [(attaches_shared (.inl rfl)).readFrom, (attaches_shared (.inr rfl)).readFrom,
      List.append_assoc]
    rfl
  cases json with
  | false => exact hrest []
  | true => exact hrest [("json", [])]

include named in
/-- The words after the command are read as they were meant. -/
theorem read_afterRun :
    Verb.run.read sharedOptions (arguments.map (attach "arg") ++ ["--", manifest]) =
      .ok (.run manifest arguments, foundAfter manifest arguments) := by
  have hfile : (Found.mk (entriesOf "arg" arguments)).take ⟨"file", none, .path⟩
      [manifest] = .ok (foundAfter manifest arguments) := by
    have hnew : (Found.mk (entriesOf "arg" arguments)).has "file" = false :=
      Found.has_entriesOf_ne (by decide)
    simp [Found.take, hnew, named, foundAfter]
  have hread : (Verb.run.grammar sharedOptions).read
      (arguments.map (attach "arg") ++ ["--", manifest]) =
      .ok (foundAfter manifest arguments, []) := by
    have hstart : Progress.start = .idle [] := rfl
    unfold Grammar.read
    rw [hstart, attaches_argument.readFrom]
    -- the two dashes end the options, so that the file is recorded at the end
    -- of the line
    show (do return ((← Progress.settle ⟨⟨entriesOf "arg" arguments⟩,
      some (⟨"file", none, .path⟩, [manifest]), false, true, true⟩).found, [])) = _
    unfold Progress.settle
    simp only [hfile]
    rfl
  unfold Verb.read
  rw [hread]
  show ((Verb.run.command (foundAfter manifest arguments)).bind fun command =>
    .ok (command, foundAfter manifest arguments)) = _
  rw [command_foundAfter]
  rfl

include named in
/-- **There is a line for every run** of a file that has a name. -/
theorem parse_runLine :
    parse (runLine manifest arguments json references imports) =
    .ok ⟨.run manifest arguments, json, references, imports⟩ := by
  let before := foundBefore json references imports
  let after := foundAfter manifest arguments
  have hmerged : ∀ long, "arg" ≠ long → "file" ≠ long →
      mergedValues before after long = before.values long := by
    intro long hargument hfile
    unfold mergedValues
    rw [not_has_foundAfter arguments hargument hfile]
    rfl
  unfold parse
  rw [read_runLine]
  show ((Verb.run.read sharedOptions
    (arguments.map (attach "arg") ++ ["--", manifest])).bind _) = _
  rw [read_afterRun named]
  show Except.ok (Request.mk (.run manifest arguments)
    (before.has "json" || after.has "json")
    (mergedValues before after "reference") (mergedValues before after "import")) = _
  rw [has_json_foundBefore, not_has_foundAfter arguments (by decide)
    (by decide), Bool.or_false, hmerged "reference" (by decide) (by decide),
    hmerged "import" (by decide) (by decide),
    references_foundBefore, imports_foundBefore]

example : parse ["run", "--arg=-5", "--arg=", "--", "m"] =
    .ok ⟨.run "m" ["-5", ""], false, [], []⟩ := rfl

end Read

end DetectorBench.CommandLine
