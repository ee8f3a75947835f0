import DetectorBench.Proofs.Command.Agreement
import DetectorBench.Proofs.Environment.Names

/-!
# Where the lists of a session come from

What a unit may refer to and import is listed on the command line or in the
environment. The two are interchangeable: a session only keeps the names, and a
variable that lists some names gives the same session as the same names on the
command line, whatever the variable says otherwise
(`ofEnvironment_given_references`, `ofEnvironment_given_imports`). A variable
that lists no name gives the session without the list
(`ofEnvironment_empty_references`, `ofEnvironment_empty_imports`), and then
nothing that a manifest declares is refused (`check_unlisted_references`).

Each variable is read in one place only, so that changing it leaves everything
else about the session as it was.
-/

namespace DetectorBench

namespace Manifest

/-- What there is to say about names depends on a list only as far as it allows
them. -/
theorem checkNames_congr (what : String)
    {allowed allowed' : Option (List String)} :
    ∀ {declared : List String},
      (∀ name ∈ declared, permits allowed name = permits allowed' name) →
      ∀ seen, checkNames what allowed seen declared =
        checkNames what allowed' seen declared := by
  intro declared
  induction declared with
  | nil => exact fun _ _ => rfl
  | cons name rest ih =>
    intro hsame seen
    obtain ⟨hname, hrest⟩ := List.forall_mem_cons.mp hsame
    unfold checkNames
    rw [hname, ih hrest, ih hrest]

/-- Without a list nothing is refused: it is as if the list had all that is
declared. -/
theorem checkNames_unlisted (what : String) (declared : List String) :
    checkNames what none [] declared =
      checkNames what (some declared) [] declared := by
  refine checkNames_congr what (fun name hname => ?_) []
  have hlisted : permits (some declared) name = true :=
    permits_iff.mpr fun list hlist => Option.some.inj hlist ▸ hname
  rw [hlisted]
  rfl

/-- No list of references allows what a list of the declared ones does. -/
theorem check_unlisted_references (m : Manifest) (registry : Registry)
    (imports : Option (List String)) :
    m.check registry none imports =
      m.check registry (some m.references) imports := by
  unfold check
  rw [checkNames_unlisted]

/-- No list of imports allows what a list of the declared ones does. -/
theorem check_unlisted_imports (m : Manifest) (registry : Registry)
    (references : Option (List String)) :
    m.check registry references none =
      m.check registry references (some m.imports) := by
  unfold check
  rw [checkNames_unlisted]

end Manifest

namespace Session

open Environment (Listable Lists joinEntries)

variable (env : Environment)

/-! ## Lists -/

/-- Names on the command line go before those in the environment. -/
theorem allowed_of_given {given : List String} (h : given ≠ [])
    (name : String) :
    allowed given env name = some given := by
  unfold allowed
  rw [if_neg h]
  exact if_neg h

/-- Without them the names in the environment count. -/
theorem allowed_of_names {name : String} {names : List String}
    (hne : names ≠ []) (h : env.names name = names) :
    allowed [] env name = some names := by
  unfold allowed
  rw [if_pos rfl, h]
  exact if_neg hne

/-- Without any names there is no list. -/
theorem allowed_of_no_names {name : String} (h : env.names name = []) :
    allowed [] env name = none := by
  unfold allowed
  rw [if_pos rfl, h]
  exact if_pos rfl

/-- Each list depends on one variable. -/
theorem allowed_put_of_ne (given : List String) {name other : String}
    (h : other ≠ name) (value : Option ByteArray) :
    allowed given (env.put name value) other = allowed given env other := by
  unfold allowed Environment.names Environment.value?
  rw [Environment.raw_put_of_ne env h]

/-! ## Changing a variable -/

/-- A variable of a list is read for that list only. -/
theorem ofEnvironment_put {name : String}
    (h : name = "DETECTOR_REFERENCES" ∨ name = "DETECTOR_IMPORTS")
    (value : Option ByteArray) (references imports : List String) :
    ofEnvironment (env.put name value) references imports =
      { ofEnvironment env references imports with
        references := allowed references (env.put name value) "DETECTOR_REFERENCES"
        imports := allowed imports (env.put name value) "DETECTOR_IMPORTS" } := by
  have hother : ∀ other, other ≠ "DETECTOR_REFERENCES" → other ≠ "DETECTOR_IMPORTS" →
      (env.put name value).raw other = env.raw other := by
    intro other href himp
    refine Environment.raw_put_of_ne env ?_ value
    rcases h with rfl | rfl
    · exact href
    · exact himp
  unfold ofEnvironment Manifest.extensionOf Settings.ofEnvironment
    Settings.overlaid Environment.flag
    Environment.text? Environment.value?
  rw [hother "DETECTOR_ARTIFACT_EXTENSION" (by decide) (by decide),
    hother "DETECTOR_ENTRY_POINT" (by decide) (by decide),
    hother "DETECTOR_RESERVED_CHARS" (by decide) (by decide),
    hother "DETECTOR_WARN_INTERNAL_TOPICS" (by decide) (by decide)]

/-- The variable of the references changes nothing else about a session. -/
theorem ofEnvironment_set_references (text : String)
    (references imports : List String) :
    ofEnvironment (env.set "DETECTOR_REFERENCES" text) references imports =
      { ofEnvironment env references imports with
        references :=
          allowed references (env.set "DETECTOR_REFERENCES" text)
            "DETECTOR_REFERENCES" } := by
  have himports := allowed_put_of_ne env imports
    (show "DETECTOR_IMPORTS" ≠ "DETECTOR_REFERENCES" by decide) (some text.toUTF8)
  unfold Environment.set
  rw [ofEnvironment_put env (.inl rfl), himports]
  rfl

/-- Nor does that of the imports. -/
theorem ofEnvironment_set_imports (text : String)
    (references imports : List String) :
    ofEnvironment (env.set "DETECTOR_IMPORTS" text) references imports =
      { ofEnvironment env references imports with
        imports := allowed imports (env.set "DETECTOR_IMPORTS" text)
            "DETECTOR_IMPORTS" } := by
  have hreferences := allowed_put_of_ne env references
    (show "DETECTOR_REFERENCES" ≠ "DETECTOR_IMPORTS" by decide) (some text.toUTF8)
  unfold Environment.set
  rw [ofEnvironment_put env (.inr rfl), hreferences]
  rfl

/-! ## Lists from either place -/

variable {env}

/-- Names on the command line count like entries that list them. -/
theorem allowed_given_eq_listed {entries names : List String} (hne : names ≠ [])
    (hlists : Lists entries names) (name : String) :
    allowed names env name = allowed [] (env.set name (joinEntries entries))
      name := by
  have hnames : (env.set name (joinEntries entries)).names name = names :=
    (Environment.names_set env name _).trans
      (Environment.splitNames_joinEntries hlists)
  rw [allowed_of_given env hne, allowed_of_names _ hne hnames]

/-- A variable of blanks and commas is no list. -/
theorem allowed_set_blank {text : String}
    (hblank : ∀ c ∈ text.toList, c = ',' ∨ Text.isBlankChar c = true)
    (name : String) :
    allowed [] (env.set name text) name = none :=
  allowed_of_no_names _ ((Environment.names_set env name text).trans
    (Environment.splitNames_eq_nil_iff.mpr hblank))

/-- References on the command line are as good as in the environment. -/
theorem ofEnvironment_listed_references {entries names : List String}
    (hne : names ≠ []) (hlists : Lists entries names) (imports : List String) :
    ofEnvironment env names imports =
      ofEnvironment (env.set "DETECTOR_REFERENCES" (joinEntries entries))
        [] imports := by
  rw [ofEnvironment_set_references, ← allowed_given_eq_listed hne hlists]
  rfl

/-- And so are imports. -/
theorem ofEnvironment_listed_imports {entries names : List String}
    (hne : names ≠ []) (hlists : Lists entries names)
    (references : List String) :
    ofEnvironment env references names =
      ofEnvironment (env.set "DETECTOR_IMPORTS" (joinEntries entries))
        references [] := by
  rw [ofEnvironment_set_imports, ← allowed_given_eq_listed hne hlists]
  rfl

/-- **Lists on the command line and in the environment are interchangeable.**
What a variable lists is listable, and reading it again after joining it changes
nothing; from a text exactly those names are read that its entries list. So a
run with listable names on the command line ends like the run whose variable
lists the same names, whatever the variable was set to before, and a variable of
commas and blanks only gives the session without the list, which refuses nothing
that a manifest declares. -/
theorem lists_interchangeable (env : Environment) :
    (∀ key,
      (∀ name ∈ env.names key, Listable name) ∧
      (env.set key (joinEntries (env.names key))).names key = env.names key) ∧
    (∀ key text names,
      (env.set key text).names key = names ↔
        ∃ entries, text = joinEntries entries ∧ Lists entries names) ∧
    (∀ names, (∀ name ∈ names, Listable name) → Lists names names) ∧
    (∀ entries names, names ≠ [] → Lists entries names → ∀ command json others t,
      CommandLine.Request.endOn ⟨command, json, names, others⟩ env t =
        CommandLine.Request.endOn ⟨command, json, [], others⟩
          (env.set "DETECTOR_REFERENCES" (joinEntries entries)) t ∧
      CommandLine.Request.endOn ⟨command, json, others, names⟩ env t =
        CommandLine.Request.endOn ⟨command, json, others, []⟩
          (env.set "DETECTOR_IMPORTS" (joinEntries entries)) t) ∧
    (∀ text : String, (∀ c ∈ text.toList, c = ',' ∨ Text.isBlankChar c = true) →
      ∀ others, ofEnvironment (env.set "DETECTOR_REFERENCES" text) [] others =
        { ofEnvironment env [] others with references := none } ∧
      ofEnvironment (env.set "DETECTOR_IMPORTS" text) others [] =
        { ofEnvironment env others [] with imports := none }) ∧
    (∀ (m : Manifest) registry references imports,
      m.check registry none imports = m.check registry (some m.references) imports ∧
      m.check registry references none =
        m.check registry references (some m.imports)) := by
  refine ⟨fun key => ?_, fun key text names => ?_, fun names => Lists.ofNames,
    fun entries names hne hlists command json others t => ?_,
    fun text hblank others => ?_,
    fun m registry references imports => ?_⟩
  · have hlistable : ∀ name ∈ env.names key, Listable name :=
      fun name => Environment.listable_of_mem_names env
    exact ⟨hlistable, (Environment.names_set env key _).trans
      (Environment.splitNames_join hlistable)⟩
  · rw [Environment.names_set]
    exact Environment.splitNames_eq_iff
  · unfold CommandLine.Request.endOn
    dsimp only
    rw [ofEnvironment_listed_references hne hlists,
      ofEnvironment_listed_imports hne hlists]
    exact ⟨rfl, rfl⟩
  · rw [ofEnvironment_set_references, ofEnvironment_set_imports,
      allowed_set_blank hblank, allowed_set_blank hblank]
    exact ⟨rfl, rfl⟩
  · exact ⟨m.check_unlisted_references registry imports,
      m.check_unlisted_imports registry references⟩

/-- Two references on the command line, one of them of two words, and the same
in a variable with more blanks and commas than are needed. -/
theorem lists_interchangeable_spaced :
    let env := Environment.empty.set "DETECTOR_REFERENCES" "other"
    let listed := env.set "DETECTOR_REFERENCES" " std::sys,,a b\u00A0, "
    listed.names "DETECTOR_REFERENCES" = ["std::sys", "a b"] ∧
      (∀ command json t,
        CommandLine.Request.endOn ⟨command, json, ["std::sys", "a b"], []⟩ env t =
          CommandLine.Request.endOn ⟨command, json, [], []⟩ listed t) ∧
      (ofEnvironment env [] []).references = some ["other"] ∧
      (ofEnvironment (env.set "DETECTOR_REFERENCES" " ,\t,") [] []).references =
        none := by
  intro env listed
  have hlists : Lists [" std::sys", "", "a b\u00A0", " "] ["std::sys", "a b"] :=
    @Lists.name " " "std::sys" "" _ _ rfl rfl (by decide) <| .empty rfl <|
      @Lists.name "" "a b" "\u00A0" _ _ rfl (by decide) (by decide) <|
        .empty rfl .nil
  obtain ⟨-, hread, -, hruns, hblank, -⟩ := lists_interchangeable env
  obtain ⟨-, hother, -⟩ := lists_interchangeable Environment.empty
  refine ⟨(hread _ _ _).mpr ⟨_, rfl, hlists⟩, fun command json t => ?_, ?_, ?_⟩
  · exact (hruns _ _ (List.cons_ne_nil _ _) hlists command json [] t).1
  · have hnames : env.names "DETECTOR_REFERENCES" = ["other"] :=
      (hother _ _ _).mpr ⟨["other"], rfl, .ofNames (by decide)⟩
    exact allowed_of_names env (List.cons_ne_nil _ _) hnames
  · rw [(hblank " ,\t," (by simp [Text.isBlankChar]) []).1]

end Session

end DetectorBench
