import DetectorBench.Proofs.Manifest.RoundTrip
import DetectorBench.Proofs.Record.Shapes

/-!
# The manifest grammar

Which documents are manifests, and which manifest a document is: `IsManifest D
m` and the shapes of the records inside say it in terms of look-ups in the
document. Reading goes through the text once, from left to right; here nothing
depends on the order of the keys, and of a key that a record does not know
nothing is asked but that the record is not strict.

A record may also be written as an array, and an object may repeat a key.
`PlainManifest` sets both aside, where a record is looked for and nowhere else,
and `parse_iff_isManifest` is the law of the reader for every text of such a
document.
-/

namespace DetectorBench

open Json

/-! ## The records -/

/-- A support topic has an id and a PES id. -/
structure IsSupportTopic (j : Json) (t : SupportTopic) : Prop where
  object : j.IsObject
  id : Present IsText (j.get? "id") t.id
  pesId : Present IsText (j.get? "pes_id") t.pesId

/-- A definition has an id, a name and an author, and may say more. -/
structure IsDefinition (j : Json) (d : Definition) : Prop where
  object : j.IsObject
  id : Present IsText (j.get? "id") d.id
  name : Present IsText (j.get? "name") d.name
  author : Present IsText (j.get? "author") d.author
  description : Optionally IsText (j.get? "description") d.description
  category : Optionally IsText (j.get? "category") d.category
  supportTopics :
    OrDefault [] (IsListOf IsSupportTopic) (j.get? "support_topics") d.supportTopics

/-- A resource filter says what it restricts, if anything. -/
structure IsResourceFilter (j : Json) (f : ResourceFilter) : Prop where
  object : j.IsObject
  resourceType : OrDefault "any" IsText (j.get? "resource_type") f.resourceType
  internalOnly : OrDefault false IsFlag (j.get? "internal_only") f.internalOnly

/-- A system filter is any object. -/
structure IsSystemFilter (j : Json) (f : SystemFilter) : Prop where
  object : j.IsObject

/-- An entry names its routine, and nothing else is said of it but its own
name. -/
structure IsEntryDeclaration (j : Json) (e : EntryDeclaration) : Prop where
  object : j.IsObject
  keys : ∀ key ∈ j.keys, key ∈ ["name", "routine"]
  name : OrDefault "run" IsText (j.get? "name") e.name
  routine : Present IsText (j.get? "routine") e.routine

/-- A manifest has an entry, and may have what else a manifest can have, and
nothing more. -/
structure IsManifest (j : Json) (m : Manifest) : Prop where
  object : j.IsObject
  keys : ∀ key ∈ j.keys,
    key ∈ ["entry", "definition", "resource_filter", "system_filter",
      "references", "imports"]
  entry : Present IsEntryDeclaration (j.get? "entry") m.entry
  definition : Optionally IsDefinition (j.get? "definition") m.metadata.definition
  resourceFilter :
    Optionally IsResourceFilter (j.get? "resource_filter") m.metadata.resourceFilter
  systemFilter :
    Optionally IsSystemFilter (j.get? "system_filter") m.metadata.systemFilter
  references : OrDefault [] (IsListOf IsText) (j.get? "references") m.references
  imports : OrDefault [] (IsListOf IsText) (j.get? "imports") m.imports

/-! ## Plain documents -/

/-- A definition that is plain, and so is each of its support topics. -/
structure PlainDefinition (j : Json) : Prop where
  plain : j.Plain
  supportTopics : ∀ items, j.get? "support_topics" = some (.array items) →
    ∀ item ∈ items, item.Plain

/-- A manifest that is plain wherever a record is looked for. -/
structure PlainManifest (j : Json) : Prop where
  plain : j.Plain
  entry : ∀ e, j.get? "entry" = some e → e.Plain
  definition : ∀ d, j.get? "definition" = some d → PlainDefinition d
  resourceFilter : ∀ f, j.get? "resource_filter" = some f → f.Plain
  systemFilter : ∀ f, j.get? "system_filter" = some f → f.Plain

/-! ## What the codecs accept -/

open DetectorBench.Field (required_takes_iff withDefault_takes_iff
  maybe_takes_iff required_text_iff
  withDefault_text_iff maybe_text_iff listing_text_iff)

theorem SupportTopic.codec_accepts {j : Json} (plain : j.Plain) :
    SupportTopic.codec.Accepts IsSupportTopic j := by
  intro t
  unfold SupportTopic.codec
  rw [Record.map_decode_iff (fun _ => rfl) (fun _ => rfl) (by decide) plain]
  constructor
  · rintro ⟨object, -, id, pesId, -⟩
    exact ⟨object, required_text_iff.mp id, required_text_iff.mp pesId⟩
  · intro h
    exact ⟨h.object, nofun, required_text_iff.mpr h.id,
      required_text_iff.mpr h.pesId, trivial⟩

theorem Definition.codec_accepts {j : Json} (plain : PlainDefinition j) :
    Definition.codec.Accepts IsDefinition j := by
  intro d
  have htopics : ∀ topics, j.get? "support_topics" = some topics →
      SupportTopic.codec.list.Accepts (IsListOf IsSupportTopic) topics := by
    intro topics htopics
    refine Codec.list_accepts fun items hitems item hitem => ?_
    rw [hitems] at htopics
    exact SupportTopic.codec_accepts (plain.supportTopics items htopics item hitem)
  unfold Definition.codec
  rw [Record.map_decode_iff (fun _ => rfl) (fun _ => rfl) (by decide) plain.plain]
  constructor
  · rintro ⟨object, -, id, name, author, description, category, topics, -⟩
    exact ⟨object, required_text_iff.mp id, required_text_iff.mp name,
      required_text_iff.mp author, maybe_text_iff.mp description,
      maybe_text_iff.mp category,
      (withDefault_takes_iff htopics).mp topics⟩
  · intro h
    exact ⟨h.object, nofun, required_text_iff.mpr h.id, required_text_iff.mpr h.name,
      required_text_iff.mpr h.author, maybe_text_iff.mpr h.description,
      maybe_text_iff.mpr h.category, (withDefault_takes_iff htopics).mpr
        h.supportTopics, trivial⟩

theorem ResourceFilter.codec_accepts {j : Json} (plain : j.Plain) :
    ResourceFilter.codec.Accepts IsResourceFilter j := by
  intro f
  have hflag : ∀ flag, j.get? "internal_only" = some flag →
      Codec.flag.Accepts IsFlag flag :=
    fun flag _ => Codec.flag_accepts flag
  unfold ResourceFilter.codec
  rw [Record.map_decode_iff (fun _ => rfl) (fun _ => rfl) (by decide) plain]
  constructor
  · rintro ⟨object, -, resourceType, internalOnly, -⟩
    exact ⟨object, withDefault_text_iff.mp resourceType,
      (withDefault_takes_iff hflag).mp internalOnly⟩
  · intro h
    exact ⟨h.object, nofun, withDefault_text_iff.mpr h.resourceType,
      (withDefault_takes_iff hflag).mpr h.internalOnly, trivial⟩

theorem SystemFilter.codec_accepts {j : Json} (plain : j.Plain) :
    SystemFilter.codec.Accepts IsSystemFilter j := by
  intro f
  unfold SystemFilter.codec
  rw [Record.map_decode_iff (fun _ => rfl) (fun _ => rfl) (by decide) plain]
  constructor
  · rintro ⟨object, -, -⟩
    exact ⟨object⟩
  · intro h
    exact ⟨h.object, nofun, trivial⟩

theorem EntryDeclaration.codec_accepts {j : Json} (plain : j.Plain) :
    EntryDeclaration.codec.Accepts IsEntryDeclaration j := by
  intro e
  unfold EntryDeclaration.codec
  rw [Record.map_decode_iff (fun _ => rfl) (fun _ => rfl) (by decide) plain]
  constructor
  · rintro ⟨object, keys, name, routine, -⟩
    exact ⟨object, keys rfl, withDefault_text_iff.mp name,
      required_text_iff.mp routine⟩
  · intro h
    exact ⟨h.object, fun _ => h.keys, withDefault_text_iff.mpr h.name,
      required_text_iff.mpr h.routine, trivial⟩

namespace Manifest

theorem codec_accepts {j : Json} (plain : PlainManifest j) :
    codec.Accepts IsManifest j := by
  intro m
  have hentry : ∀ e, j.get? "entry" = some e →
      EntryDeclaration.codec.Accepts IsEntryDeclaration e :=
    fun e he => EntryDeclaration.codec_accepts (plain.entry e he)
  have hdefinition : ∀ d, j.get? "definition" = some d →
      Definition.codec.Accepts IsDefinition d :=
    fun d hd => Definition.codec_accepts (plain.definition d hd)
  have hresource : ∀ f, j.get? "resource_filter" = some f →
      ResourceFilter.codec.Accepts IsResourceFilter f :=
    fun f hf => ResourceFilter.codec_accepts (plain.resourceFilter f hf)
  have hsystem : ∀ f, j.get? "system_filter" = some f →
      SystemFilter.codec.Accepts IsSystemFilter f :=
    fun f hf => SystemFilter.codec_accepts (plain.systemFilter f hf)
  unfold codec
  rw [Record.map_decode_iff (fun _ => rfl) (fun _ => rfl) (by decide) plain.plain]
  constructor
  · rintro ⟨object, keys, entry, definition, resource, system, references,
      imports, -⟩
    exact
      { object
        keys := keys rfl
        entry := (required_takes_iff hentry).mp entry
        definition :=
          (maybe_takes_iff hdefinition fun _ h => not_isObject_null h.object).mp
            definition
        resourceFilter :=
          (maybe_takes_iff hresource fun _ h => not_isObject_null h.object).mp
            resource
        systemFilter :=
          (maybe_takes_iff hsystem fun _ h => not_isObject_null h.object).mp system
        references := listing_text_iff.mp references
        imports := listing_text_iff.mp imports }
  · intro h
    exact ⟨h.object, fun _ => h.keys, (required_takes_iff hentry).mpr h.entry,
      (maybe_takes_iff hdefinition fun _ h => not_isObject_null h.object).mpr
        h.definition,
      (maybe_takes_iff hresource fun _ h => not_isObject_null h.object).mpr
        h.resourceFilter,
      (maybe_takes_iff hsystem fun _ h => not_isObject_null h.object).mpr
        h.systemFilter,
      listing_text_iff.mpr h.references, listing_text_iff.mpr h.imports, trivial⟩

/-! ## The law of the reader -/

/-- **The manifest grammar.** Take any text of a document that is no array and
repeats no key wherever a record is looked for. Reading it gives a manifest if
and only if the document is that manifest: whatever the order of its keys, and
whatever stands under the keys that a definition, a support topic or a filter
does not know. -/
theorem parse_iff_isManifest {source : String} {j : Json}
    (text : j.Spelled source) (plain : PlainManifest j) (m : Manifest) :
    parse source = .ok m ↔ IsManifest j m := by
  obtain ⟨b, t, b', before, value, after, hsource⟩ := text
  rw [parse_eq_ok_iff, hsource, codec_follows.readDocument_iff
    (by decide) before value after]
  exact codec_accepts plain m

/-- A definition may come after the imports and hold what it does not know, a
filter may be `null`, and the name of an entry may be left out. -/
theorem parse_iff_isManifest_reordered :
    let definition : Json := .object
      [("author", .string "ops"),
        ("x", .array [.object [("x", .null), ("x", .array [])]]),
        ("name", .string "CPU"), ("id", .string "cpu"), ("category", .null)]
    let entry : Json := .object [("routine", .string "echo")]
    let j : Json := .object
      [("imports", .array [.string "time"]), ("resource_filter", .null),
        ("definition", definition), ("entry", entry)]
    j.Spelled j.compact ∧ PlainManifest j ∧ parse j.compact = .ok
      ⟨⟨"run", "echo"⟩, ⟨some (.named "cpu" "CPU" "ops"), none, none⟩, [],
        ["time"]⟩ := by
  intro definition entry j
  have hexact : Exact j := by
    simp only [j, definition, entry, Exact, ExactItems, ExactMembers, and_self]
  have hspelled : j.Spelled j.compact := spelled_compact hexact
  have hentry : j.get? "entry" = some entry := rfl
  have hdefinition : j.get? "definition" = some definition := rfl
  have hplain : PlainManifest j := by
    refine ⟨⟨fun _ => nofun, by decide⟩, ?_, ?_, ?_, ?_⟩
    · intro e he
      rw [hentry] at he
      cases he
      exact ⟨fun _ => nofun, by decide⟩
    · intro d hd
      rw [hdefinition] at hd
      cases hd
      exact ⟨⟨fun _ => nofun, by decide⟩, fun _ => nofun⟩
    · intro f hf
      have hnull : j.get? "resource_filter" = some .null := rfl
      rw [hnull] at hf
      cases hf
      exact ⟨fun _ => nofun, List.nodup_nil⟩
    · intro f hf
      cases hf
  refine ⟨hspelled, hplain, (parse_iff_isManifest hspelled hplain _).mpr ?_⟩
  have isEntry : IsEntryDeclaration entry ⟨"run", "echo"⟩ :=
    ⟨⟨_, rfl⟩, by decide, .absent, .found rfl⟩
  have isDefinition : IsDefinition definition (.named "cpu" "CPU" "ops") :=
    ⟨⟨_, rfl⟩, .found rfl, .found rfl, .found rfl, .absent, .null, .absent⟩
  exact
    { object := ⟨_, rfl⟩
      keys := by decide
      entry := .found isEntry
      definition := .found isDefinition
      resourceFilter := .null
      systemFilter := .absent
      references := .absent
      imports := .found ⟨_, rfl, .cons rfl .nil⟩ }

end Manifest

end DetectorBench
