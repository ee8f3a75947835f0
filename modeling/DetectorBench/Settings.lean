import DetectorBench.EntryPoint
import DetectorBench.Environment
import DetectorBench.Validation

/-!
# Settings of a host

The entry point that a preloaded unit has to offer, and the rules for metadata.
Every setting has a default; environment variables overlay whatever is set.
-/

namespace DetectorBench

/-- What can be set about a host. -/
structure Settings where
  entryPoint : String
  reserved : String
  warnInternalTopics : Bool
  deriving DecidableEq, Repr

namespace Settings

/-- The settings in force unless something else is said. -/
def default : Settings :=
  ⟨Signature.canonical.name, Rules.default.reserved,
    Rules.default.warnInternalTopics⟩

/-- How settings are read and written. -/
def codec : Codec Settings :=
  Codec.map
    (Record.codec
      { name := "InvokerConfig"
        strict := false
        fields :=
          .cons (.withDefault "entry_point" .text default.entryPoint)
            (.cons (.withDefault "reserved_name_chars" .text default.reserved)
              (.cons (.withDefault "warn_internal_support_topics" .flag
                default.warnInternalTopics) .nil)) })
    (fun (entryPoint, reserved, warn, ()) => ⟨entryPoint, reserved, warn⟩)
    (fun s => (s.entryPoint, s.reserved, s.warnInternalTopics, ()))

/-- Settings overlaid with those that the environment gives. The name of the
entry point is trimmed; reserved characters are taken as they are, blanks
included. -/
def overlaid (s : Settings) (env : Environment) : Settings where
  entryPoint := ((env.text? "DETECTOR_ENTRY_POINT").map Text.trim).getD s.entryPoint
  reserved := (env.text? "DETECTOR_RESERVED_CHARS").getD s.reserved
  warnInternalTopics := env.flag "DETECTOR_WARN_INTERNAL_TOPICS" s.warnInternalTopics

/-- The settings that an environment gives. -/
def ofEnvironment (env : Environment) : Settings :=
  default.overlaid env

/-- The signature that a preloaded unit has to offer. -/
def signature (s : Settings) : Signature :=
  ⟨s.entryPoint⟩

/-- The rules for metadata. -/
def rules (s : Settings) : Rules :=
  ⟨s.reserved, s.warnInternalTopics⟩

end Settings

end DetectorBench
