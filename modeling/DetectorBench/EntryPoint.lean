import DetectorBench.Attribute
import DetectorBench.Json.Inspect
import DetectorBench.Output

/-!
# Entry points

A loaded unit (`Image`) is asked for the one entry point that matches a
signature. An entry point is called with arguments; calling it may fail at once,
because there are too few, and otherwise has an outcome: a value now, or
something that completes later with a value or with nothing. `settle` waits for
it. Surplus arguments are dropped before the call.
-/

namespace DetectorBench

/-- What an entry point is looked up by. -/
structure Signature where
  name : String
  deriving DecidableEq, Repr

namespace Signature

/-- The signature that every unit has to offer. -/
def canonical : Signature :=
  ⟨"run"⟩

/-- The text of a signature. -/
def render (s : Signature) : String :=
  s.name ++ "(..)"

/-- How a signature is read and written. -/
def codec : Codec Signature :=
  Codec.map
    (Record.codec
      { name := "EntryPointSignature"
        strict := false
        fields := .cons (.required "name" .text) .nil })
    (fun (name, ()) => ⟨name⟩) (fun s => (s.name, ()))

end Signature

/-- What a call comes back with, before any waiting. -/
inductive Outcome where
  | value (v : Json)
  | deferred (later : Except Failure Json)
  | deferredUnit (later : Except Failure Unit)

namespace Outcome

/-- The name of the kind of an outcome. -/
def shape : Outcome → String
  | value _ => "value"
  | deferred _ => "deferred"
  | deferredUnit _ => "deferred_unit"

/-- The text of an outcome; what is still to come is not shown. -/
def inspect : Outcome → String
  | value v => "Value(" ++ v.inspect ++ ")"
  | other => other.shape ++ "(..)"

/-- Waits for an outcome. -/
def settle : Outcome → Except Failure Output
  | value v => .ok (.value v)
  | deferred later => do return .value (← later)
  | deferredUnit later => do
    let () ← later
    return .noValue

end Outcome

/-- An entry point was called with too few arguments. -/
structure BindingError where
  entry : String
  expected : Nat
  supplied : Nat
  deriving DecidableEq, Repr

/-- The wording of a binding error. -/
def BindingError.message (e : BindingError) : String :=
  "entry point '" ++ e.entry ++ "' expects "
    ++ String.ofList (Text.digits e.expected)
    ++ " argument(s) but " ++ String.ofList (Text.digits e.supplied)
    ++ " were supplied"

/-- A callable with what it declares about itself. -/
structure EntryPoint where
  name : String
  arity : Nat
  attributes : List Attribute
  call : List Json → Except BindingError Outcome

/-- A loaded unit. -/
structure Image where
  name : String
  resolve : Signature → Except ResolveError EntryPoint

/-- What a host answers when it cannot do what was asked. -/
inductive HostError where
  /-- The unit did not compile, was refused, or is not ready. -/
  | compilation (output : String)
  /-- The detector's own computation failed. -/
  | fault (failure : Failure)
  /-- The arguments do not fit the entry point. -/
  | binding (error : BindingError)
  /-- Something broke that is not the unit's affair. -/
  | pipeline (failure : Failure)
  deriving DecidableEq, Repr

namespace HostError

/-- The error of a unit that has something to say, one message on each line. -/
def ofLines (lines : List String) : HostError :=
  .compilation (Text.joinLines lines)

/-- An error as a failure. Faults and broken pipelines are passed on as they
are. -/
def failure : HostError → Failure
  | compilation output => .ofMessage ("compilation failed:\n" ++ output)
  | fault f => f
  | binding e => .ofMessage e.message
  | pipeline f => f

end HostError

namespace EntryPoint

/-- The arguments that an entry point of some arity is called with. -/
def bind (arity : Nat) (arguments : List Json) : List Json :=
  arguments.take arity

/-- Calls an entry point and waits for the outcome. -/
def invoke (e : EntryPoint) (arguments : List Json) : Except HostError Output :=
  match e.call (bind e.arity arguments) with
  | .error error => .error (.binding error)
  | .ok outcome => outcome.settle.mapError .fault

/-- What an entry point declares, folded. -/
def metadata (e : EntryPoint) : Except ResolveError Metadata :=
  Metadata.ofAttributes e.name e.attributes

end EntryPoint

end DetectorBench
