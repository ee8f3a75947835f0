/-!
# Reading command lines

A grammar lists the options of a command line, the positional argument that it
takes, and the commands that may follow. A line is read word by word. An option
that takes values stays open while words follow that do not look like options,
and is recorded only when something else comes, so that a fault in it may be
noticed late: after a word that no rule admits, that word is what is reported.
-/

namespace DetectorBench.CommandLine

/-- Why a command line was refused, or answered without a command. -/
inductive UsageFault where
  | helpWanted
  | versionWanted
  | unknownArgument
  | invalidValue
  | tooManyValues
  | argumentConflict
  | missingArgument
  | unknownCommand
  | missingCommand
  deriving DecidableEq, Repr

/-- What an option takes, and what it does. -/
inductive OptionKind where
  /-- Asks for help. -/
  | help
  /-- Asks for the version. -/
  | version
  /-- Takes nothing and may be given once. -/
  | flag
  /-- Takes one value that is not empty and may be given once. -/
  | path
  /-- Takes one value each time it is given. -/
  | text
  /-- Takes all the values that follow, each time it is given. -/
  | texts
  deriving DecidableEq, Repr

/-- Whether an option takes values. -/
def OptionKind.takesValues : OptionKind → Bool
  | help => false
  | version => false
  | flag => false
  | path => true
  | text => true
  | texts => true

/-- An option. Only options without values have a short form. -/
structure OptionSpec where
  long : String
  short : Option Char
  kind : OptionKind
  deriving DecidableEq, Repr

/-- What a line may hold. -/
structure Grammar where
  options : List OptionSpec
  /-- The positional argument, which is a path. -/
  positional : Option String
  commands : List String

/-- What was found on a line: options with their values, in order. -/
structure Found where
  entries : List (String × List String)

namespace Found

/-- Nothing. -/
def empty : Found :=
  ⟨[]⟩

/-- Whether an option was given. -/
def has (f : Found) (long : String) : Bool :=
  f.entries.any (·.1 == long)

/-- All values of an option. -/
def values (f : Found) (long : String) : List String :=
  (f.entries.filter (·.1 == long)).flatMap (·.2)

/-- Records an option with its values. -/
def take (f : Found) (spec : OptionSpec) (values : List String) :
    Except UsageFault Found :=
  let added : Found := ⟨f.entries ++ [(spec.long, values)]⟩
  match spec.kind with
  | .help => .error .helpWanted
  | .version => .error .versionWanted
  | .flag => if f.has spec.long then .error .argumentConflict else .ok added
  | .path =>
    if values = [] then .error .invalidValue
    else if f.has spec.long then .error .argumentConflict
    else if values.contains "" then .error .invalidValue
    else .ok added
  | .text => if values = [] then .error .invalidValue else .ok added
  | .texts => if values = [] then .error .invalidValue else .ok added

end Found

/-- How far a line has been read. -/
structure Progress where
  found : Found
  /-- The option or argument that is still to be recorded, with the values it
  has so far. -/
  pending : Option (OptionSpec × List String)
  /-- Whether the pending option takes the next word. -/
  accepting : Bool
  /-- Whether the positional argument was met. -/
  positionalMet : Bool
  /-- Whether only positional arguments follow. -/
  trailing : Bool

namespace Progress

/-- The start of a line. -/
def start : Progress :=
  ⟨.empty, none, false, false, false⟩

/-- Records what is pending. -/
def settle (p : Progress) : Except UsageFault Progress :=
  match p.pending with
  | none => .ok { p with accepting := false }
  | some (spec, values) => do
    return { p with
      found := ← p.found.take spec values, pending := none, accepting := false }

/-- Records an option that needs no further words. -/
def take (p : Progress) (spec : OptionSpec) (values : List String) :
    Except UsageFault Progress := do
  let p ← p.settle
  return { p with found := ← p.found.take spec values }

/-- Opens an option, or the positional argument, with the values it has so
far. -/
def expect (p : Progress) (spec : OptionSpec) (values : List String)
    (accepting : Bool) :
    Except UsageFault Progress := do
  let p ← p.settle
  return { p with pending := some (spec, values), accepting }

/-- Gives the open option a value. -/
def push (p : Progress) (value : String) : Progress :=
  match p.pending with
  | none => p
  | some (spec, values) =>
    { p with
      pending := some (spec, values ++ [value])
      accepting := spec.kind = .texts }

end Progress

/-- A word that starts with two dashes: its name, and its value if one is
attached. -/
def splitLong (cs : List Char) : String × Option String :=
  match cs.dropWhile (· ≠ '=') with
  | [] => (String.ofList cs, none)
  | _ :: value =>
    (String.ofList (cs.takeWhile (· ≠ '=')), some (String.ofList value))

namespace Grammar

/-- Reads a long option. -/
def readLong (g : Grammar) (p : Progress) (cs : List Char) :
    Except UsageFault Progress :=
  let (name, attached) := splitLong cs
  match g.options.find? (·.long == name), attached with
  | none, _ => .error .unknownArgument
  | some spec, some value =>
    if spec.kind.takesValues then p.take spec [value] else .error .tooManyValues
  | some spec, none =>
    if spec.kind.takesValues then p.expect spec [] true else p.take spec []

/-- Reads short options. -/
def readShorts (g : Grammar) (p : Progress) :
    List Char → Except UsageFault Progress
  | [] => .ok p
  | c :: cs =>
    match g.options.find? (·.short == some c) with
    | none => .error .unknownArgument
    | some spec => do g.readShorts (← p.take spec []) cs

/-- Reads a positional argument. -/
def readPositional (g : Grammar) (p : Progress) (word : String) :
    Except UsageFault Progress :=
  match g.positional with
  | none => .error .unknownCommand
  | some name =>
    if p.positionalMet then .error .unknownArgument
    else do return { ← p.expect ⟨name, none, .path⟩
      [word] false with positionalMet := true }

/-- Reads a word. -/
def readWord (g : Grammar) (p : Progress) (word : String) :
    Except UsageFault Progress :=
  if p.trailing then g.readPositional p word
  else
    match word.toList with
    | ['-', '-'] => .ok { p with trailing := true }
    | '-' :: '-' :: cs => g.readLong p cs
    | '-' :: c :: cs => g.readShorts p (c :: cs)
    | _ => if p.accepting then .ok (p.push word) else g.readPositional p word

/-- Whether a word is a command where it stands. -/
def startsCommand (g : Grammar) (p : Progress) (word : String) : Bool :=
  !p.trailing && !p.accepting && g.commands.contains word

/-- Reads a line up to the first command; the command and what follows it are
left. -/
def readFrom (g : Grammar) (p : Progress) :
    List String → Except UsageFault (Found × List String)
  | [] => do return ((← p.settle).found, [])
  | word :: rest =>
    if g.startsCommand p word then do return ((← p.settle).found, word :: rest)
    else do g.readFrom (← g.readWord p word) rest

/-- Reads a line. -/
def read (g : Grammar) (words : List String) :
    Except UsageFault (Found × List String) :=
  g.readFrom .start words

end Grammar

end DetectorBench.CommandLine
