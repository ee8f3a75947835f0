import DetectorBench.Command
import DetectorBench.CommandLine.Grammar

/-!
# The command line

The options and commands of the program. Options that concern every command may
stand before the command or among its own options; where a list is given in both
places, the one after the command counts.
-/

namespace DetectorBench.CommandLine

/-- The commands by what they are called. -/
inductive Verb where
  | check
  | run
  | exportUnit
  | inspect
  deriving DecidableEq, Repr

namespace Verb

/-- The name of a command. -/
def name : Verb → String
  | check => "check"
  | run => "run"
  | exportUnit => "export"
  | inspect => "inspect"

/-- The commands. -/
def all : List Verb :=
  [check, run, exportUnit, inspect]

/-- The command of a name. -/
def ofName? (name : String) : Option Verb :=
  all.find? (·.name == name)

/-- The name of the positional argument of every command. -/
def fileArgument : String := "file"

/-- The options that a command has of its own. -/
def options : Verb → List OptionSpec
  | check => []
  | run => [⟨"arg", none, .texts⟩]
  | exportUnit => [⟨"out", none, .path⟩, ⟨"bytes", none, .flag⟩]
  | inspect => []

/-- The file that a command is about. -/
def file (found : Found) : Except UsageFault String :=
  match found.values fileArgument with
  | [] => .error .missingArgument
  | path :: _ => .ok path

/-- The export that is asked for: to a file or as text, but not both. -/
def exportOf (found : Found) : Except UsageFault Command :=
  match found.values "out", found.has "bytes" with
  | _ :: _, true => .error .argumentConflict
  | path :: _, false => do return .exportFile (← file found) path
  | [], true => do return .exportText (← file found)
  | [], false => .error .missingArgument

/-- What is asked for. -/
def command (found : Found) : Verb → Except UsageFault Command
  | check => do return .check (← file found)
  | run => do return .run (← file found) (found.values "arg")
  | exportUnit => exportOf found
  | inspect => do return .inspect (← file found)

/-- The option that asks for help. -/
def helpOption : OptionSpec :=
  ⟨"help", some 'h', .help⟩

/-- The grammar of what follows a command; `shared` are the options that concern
every command. -/
def grammar (v : Verb) (shared : List OptionSpec) : Grammar where
  options := v.options ++ shared ++ [helpOption]
  positional := some fileArgument
  commands := []

/-- Reads what follows a command. -/
def read (v : Verb) (shared : List OptionSpec) (words : List String) :
    Except UsageFault (Command × Found) := do
  let (found, _) ← (v.grammar shared).read words
  return (← v.command found, found)

end Verb

/-- The options that concern every command. -/
def sharedOptions : List OptionSpec :=
  [⟨"json", none, .flag⟩, ⟨"verbose", some 'v', .flag⟩, ⟨"reference", none, .text⟩,
    ⟨"import", none, .text⟩]

/-- The name of the command that explains the others. -/
def helpCommand : String := "help"

/-- The grammar of a whole line, up to the command. -/
def grammar : Grammar where
  options := sharedOptions ++ [Verb.helpOption, ⟨"version", some 'V', .version⟩]
  positional := none
  commands := helpCommand :: Verb.all.map Verb.name

/-- What a whole line asks for. Whether `--verbose` was given is not kept: it
concerns log lines only. -/
structure Request where
  command : Command
  json : Bool
  references : List String
  imports : List String
  deriving DecidableEq, Repr

/-- The answer to the command that explains the others; it takes the name of one
command at most. -/
def explain : List String → UsageFault
  | [] => .helpWanted
  | [name] => if grammar.commands.contains name then .helpWanted else .unknownCommand
  | _ => .unknownCommand

/-- The values of an option: those after the command, or else those before
it. -/
def mergedValues (before after : Found) (long : String) : List String :=
  if after.has long then after.values long else before.values long

/-- Reads a whole line. -/
def parse (words : List String) : Except UsageFault Request := do
  let (before, rest) ← grammar.read words
  match rest with
  | [] => throw .missingCommand
  | name :: rest =>
    match Verb.ofName? name with
    | none => throw (explain rest)
    | some v =>
      let (command, after) ← v.read sharedOptions rest
      return {
        command
        json := before.has "json" || after.has "json"
        references := mergedValues before after "reference"
        imports := mergedValues before after "import" }

end DetectorBench.CommandLine
