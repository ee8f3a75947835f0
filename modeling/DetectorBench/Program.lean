import DetectorBench.CommandLine

/-!
# The program

One run from the words of the command line to the exit code. A line that is
refused ends the run with code two and a hint. A command that fails ends it with
code one, and its failure is told once more, with all causes, after what the
command itself had to say.

A run also logs what it does, on the error stream: warnings, with `--verbose`
everything down to debugging, or what the variable `RUST_LOG` asks for. Log
lines are no part of what is modelled here.
-/

namespace DetectorBench

namespace Failure

/-- A text with something before its first line and something before each of the
others. -/
def hang (first others text : String) : String :=
  first ++ ("\n" ++ others).intercalate
    ((Text.piecesAt '\n' text.toList).map String.ofList)

/-- Causes under their numbers, from zero, each from a new line on. -/
def hungCauses : (number : Nat) → List String → String
  | _, [] => ""
  | number, cause :: rest =>
    let digits := String.ofList ((Text.digits number).leftpad 5 ' ')
    "\n" ++ hang (digits ++ ": ") "       " cause ++ hungCauses (number + 1) rest

/-- A failure with all its causes; a single cause goes without number. -/
def trace (f : Failure) : String :=
  f.message ++
    match f.causes with
    | [] => ""
    | [cause] => "\n\nCaused by:\n" ++ hang "    " "    " cause
    | causes => "\n\nCaused by:" ++ hungCauses 0 causes

end Failure

/-- How a run ended: its code, what it printed, and what it said beside that on
the error stream. Log lines, which go to the error stream as well, are left
out. -/
structure Ending where
  code : Nat
  stdout : String
  stderr : String
  deriving DecidableEq, Repr

namespace CommandLine

/-- The name of the program. -/
def programName : String := "detector-sandbox"

/-- The version of the program. -/
def version : String := "0.1.0"

/-- The shape of a line. -/
def usage : String :=
  "Usage: " ++ programName ++ " [OPTIONS] <COMMAND>\n\nCommands: "
    ++ ", ".intercalate grammar.commands ++ "\nOptions:  "
    ++ ", ".intercalate (grammar.options.map fun o => "--" ++ o.long) ++ "\n"

/-- What is wrong with a line. -/
def UsageFault.message : UsageFault → String
  | helpWanted => "help was asked for"
  | versionWanted => "the version was asked for"
  | unknownArgument => "unexpected argument"
  | invalidValue => "a value is missing or empty"
  | tooManyValues => "unexpected value for an option that takes none"
  | argumentConflict => "an option was given twice, or beside one that excludes it"
  | missingArgument => "a required argument is missing"
  | unknownCommand => "unrecognized command"
  | missingCommand => "a command is required"

/-- The end of a run whose line is not a request. -/
def UsageFault.ending : UsageFault → Ending
  | helpWanted => ⟨0, usage, ""⟩
  | versionWanted => ⟨0, programName ++ " " ++ version ++ "\n", ""⟩
  | other => ⟨2, "", "error: " ++ other.message ++ "\n\n" ++ usage⟩

end CommandLine

namespace Transcript

/-- The end of a run that came to a command. -/
def ending (t : Transcript) : Ending :=
  match t.result with
  | .ok () => ⟨0, t.stdout, t.stderr⟩
  | .error f => ⟨1, t.stdout, t.stderr ++ "Error: " ++ f.trace ++ "\n"⟩

end Transcript

namespace Program

/-- Runs the program. Nothing is logged, so `--verbose`, which only says how
much is to be logged, is accepted and makes no difference. -/
def run {m : Type → Type} [Monad m] (env : Environment) (disk : Disk m)
    (words : List String) :
    m Ending :=
  match CommandLine.parse words with
  | .error fault => pure fault.ending
  | .ok request =>
    let session := Session.ofEnvironment env request.references request.imports
    Transcript.ending <$> request.command.execute session disk request.json

end Program

end DetectorBench
