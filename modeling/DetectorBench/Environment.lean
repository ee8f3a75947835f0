import DetectorBench.Text.Class

/-!
# Environment variables

Settings can be given by environment variables. A variable that is not set and
one whose value is no text, or does not say what was asked for, count alike: the
default holds.
-/

namespace DetectorBench

/-- The variables of a process. Values are bytes and need not be a text. -/
structure Environment where
  raw : String → Option ByteArray

namespace Environment

/-- The environment without variables. -/
def empty : Environment :=
  ⟨fun _ => none⟩

/-- The value of a variable that is set to a text. -/
def value? (env : Environment) (name : String) : Option String :=
  (env.raw name).bind String.fromUTF8?

/-- The value of a variable that is set to more than blanks; its own blanks are
kept. -/
def text? (env : Environment) (name : String) : Option String :=
  (env.value? name).filter fun v => !Text.isBlank v

/-- The truth value that a word stands for. Case does not matter; no letter
outside ASCII has one of the letters of these words as its lower-case form. -/
def truth? (word : String) : Option Bool :=
  let word := word.map Char.toLower
  if word ∈ ["1", "true", "yes", "on"] then some true
  else if word ∈ ["0", "false", "no", "off"] then some false
  else none

/-- A variable that switches something on or off. -/
def flag (env : Environment) (name : String) (default : Bool) : Bool :=
  ((env.value? name).bind fun v => truth? (Text.trim v)).getD default

/-- The names in a text, separated by commas; blanks around them and empty ones
do not count. -/
def splitNames (s : String) : List String :=
  (((Text.piecesAt ',' s.toList).map Text.trimChars).filter (· ≠ [])).map
    String.ofList

/-- A variable that lists names. -/
def names (env : Environment) (name : String) : List String :=
  ((env.value? name).map splitNames).getD []

end Environment

end DetectorBench
