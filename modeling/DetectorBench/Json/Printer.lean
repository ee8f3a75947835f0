import DetectorBench.Json.Basic

/-!
# Writing JSON

A value is written in one of two layouts. The compact one has no white space at
all. The pretty one puts every item and member on a line of its own, two spaces
deeper than what encloses it, and a space after each colon; empty arrays and
objects stay closed. In strings only the quotation mark, the backslash and the
controls below `U+0020` are escaped.
-/

namespace DetectorBench.Json

/-- How tokens are set apart; a pretty layout knows how deep it stands. -/
inductive Layout where
  | compact
  | pretty (depth : Nat)
  deriving DecidableEq, Repr

namespace Layout

/-- The layout of what stands inside a bracket. -/
def inner : Layout → Layout
  | compact => compact
  | pretty depth => pretty (depth + 1)

/-- What stands before an item, a member or a closing bracket. -/
def gap : Layout → List Char
  | compact => []
  | pretty depth => '\n' :: List.replicate (2 * depth) ' '

/-- What stands between a key and its value. -/
def colon : Layout → List Char
  | compact => [':']
  | pretty _ => [':', ' ']

end Layout

/-- A character as it stands in a string. -/
def escapeChar (c : Char) : List Char :=
  if c = '"' then ['\\', '"']
  else if c = '\\' then ['\\', '\\']
  else if c = '\x08' then ['\\', 'b']
  else if c = '\t' then ['\\', 't']
  else if c = '\n' then ['\\', 'n']
  else if c = '\x0c' then ['\\', 'f']
  else if c = '\r' then ['\\', 'r']
  else if c.toNat < 0x20 then
    ['\\', 'u', '0', '0', Nat.digitChar (c.toNat / 16), Nat.digitChar (c.toNat % 16)]
  else [c]

/-- A string with its quotation marks. -/
def writeString (s : String) : List Char :=
  '"' :: s.toList.flatMap escapeChar ++ ['"']

mutual

/-- A value in a layout. -/
def write (layout : Layout) : Json → List Char
  | .null => ['n', 'u', 'l', 'l']
  | .bool true => ['t', 'r', 'u', 'e']
  | .bool false => ['f', 'a', 'l', 's', 'e']
  | .number n => n.text
  | .string s => writeString s
  | .array [] => ['[', ']']
  | .array (x :: xs) =>
    '[' :: layout.inner.gap ++ write layout.inner x ++ writeItems layout.inner xs
      ++ layout.gap ++ [']']
  | .object [] => ['\x7b', '\x7d']
  | .object ((k, v) :: rest) =>
    '\x7b' :: layout.inner.gap ++ writeString k ++ layout.colon
      ++ write layout.inner v
      ++ writeMembers layout.inner rest ++ layout.gap ++ ['\x7d']

/-- The items after the first, each after a comma. -/
def writeItems (layout : Layout) : List Json → List Char
  | [] => []
  | x :: xs => ',' :: layout.gap ++ write layout x ++ writeItems layout xs

/-- The members after the first, each after a comma. -/
def writeMembers (layout : Layout) : List (String × Json) → List Char
  | [] => []
  | (k, v) :: rest =>
    ',' :: layout.gap ++ writeString k ++ layout.colon ++ write layout v
      ++ writeMembers layout rest

end

/-- The text of a value without white space. -/
def compact (j : Json) : String :=
  String.ofList (j.write .compact)

/-- The text of a value over several lines. -/
def pretty (j : Json) : String :=
  String.ofList (j.write (.pretty 0))

end DetectorBench.Json
