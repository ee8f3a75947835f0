import DetectorBench.Text.Printable

/-!
# Quoted characters and texts

Messages quote what they found in a form that shows every character: the
quotation mark in use and the backslash are escaped, four controls have letters
of their own, and any other hidden character is written by its code point as
`\u{hex}`.
-/

namespace DetectorBench.Text

/-- A character as it stands between quotation marks `mark`. -/
def showChar (mark : Char) (c : Char) : List Char :=
  if c = '\x00' then ['\\', '0']
  else if c = '\t' then ['\\', 't']
  else if c = '\n' then ['\\', 'n']
  else if c = '\r' then ['\\', 'r']
  else if c = '\\' || c = mark then ['\\', c]
  else if isPrintable c then [c]
  else ['\\', 'u', '\x7b'] ++ Nat.toDigits 16 c.toNat ++ ['\x7d']

/-- A single character in single quotation marks. -/
def quoteChar (c : Char) : String :=
  String.ofList ('\'' :: showChar '\'' c ++ ['\''])

/-- A text in double quotation marks. -/
def quote (s : String) : String :=
  String.ofList ('"' :: s.toList.flatMap (showChar '"') ++ ['"'])

end DetectorBench.Text
