/-!
# Classes of characters

Names, identifiers and environment values are judged by two classes of
characters: blanks, which are trimmed away and never count as content, and
control characters, which may not stand in a file name. Both are properties of
the whole of Unicode, so core's ASCII tests would not do.
-/

namespace DetectorBench.Text

/-- White space in the sense of the `White_Space` property. -/
def isBlankChar (c : Char) : Bool :=
  let n := c.toNat
  (9 ≤ n && n ≤ 13) || n == 0x20 || n == 0x85 || n == 0xA0 || n == 0x1680
    || (0x2000 ≤ n && n ≤ 0x200A) || n == 0x2028 || n == 0x2029 || n == 0x202F
    || n == 0x205F || n == 0x3000

/-- A control character: general category `Cc`. -/
def isControl (c : Char) : Bool :=
  let n := c.toNat
  n < 0x20 || (0x7F ≤ n && n < 0xA0)

/-- A list of characters without the blanks at its two ends. -/
def trimChars (cs : List Char) : List Char :=
  ((cs.dropWhile isBlankChar).reverse.dropWhile isBlankChar).reverse

/-- A text without the blanks at its two ends. -/
def trim (s : String) : String :=
  String.ofList (trimChars s.toList)

/-- A text of blanks only; the empty text is one. -/
def isBlank (s : String) : Bool :=
  s.toList.all isBlankChar

/-- The pieces of a list between the separators; there is always one more piece
than there are separators. -/
def piecesAt (separator : Char) : List Char → List (List Char)
  | [] => [[]]
  | c :: cs =>
    if c = separator then [] :: piecesAt separator cs
    else
      match piecesAt separator cs with
      | [] => [[c]]
      | piece :: pieces => (c :: piece) :: pieces

/-- Lines joined by one line break between neighbours. -/
def joinLines (lines : List String) : String :=
  "\n".intercalate lines

/-- The digits of a number in base ten. -/
def digits (n : Nat) : List Char :=
  Nat.toDigits 10 n

end DetectorBench.Text
