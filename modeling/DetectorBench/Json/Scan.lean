import DetectorBench.Json.Fault

/-!
# The tokens of JSON

Readers of blanks, words, strings and numbers. Each takes what is left of the
document and returns what it read with what is left after it, or the fault. A
string is read symbol by symbol by a small automaton (`StringMode`) and checked
as a whole at its end (`closeString`), a number part by part: the digits before
the point, those after it, and the exponent.
-/

namespace DetectorBench.Json

/-- A reader: what it read and what is left, or the fault. -/
abbrev Reader (α : Type) := Input → Except Fault (α × Input)

/-- What is left after blanks. -/
def skipBlanks : Input → Input
  | .char ' ' :: rest => skipBlanks rest
  | .char '\n' :: rest => skipBlanks rest
  | .char '\t' :: rest => skipBlanks rest
  | .char '\r' :: rest => skipBlanks rest
  | input => input

/-- Reads the remaining letters of a word. -/
def readWord : List Char → Input → Except Fault Input
  | [], input => .ok input
  | _ :: _, [] => .error (.here [] .endOfValue)
  | c :: cs, s :: rest =>
    if s = .char c then readWord cs rest
    else .error (.ahead (s :: rest) .expectedWord)

/-- The value of a hexadecimal digit. -/
def hexDigit? (c : Char) : Option Nat :=
  if '0' ≤ c ∧ c ≤ '9' then some (c.toNat - '0'.toNat)
  else if 'a' ≤ c ∧ c ≤ 'f' then some (c.toNat - 'a'.toNat + 10)
  else if 'A' ≤ c ∧ c ≤ 'F' then some (c.toNat - 'A'.toNat + 10)
  else none

/-- The value of a hexadecimal digit of a document. -/
def Symbol.hexDigit? : Symbol → Option Nat
  | .char c => Json.hexDigit? c
  | .stray => none

/-- The character that an escape of one letter stands for. -/
def shortEscape? : Char → Option Char
  | '"' => some '"'
  | '\\' => some '\\'
  | '/' => some '/'
  | 'b' => some '\x08'
  | 'f' => some '\x0c'
  | 'n' => some '\n'
  | 'r' => some '\r'
  | 't' => some '\t'
  | _ => none

/-- A code unit that opens a surrogate pair. -/
def isHighSurrogate (n : Nat) : Bool := 0xD800 ≤ n && n ≤ 0xDBFF

/-- A code unit that closes a surrogate pair. -/
def isLowSurrogate (n : Nat) : Bool := 0xDC00 ≤ n && n ≤ 0xDFFF

/-- The character of a surrogate pair. -/
def ofSurrogates (high low : Nat) : Char :=
  Char.ofNat ((high - 0xD800) * 0x400 + (low - 0xDC00) + 0x10000)

/-- What is left of some symbols from the first byte on that is part of no
character. -/
def fromStray : Input → Input
  | [] => []
  | .char _ :: rest => fromStray rest
  | .stray :: rest => .stray :: rest

/-- The characters of some symbols, stray bytes left out. -/
def charsOf : Input → List Char
  | [] => []
  | .char c :: rest => c :: charsOf rest
  | .stray :: rest => charsOf rest

/-- Ends a string whose escapes have been resolved. A stray byte in it is a
fault. Its place is reckoned back from the end of the string by what the
resolved string holds from that byte on, so an escape behind it moves the place
forward. -/
def closeString (resolved : Input) : Reader String := fun rest =>
  match fromStray resolved with
  | [] => .ok (String.ofList (charsOf resolved), rest)
  | spoiled => .error ⟨.invalidCodePoint, some (rest.bytes + spoiled.bytes)⟩

/-- Where a reader stands inside a string. `hex` counts the digits of a code
unit read so far; `high` is the open half of a surrogate pair, which only a
second escape can close. -/
inductive StringMode where
  | plain
  | escape
  | hex (high : Option Nat) (count value : Nat)
  | afterHigh (high : Nat)
  | afterHighSlash (high : Nat)

/-- The rest of a string after its opening quotation mark. `read` holds the
symbols so far, with their escapes resolved, the last one first. -/
def readStringFrom : StringMode → Input → Reader String
  | _, _, [] => .error (.here [] .endOfString)
  | .plain, read, .char c :: rest =>
    if c = '"' then closeString read.reverse rest
    else if c = '\\' then readStringFrom .escape read rest
    else if c.toNat < 0x20 then .error (.here rest .controlCharacter)
    else readStringFrom .plain (.char c :: read) rest
  | .plain, read, .stray :: rest => readStringFrom .plain (.stray :: read) rest
  | .escape, read, .char c :: rest =>
    if c = 'u' then readStringFrom (.hex none 0 0) read rest
    else
      match shortEscape? c with
      | some e => readStringFrom .plain (.char e :: read) rest
      | none => .error (.ahead (.char c :: rest) .invalidEscape)
  | .escape, _, .stray :: rest => .error (.ahead (.stray :: rest) .invalidEscape)
  | .hex high count value, read, s :: rest =>
    match s.hexDigit? with
    | none =>
      let input : Input := s :: rest
      if 4 - count ≤ input.bytes then
        .error ⟨.invalidEscape, some (input.bytes - (4 - count))⟩
      else .error (.here [] .endOfString)
    | some d =>
      let value := value * 16 + d
      if count < 3 then readStringFrom (.hex high (count + 1) value) read rest
      else
        match high with
        | none =>
          if isLowSurrogate value then .error (.here rest .loneSurrogate)
          else if isHighSurrogate value then
            readStringFrom (.afterHigh value) read rest
          else readStringFrom .plain (.char (Char.ofNat value) :: read) rest
        | some h =>
          if isLowSurrogate value then
            readStringFrom .plain (.char (ofSurrogates h value) :: read) rest
          else .error (.here rest .loneSurrogate)
  | .afterHigh high, read, s :: rest =>
    if s = .char '\\' then readStringFrom (.afterHighSlash high) read rest
    else .error (.ahead (s :: rest) .truncatedEscape)
  | .afterHighSlash high, read, s :: rest =>
    if s = .char 'u' then readStringFrom (.hex (some high) 0 0) read rest
    else .error (.ahead (s :: rest) .truncatedEscape)

/-- Reads a string after its opening quotation mark. -/
def readString : Reader String :=
  readStringFrom .plain []

/-- The value of a decimal digit of a document. -/
def Symbol.digit? : Symbol → Option Nat
  | .char c => if '0' ≤ c ∧ c ≤ '9' then some (c.toNat - '0'.toNat) else none
  | .stray => none

/-- The decimal digits at the front, and what is left. -/
def readDigits : Input → List Nat × Input
  | [] => ([], [])
  | s :: rest =>
    match s.digit? with
    | some d =>
      let (ds, rest) := readDigits rest
      (d :: ds, rest)
    | none => ([], s :: rest)

/-- The largest integer of 64 bits. -/
def maxUnsigned : Nat := 18446744073709551615

/-- Appends digits to a significand as long as it stays within 64 bits: the
significand, how many digits it took in and how many it left out. -/
def absorb (significand : Nat) : List Nat → Nat × Nat × Nat
  | [] => (significand, 0, 0)
  | d :: ds =>
    if significand * 10 + d ≤ maxUnsigned then
      let (s, taken, dropped) := absorb (significand * 10 + d) ds
      (s, taken + 1, dropped)
    else (significand, 0, ds.length + 1)

/-- The value of digits. -/
def ofDigits (ds : List Nat) : Nat :=
  ds.foldl (fun n d => n * 10 + d) 0

/-- The largest exponent that may be written. -/
def maxExponent : Nat := 2147483647

/-- How many digits of an exponent follow the one with which it exceeds
`maxExponent`. -/
def digitsAfterOverflow (n : Nat) : List Nat → Nat
  | [] => 0
  | d :: ds =>
    if maxExponent < n * 10 + d then ds.length
    else digitsAfterOverflow (n * 10 + d) ds

/-- A number that is not an integer, or too long to be one. -/
def realNumber (negative : Bool) (significand : Nat) (exponent : Int) :
    Reader Number := fun rest =>
  match Binary64.ofDecimal significand exponent with
  | some step => .ok (.real ⟨negative, step⟩, rest)
  | none => .error (.here rest .numberOutOfRange)

/-- The exponent of a number, after its letter. `shift` is the exponent that the
significand has already. -/
def readExponent (negative : Bool) (significand : Nat) (shift : Int) :
    Reader Number := fun input =>
  let (down, input) :=
    match input with
    | .char '+' :: rest => (false, rest)
    | .char '-' :: rest => (true, rest)
    | _ => (false, input)
  match readDigits input with
  | ([], []) => .error (.here [] .endOfValue)
  | ([], rest) => .error (.ahead rest .invalidNumber)
  | (ds, rest) =>
    let n := ofDigits ds
    if maxExponent < n then
      if significand ≠ 0 ∧ !down then
        .error ⟨.numberOutOfRange, some (rest.bytes + digitsAfterOverflow 0 ds)⟩
      else .ok (.real ⟨negative, 0⟩, rest)
    else realNumber negative significand (if down then shift - n else shift + n) rest

/-- The digits after a decimal point. -/
def readFraction (negative : Bool) (significand : Nat) (shift : Int) :
    Reader Number := fun input =>
  match readDigits input with
  | ([], rest) =>
    .error (.ahead rest (if rest = [] then .endOfValue else .invalidNumber))
  | (ds, rest) =>
    let (significand, taken, _) := absorb significand ds
    let shift := shift - taken
    match rest with
    | .char 'e' :: rest => readExponent negative significand shift rest
    | .char 'E' :: rest => readExponent negative significand shift rest
    | _ => realNumber negative significand shift rest

/-- The least integer of 64 bits is minus this. -/
def maxNegative : Nat := 9223372036854775808

/-- An integer, unless it is minus zero or below 64 bits. -/
def integerNumber (negative : Bool) (n : Nat) : Number :=
  if !negative then .int n
  else if n = 0 ∨ maxNegative < n then .real ⟨true, Binary64.roundRatio n 1⟩
  else .int (-(n : Int))

/-- Reads a number after its sign. -/
def readNumber (negative : Bool) : Reader Number := fun input =>
  match readDigits input with
  | ([], []) => .error (.here [] .endOfValue)
  | ([], rest) => .error (.ahead rest .invalidNumber)
  | (0 :: d :: ds, rest) =>
    .error ⟨.invalidNumber, some (rest.bytes + (d :: ds).length - 1)⟩
  | (ds, rest) =>
    let (significand, _, dropped) := absorb 0 ds
    match rest with
    | .char '.' :: rest => readFraction negative significand dropped rest
    | .char 'e' :: rest => readExponent negative significand dropped rest
    | .char 'E' :: rest => readExponent negative significand dropped rest
    | _ =>
      if dropped = 0 then .ok (integerNumber negative significand, rest)
      else realNumber negative significand dropped rest

end DetectorBench.Json
