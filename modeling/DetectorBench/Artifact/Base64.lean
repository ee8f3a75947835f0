import DetectorBench.Text.Class

/-!
# Base64

Bytes as text in the standard alphabet. Every group of three bytes is written as
four symbols; a last group of one or two bytes is filled up with `=`. Decoding
accepts exactly what encoding writes: the padding has to be complete, and the
bits that it leaves over have to be zero.
-/

namespace DetectorBench.Base64

/-- The symbol of a value below sixty-four. -/
def symbol (n : Nat) : Char :=
  if n < 26 then Char.ofNat ('A'.toNat + n)
  else if n < 52 then Char.ofNat ('a'.toNat + (n - 26))
  else if n < 62 then Char.ofNat ('0'.toNat + (n - 52))
  else if n = 62 then '+'
  else '/'

/-- The text of bytes. -/
def encode : List UInt8 → List Char
  | a :: b :: c :: rest =>
    symbol (a.toNat / 4) :: symbol (a.toNat % 4 * 16 + b.toNat / 16)
      :: symbol (b.toNat % 16 * 4 + c.toNat / 64) :: symbol (c.toNat % 64)
      :: encode rest
  | [a, b] =>
    [symbol (a.toNat / 4), symbol (a.toNat % 4 * 16 + b.toNat / 16),
      symbol (b.toNat % 16 * 4), '=']
  | [a] => [symbol (a.toNat / 4), symbol (a.toNat % 4 * 16), '=', '=']
  | [] => []

/-- What is wrong with a text that does not decode. Offsets count bytes from
zero. -/
inductive Fault where
  | invalidSymbol (byte : UInt8) (offset : Nat)
  | invalidLength (length : Nat)
  | invalidLastSymbol (byte : UInt8) (offset : Nat)
  | invalidPadding
  deriving DecidableEq, Repr

/-- The wording of a fault. -/
def Fault.message : Fault → String
  | invalidSymbol byte offset =>
    "Invalid symbol " ++ String.ofList (Text.digits byte.toNat) ++ ", offset "
      ++ String.ofList (Text.digits offset) ++ "."
  | invalidLength length =>
    "Invalid input length: " ++ String.ofList (Text.digits length)
  | invalidLastSymbol byte offset =>
    "Invalid last symbol " ++ String.ofList (Text.digits byte.toNat) ++ ", offset "
      ++ String.ofList (Text.digits offset) ++ "."
  | invalidPadding => "Invalid padding"

/-- The padding symbol. -/
def padding : UInt8 := 61

/-- The value of a symbol. -/
def value? (b : UInt8) : Option Nat :=
  let n := b.toNat
  if 65 ≤ n ∧ n ≤ 90 then some (n - 65)
  else if 97 ≤ n ∧ n ≤ 122 then some (n - 97 + 26)
  else if 48 ≤ n ∧ n ≤ 57 then some (n - 48 + 52)
  else if n = 43 then some 62
  else if n = 47 then some 63
  else none

/-- The value of the symbol at an offset. -/
def valueAt (offset : Nat) (b : UInt8) : Except Fault Nat :=
  match value? b with
  | some v => .ok v
  | none => .error (.invalidSymbol b offset)

/-- The values of the symbols in a last group, and the number of padding symbols
after them. `padded` is the place of the first padding symbol: no other symbol
may follow it, and it may not be one of the first two. -/
def readLast (offset : Nat) :
    (index : Nat) → (padded : Option Nat) → List UInt8 →
      Except Fault (List Nat × Nat)
  | _, _, [] => .ok ([], 0)
  | index, padded, b :: rest =>
    if b = padding then
      if index < 2 then .error (.invalidSymbol b (offset + index))
      else do
        let (values, count) ← readLast offset (index + 1)
          (padded <|> some index) rest
        return (values, count + 1)
    else
      match padded with
      | some place => .error (.invalidSymbol padding (offset + place))
      | none => do
        let v ← valueAt (offset + index) b
        let (values, count) ← readLast offset (index + 1) none rest
        return (v :: values, count)

/-- The bytes that the values of a last group stand for; `none` if bits are left
over that are not zero. -/
def lastBytes? : List Nat → Option (List UInt8)
  | [] => some []
  | [a, b] => if b % 16 = 0 then some [UInt8.ofNat (a * 4 + b / 16)] else none
  | [a, b, c] =>
    if c % 4 = 0 then some [UInt8.ofNat (a * 4 + b / 16),
      UInt8.ofNat (b % 16 * 16 + c / 4)] else none
  | [a, b, c, d] =>
    some [UInt8.ofNat (a * 4 + b / 16), UInt8.ofNat (b % 16 * 16 + c / 4),
      UInt8.ofNat (c % 4 * 64 + d)]
  | _ => none

/-- Decodes a last group, of at most four symbols. -/
def decodeLast (offset : Nat) (group : List UInt8) :
    Except Fault (List UInt8) := do
  let (values, count) ← readLast offset 0 none group
  if group ≠ [] ∧ values.length < 2 then
    .error (.invalidLength (offset + values.length))
  else if (values.length + count) % 4 ≠ 0 then .error .invalidPadding
  else
    match lastBytes? values with
    | some bytes => return bytes
    | none =>
      let last := values.length - 1
      .error (.invalidLastSymbol (group.getD last padding) (offset + last))

/-- Decodes groups of four symbols, up to the last one. -/
def decodeFrom (offset : Nat) : List UInt8 → Except Fault (List UInt8)
  | a :: b :: c :: d :: e :: rest => do
    let w ← valueAt offset a
    let x ← valueAt (offset + 1) b
    let y ← valueAt (offset + 2) c
    let z ← valueAt (offset + 3) d
    let bytes ← decodeFrom (offset + 4) (e :: rest)
    return UInt8.ofNat (w * 4 + x / 16) :: UInt8.ofNat (x % 16 * 16 + y / 4)
      :: UInt8.ofNat (y % 4 * 64 + z) :: bytes
  | group => decodeLast offset group

/-- Whether a text ends in one symbol too many that is foreign to the alphabet:
a line break, say. -/
def strayEnd? (text : List UInt8) : Option UInt8 :=
  if text.length % 4 = 1 then
    text.getLast?.filter fun b => b ≠ padding && (value? b).isNone
  else none

/-- The bytes of a text. -/
def decode (text : List UInt8) : Except Fault (List UInt8) :=
  match strayEnd? text with
  | some b => .error (.invalidSymbol b (text.length - 1))
  | none => decodeFrom 0 text

end DetectorBench.Base64
