import DetectorBench.Json.Printer
import DetectorBench.Text.Quoted

/-!
# Faults of JSON documents

A document is read as a list of symbols: characters, and, in bytes that are not
UTF-8, the bytes that belong to no character. A reader that gives up says why
(`Cause`) and how many bytes were still before it; the place in the document
follows from that number alone (`Position.before`), so no reader keeps count of
lines and columns. Columns count bytes.
-/

namespace DetectorBench.Json

/-- One symbol of a document: a character, or a byte that is part of none. -/
inductive Symbol where
  | char (c : Char)
  | stray
  deriving DecidableEq, Repr

/-- The number of bytes of a symbol. -/
def Symbol.width : Symbol → Nat
  | .char c => c.utf8Size
  | .stray => 1

/-- What is left to read. -/
abbrev Input := List Symbol

/-- The number of bytes that are left to read. -/
def Input.bytes : Input → Nat
  | [] => 0
  | s :: rest => s.width + Input.bytes rest

/-- The symbols of a text. -/
def symbolsOfText (s : String) : Input :=
  s.toList.map .char

/-- The symbols of the bytes from an index on: a well-formed character where
there is one, else a single byte. -/
def symbolsFrom (bytes : ByteArray) (index : Nat) : Input :=
  if index < bytes.size then
    match bytes.utf8DecodeChar? index with
    | some c => .char c :: symbolsFrom bytes (index + c.utf8Size)
    | none => .stray :: symbolsFrom bytes (index + 1)
  else []
termination_by bytes.size - index
decreasing_by
  · have := c.utf8Size_pos
    omega
  · omega

/-- The symbols of a document given as bytes. -/
def symbolsOfBytes (bytes : ByteArray) : Input :=
  match String.fromUTF8? bytes with
  | some s => symbolsOfText s
  | none => symbolsFrom bytes 0

/-- Why a document or a value was refused. -/
inductive Cause where
  | endOfList
  | endOfObject
  | endOfString
  | endOfValue
  | expectedColon
  | expectedCommaOrBracket
  | expectedCommaOrBrace
  | expectedWord
  | expectedValue
  | invalidEscape
  | invalidNumber
  | numberOutOfRange
  | invalidCodePoint
  | controlCharacter
  | keyNotString
  | loneSurrogate
  | trailingComma
  | trailingCharacters
  | truncatedEscape
  | tooDeep
  | invalidType (found : Json) (expected : String)
  | invalidValue (found : Json) (expected : String)
  | invalidLength (length : Nat) (expected : String)
  | unknownVariant (name : String) (known : List String)
  | unknownField (name : String) (known : List String)
  | missingField (name : String)
  | duplicateField (name : String)
  deriving Repr

/-- What kind of value was found, for a message. -/
def describe : Json → String
  | .null => "null"
  | .bool true => "boolean `true`"
  | .bool false => "boolean `false`"
  | .number (.int i) => "integer `" ++ String.ofList (Number.text (.int i)) ++ "`"
  | .number (.real x) => "floating point `" ++ String.ofList (Decimal.text x) ++ "`"
  | .string s => "string " ++ Text.quote s
  | .array _ => "sequence"
  | .object _ => "map"

/-- The names that would have been accepted, for a message. -/
def oneOf (names : List String) : String :=
  let quoted := names.map fun name => "`" ++ name ++ "`"
  match quoted with
  | [] => "there are none"
  | [a] => "expected " ++ a
  | [a, b] => "expected " ++ a ++ " or " ++ b
  | several => "expected one of " ++ ", ".intercalate several

/-- The wording of a cause. -/
def Cause.message : Cause → String
  | .endOfList => "EOF while parsing a list"
  | .endOfObject => "EOF while parsing an object"
  | .endOfString => "EOF while parsing a string"
  | .endOfValue => "EOF while parsing a value"
  | .expectedColon => "expected `:`"
  | .expectedCommaOrBracket => "expected `,` or `]`"
  | .expectedCommaOrBrace => "expected `,` or `\x7d`"
  | .expectedWord => "expected ident"
  | .expectedValue => "expected value"
  | .invalidEscape => "invalid escape"
  | .invalidNumber => "invalid number"
  | .numberOutOfRange => "number out of range"
  | .invalidCodePoint => "invalid unicode code point"
  | .controlCharacter =>
    "control character (\\u0000-\\u001F) found while parsing a string"
  | .keyNotString => "key must be a string"
  | .loneSurrogate => "lone leading surrogate in hex escape"
  | .trailingComma => "trailing comma"
  | .trailingCharacters => "trailing characters"
  | .truncatedEscape => "unexpected end of hex escape"
  | .tooDeep => "recursion limit exceeded"
  | .invalidType found expected =>
    "invalid type: " ++ describe found ++ ", expected " ++ expected
  | .invalidValue found expected =>
    "invalid value: " ++ describe found ++ ", expected " ++ expected
  | .invalidLength length expected =>
    "invalid length " ++ String.ofList (Text.digits length) ++ ", expected " ++
      expected
  | .unknownVariant name known => "unknown variant `" ++ name ++ "`, " ++ oneOf known
  | .unknownField name known => "unknown field `" ++ name ++ "`, " ++ oneOf known
  | .missingField name => "missing field `" ++ name ++ "`"
  | .duplicateField name => "duplicate field `" ++ name ++ "`"

/-- A cause, and how many bytes of the document stood after the place of the
fault. A value that was refused apart from its document has no place. -/
structure Fault where
  cause : Cause
  left : Option Nat
  deriving Repr

namespace Fault

/-- A fault just before what is left. -/
def here (rest : Input) (cause : Cause) : Fault :=
  ⟨cause, some rest.bytes⟩

/-- A fault at the first byte of what is left; at the end of the document, at
the end. -/
def ahead (rest : Input) (cause : Cause) : Fault :=
  ⟨cause, some (rest.bytes - 1)⟩

/-- A fault without a place. -/
def unplaced (cause : Cause) : Fault :=
  ⟨cause, none⟩

end Fault

/-- A place in a document: lines from one, columns in bytes from zero (before
the first byte). -/
structure Position where
  line : Nat
  column : Nat
  deriving DecidableEq, Repr

namespace Position

/-- The place that is `count` bytes further on from `p`. -/
def advance (p : Position) : (count : Nat) → Input → Position
  | 0, _ => p
  | _, [] => p
  | count, s :: rest =>
    if count < s.width then ⟨p.line, p.column + count⟩
    else if s = .char '\n' then advance ⟨p.line + 1, 0⟩ (count - s.width) rest
    else advance ⟨p.line, p.column + s.width⟩ (count - s.width) rest

/-- The place in a document that has `left` bytes after it. -/
def before (document : Input) (left : Nat) : Position :=
  advance ⟨1, 0⟩ (document.bytes - left) document

end Position

/-- The place of a fault in its document. -/
def Fault.position? (document : Input) (fault : Fault) : Option Position :=
  fault.left.map (Position.before document)

/-- The wording of a fault, with its place if it has one. -/
def Fault.message (document : Input) (fault : Fault) : String :=
  match fault.position? document with
  | none => fault.cause.message
  | some p =>
    fault.cause.message ++ " at line " ++ String.ofList (Text.digits p.line)
      ++ " column "
      ++ String.ofList (Text.digits p.column)

end DetectorBench.Json
