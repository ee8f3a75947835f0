import DetectorBench.Json.Scan

/-!
# Passing over a value

A value that nobody asked for is passed over without being built. The brackets,
words and escapes must be right, but nothing is decoded: numbers may be out of
range, surrogates may stand alone, bytes need not form characters, and values
may be nested to any depth.
-/

namespace DetectorBench.Json

/-- Where one stands inside a string that is passed over; `hex` counts the
digits still to come. -/
inductive SkipMode where
  | plain
  | escape
  | hex (due : Nat)

/-- Passes over the rest of a string, after its opening quotation mark. -/
def skipStringFrom : SkipMode → Input → Except Fault Input
  | _, [] => .error (.here [] .endOfString)
  | .plain, .char c :: rest =>
    if c = '"' then .ok rest
    else if c = '\\' then skipStringFrom .escape rest
    else if c.toNat < 0x20 then .error (.here (.char c :: rest) .controlCharacter)
    else skipStringFrom .plain rest
  | .plain, .stray :: rest => skipStringFrom .plain rest
  | .escape, .char c :: rest =>
    if c = 'u' then skipStringFrom (.hex 4) rest
    else if (shortEscape? c).isSome then skipStringFrom .plain rest
    else .error (.ahead (.char c :: rest) .invalidEscape)
  | .escape, .stray :: rest => .error (.ahead (.stray :: rest) .invalidEscape)
  | .hex due, s :: rest =>
    match s.hexDigit? with
    | none =>
      let input : Input := s :: rest
      if due ≤ input.bytes then .error ⟨.invalidEscape, some (input.bytes - due)⟩
      else .error (.here [] .endOfString)
    | some _ => skipStringFrom (if due ≤ 1 then .plain else .hex (due - 1)) rest

/-- Passes over a string, after its opening quotation mark. -/
def skipString : Input → Except Fault Input :=
  skipStringFrom .plain

/-- Passes over an exponent, after its letter. -/
def skipExponent (input : Input) : Except Fault Input :=
  let input :=
    match input with
    | .char '+' :: rest => rest
    | .char '-' :: rest => rest
    | _ => input
  match readDigits input with
  | ([], rest) => .error (.ahead rest .invalidNumber)
  | (_, rest) => .ok rest

/-- Passes over an exponent if there is one. -/
def skipExponent? : Input → Except Fault Input
  | .char 'e' :: rest => skipExponent rest
  | .char 'E' :: rest => skipExponent rest
  | rest => .ok rest

/-- Passes over a number, after its sign. -/
def skipNumber (input : Input) : Except Fault Input :=
  match readDigits input with
  | ([], rest) => .error (.ahead rest .invalidNumber)
  | (0 :: d :: ds, rest) =>
    .error ⟨.invalidNumber, some (rest.bytes + (d :: ds).length - 1)⟩
  | (_, .char '.' :: rest) =>
    match readDigits rest with
    | ([], rest) => .error (.ahead rest .invalidNumber)
    | (_, rest) => skipExponent? rest
  | (_, rest) => skipExponent? rest

/-- Passes over a key and its colon, at the quotation mark that opens the
key. -/
def skipKey (input : Input) : Except Fault Input :=
  match skipBlanks input with
  | .char '"' :: rest => do
    let rest ← skipString rest
    match skipBlanks rest with
    | .char ':' :: rest => .ok rest
    | [] => .error (.ahead [] .endOfObject)
    | rest => .error (.ahead rest .expectedColon)
  | [] => .error (.ahead [] .endOfObject)
  | rest => .error (.ahead rest .keyNotString)

mutual

/-- Passes over a value. The fuel bounds the steps; `skipValue` supplies
enough. -/
def skipValueFrom : Nat → Input → Except Fault Input
  | 0, input => .error (.ahead input .expectedValue)
  | fuel + 1, input =>
    match skipBlanks input with
    | [] => .error (.ahead [] .endOfValue)
    | .char 'n' :: rest => readWord ['u', 'l', 'l'] rest
    | .char 't' :: rest => readWord ['r', 'u', 'e'] rest
    | .char 'f' :: rest => readWord ['a', 'l', 's', 'e'] rest
    | .char '"' :: rest => skipString rest
    | .char '-' :: rest => skipNumber rest
    | .char '[' :: rest => skipItemsFrom fuel true rest
    | .char '\x7b' :: rest => skipMembersFrom fuel true rest
    | s :: rest =>
      if s.digit?.isSome then skipNumber (s :: rest)
      else .error (.ahead (s :: rest) .expectedValue)

/-- Passes over the items of an array and its closing bracket. -/
def skipItemsFrom : Nat → (first : Bool) → Input → Except Fault Input
  | 0, _, input => .error (.ahead input .expectedValue)
  | fuel + 1, first, input =>
    match skipBlanks input with
    | [] => .error (.ahead [] .endOfList)
    | .char ']' :: rest => .ok rest
    | s :: rest =>
      if first then do
        let rest ← skipValueFrom fuel (s :: rest)
        skipItemsFrom fuel false rest
      else if s = .char ',' then do
        let rest ← skipValueFrom fuel rest
        skipItemsFrom fuel false rest
      else .error (.ahead (s :: rest) .expectedCommaOrBracket)

/-- Passes over the members of an object and its closing brace. -/
def skipMembersFrom : Nat → (first : Bool) → Input → Except Fault Input
  | 0, _, input => .error (.ahead input .expectedValue)
  | fuel + 1, first, input =>
    match skipBlanks input with
    | [] => .error (.ahead [] .endOfObject)
    | .char '\x7d' :: rest => .ok rest
    | s :: rest =>
      if first then do
        let rest ← skipKey (s :: rest)
        let rest ← skipValueFrom fuel rest
        skipMembersFrom fuel false rest
      else if s = .char ',' then do
        let rest ← skipKey rest
        let rest ← skipValueFrom fuel rest
        skipMembersFrom fuel false rest
      else .error (.ahead (s :: rest) .expectedCommaOrBrace)

end

/-- Passes over a value; every step but the one from a bracket to a first item
takes a symbol. -/
def skipValue (input : Input) : Except Fault Input :=
  skipValueFrom (2 * input.length + 2) input

end DetectorBench.Json
