import DetectorBench.Decimal.Shortest

/-!
# JSON values

Numbers are exact: an integer that fits in 64 bits, signed or unsigned, stays an
integer; every other number is a binary64 number. The members of an object are
kept in the order in which they are written, because records are written in the
order of their fields. A value that a program computes with is `canonical`: its
members are sorted by key and no key occurs twice, the last of several members
with one key being the one that counts.
-/

namespace DetectorBench

/-- A JSON number. -/
inductive Number where
  | int (value : Int)
  | real (value : Binary64)
  deriving DecidableEq, Repr, Inhabited

/-- The text of a number. -/
def Number.text : Number → List Char
  | .int i => if i < 0 then '-' :: Text.digits i.natAbs else Text.digits i.natAbs
  | .real x => Decimal.text x

/-- A JSON value. -/
inductive Json where
  | null
  | bool (value : Bool)
  | number (value : Number)
  | string (value : String)
  | array (items : List Json)
  | object (members : List (String × Json))
  deriving Repr, Inhabited

namespace Json

/-- A natural number as a JSON number. -/
def ofNat (n : Nat) : Json :=
  .number (.int n)

/-- Adds a member to a list sorted by key; a member with the same key is
replaced. -/
def insertMember (key : String) (value : Json) :
    List (String × Json) → List (String × Json)
  | [] => [(key, value)]
  | (k, v) :: rest =>
    if key < k then (key, value) :: (k, v) :: rest
    else if key = k then (key, value) :: rest
    else (k, v) :: insertMember key value rest

/-- The members sorted by key, the last of several members with one key being
kept. -/
def sortMembers (members : List (String × Json)) : List (String × Json) :=
  members.foldl (fun sorted m => insertMember m.1 m.2 sorted) []

mutual

/-- A value with the members of every object sorted, each key once. -/
def canonical : Json → Json
  | .array items => .array (canonicalItems items)
  | .object members => .object (sortMembers (canonicalMembers members))
  | other => other

/-- `canonical` for each of several values. -/
def canonicalItems : List Json → List Json
  | [] => []
  | x :: xs => canonical x :: canonicalItems xs

/-- `canonical` for the value of each member. -/
def canonicalMembers : List (String × Json) → List (String × Json)
  | [] => []
  | (k, v) :: rest => (k, canonical v) :: canonicalMembers rest

end

/-- The value under a key of an object, if there is one. -/
def get? (key : String) : Json → Option Json
  | .object members => (members.find? fun m => m.1 == key).map (·.2)
  | _ => none

end Json

end DetectorBench
