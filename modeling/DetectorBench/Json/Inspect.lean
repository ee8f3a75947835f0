import DetectorBench.Json.Basic
import DetectorBench.Text.Quoted

/-!
# Values for inspection

The text that shows a value with the kind of every part, for logs and
interactive use.
-/

namespace DetectorBench.Json

mutual

/-- The text of a value that names its kind. -/
def inspect : Json → String
  | .null => "Null"
  | .bool true => "Bool(true)"
  | .bool false => "Bool(false)"
  | .number n => "Number(" ++ String.ofList n.text ++ ")"
  | .string s => "String(" ++ Text.quote s ++ ")"
  | .array items => "Array [" ++ ", ".intercalate (inspectItems items) ++ "]"
  | .object members =>
    "Object \x7b" ++ ", ".intercalate (inspectMembers members) ++ "\x7d"

/-- The texts of several values. -/
def inspectItems : List Json → List String
  | [] => []
  | x :: xs => inspect x :: inspectItems xs

/-- The texts of several members. -/
def inspectMembers : List (String × Json) → List String
  | [] => []
  | (k, v) :: rest => (Text.quote k ++ ": " ++ inspect v) :: inspectMembers rest

end

end DetectorBench.Json
