import DetectorBench.Routine

/-!
# Built-in routines

`echo` gives its argument back, `noop` completes later with nothing, and `count`
completes later with the number of items of an array, members of an object, or
characters of a string.
-/

namespace DetectorBench.Routine

/-- Gives its argument back. -/
def echo : Routine where
  name := "echo"
  arity := 1
  run arguments h := .value arguments[0]

/-- Does nothing. -/
def noop : Routine where
  name := "noop"
  arity := 0
  run _ _ := .deferredUnit (.ok ())

/-- The error of counting what has no parts. -/
def uncountable (what : String) : Failure :=
  .ofMessage ("cannot count a " ++ what)

/-- The number of parts of a value. -/
def sizeOfValue : Json → Except Failure Nat
  | .array items => .ok items.length
  | .object members => .ok members.length
  | .string s => .ok s.length
  | .null => .error (uncountable "null")
  | .bool _ => .error (uncountable "boolean")
  | .number _ => .error (uncountable "number")

/-- Counts the parts of its argument. -/
def count : Routine where
  name := "count"
  arity := 1
  run arguments h := .deferred ((sizeOfValue arguments[0]).map Json.ofNat)

/-- The built-in routines. -/
def builtin : Registry :=
  Registry.empty.insertAll [echo, noop, count]

end DetectorBench.Routine
