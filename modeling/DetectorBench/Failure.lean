/-!
# Failures

A failure is a chain of messages: what was being done, outermost first, down to
what went wrong in the end. Who raised it may have named the party responsible
(`subject`); that name survives any context added on the way up, so a host can
act on it.
-/

namespace DetectorBench

/-- What went wrong, and what was being done at the time, outermost first. -/
structure Failure where
  contexts : List String
  root : String
  subject : Option String
  deriving DecidableEq, Repr

namespace Failure

/-- A failure with nothing but a message. -/
def ofMessage (message : String) : Failure :=
  ⟨[], message, none⟩

/-- A failure seen from one step further out. -/
def inContext (context : String) (f : Failure) : Failure :=
  { f with contexts := context :: f.contexts }

/-- All messages, outermost first. -/
def chain (f : Failure) : List String :=
  f.contexts ++ [f.root]

/-- The outermost message. -/
def message (f : Failure) : String :=
  f.contexts.headD f.root

/-- The messages below the outermost one. -/
def causes (f : Failure) : List String :=
  f.chain.tail

end Failure

end DetectorBench
