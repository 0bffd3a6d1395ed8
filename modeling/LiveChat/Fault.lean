/-!
# Faults

A fault ends a run: a clock, delay or counter has left its range, or a checked property of a
client does not hold. It is not an answer of the chat service; errors of the service are values
of the types that raise them.
-/

namespace LiveChat

inductive Fault where
  /-- An amount is beyond what its type can hold. -/
  | overflow
  /-- A property that every client must keep is broken; the report names it. -/
  | violation (report : String)
  deriving DecidableEq, Repr

def Fault.message : Fault → String
  | overflow => "out of range"
  | violation report => report

end LiveChat
