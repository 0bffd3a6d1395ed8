import LiveChat.Wire.Record

/-!
# The feed of notices

Notices, newest first. A notice whose number is already there is dropped, whatever it says. The one
that was published last is kept at hand for whoever keeps a list of their own.
-/

namespace LiveChat

structure Feed where
  entries : List Notice
  latest? : Option Notice
  deriving DecidableEq, Repr

namespace Feed

def empty : Feed := ⟨[], none⟩

def contains (f : Feed) (id : UInt64) : Bool := f.entries.any (·.id = id)

/-- Takes a notice in and publishes it if it is new. -/
def take (f : Feed) (n : Notice) : Feed × Option Notice :=
  if f.contains n.id then (f, none) else (⟨n :: f.entries, some n⟩, some n)

end Feed

end LiveChat
