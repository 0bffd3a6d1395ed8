import LiveChat.Duration
import LiveChat.Table
import LiveChat.Wire.Record

/-!
# Who is typing

The other users who are typing in a room. An entry goes when its user stops, or when it has not
been refreshed for a while. Each operation tells whether the visible list has changed.
-/

namespace LiveChat

structure Typist where
  nickname : String
  refreshedAt : Instant
  deriving DecidableEq, Repr

structure Typists where
  table : Table UserId Typist
  deriving DecidableEq, Repr

namespace Typists

def empty : Typists := ⟨.empty⟩

/-- The users and their names, in ascending order of the users. -/
def visible (t : Typists) : List (UserId × String) :=
  t.table.entries.map fun e => (e.1, e.2.nickname)

def users (t : Typists) : List UserId := t.table.keys

def nicknames (t : Typists) : List String := t.table.values.map Typist.nickname

def contains (t : Typists) (user : UserId) : Bool := t.table.contains user

def insert (t : Typists) (user : UserId) (nickname : String) (now : Instant) : Typists × Bool :=
  (⟨t.table.insert user ⟨nickname, now⟩⟩,
    (t.table.find? user).map Typist.nickname ≠ some nickname)

def remove (t : Typists) (user : UserId) : Typists × Bool :=
  (⟨t.table.erase user⟩, t.contains user)

/-- Drops the entries that have not been refreshed for this long. -/
def expire (t : Typists) (now : Instant) (ttl : Duration) : Typists × Bool :=
  let kept := t.table.filter fun _ e => now - e.refreshedAt < ttl
  (⟨kept⟩, kept.size ≠ t.table.size)

end Typists

end LiveChat
