import LiveChat.Wire.Record

/-!
# The timeline of a room

The messages of a room as the user sees them, oldest first: those that the service has confirmed,
and those that the user has sent and that still wait for it. A pending entry is known by the
number it was sent with.
-/

namespace LiveChat

structure Author where
  nickname : String
  avatar : Option String
  deriving DecidableEq, Repr

inductive Origin where
  | confirmed
  | pending (ref : Ref)
  deriving DecidableEq, Repr

structure Entry where
  /-- The service's number for the message, or the user's own while it is pending. -/
  id : MessageId
  room : UInt64
  sender : Option UserId
  body : String
  kind : MessageKind
  createdAt : Int64
  author : Option Author
  origin : Origin
  deriving DecidableEq, Repr

namespace Entry

/-- The entry of a confirmed message; one that names no room is of the room it came for. -/
def ofMessage (room : UInt64) (m : Message) : Entry where
  id := m.id
  room := m.room.getD room
  sender := m.sender
  body := m.body
  kind := m.kind
  createdAt := m.createdAt
  author := m.nickname.map fun nickname => ⟨nickname, m.avatar⟩
  origin := .confirmed

def ref? (e : Entry) : Option Ref :=
  match e.origin with
  | .confirmed => none
  | .pending ref => some ref

def isPending (e : Entry) : Bool := e.ref?.isSome

@[simp] theorem ref?_ofMessage (room : UInt64) (m : Message) : (ofMessage room m).ref? = none := rfl

@[simp] theorem isPending_ofMessage (room : UInt64) (m : Message) :
    (ofMessage room m).isPending = false := rfl

end Entry

abbrev Timeline := List Entry

namespace Timeline

def ids (t : Timeline) : List MessageId := t.map Entry.id

def pending (t : Timeline) : Timeline := t.filter Entry.isPending

def confirmed (t : Timeline) : Timeline := t.filter fun e => !e.isPending

def confirmedCount (t : Timeline) : Nat := t.confirmed.length

def holds (t : Timeline) (id : MessageId) : Bool := t.any (·.id = id)

def holdsConfirmed (t : Timeline) (id : MessageId) : Bool :=
  t.any fun e => e.id = id && !e.isPending

/-- The place of the pending entry that was sent with this number. -/
def placeOfRef? (t : Timeline) (ref : Ref) : Option Nat := t.findIdx? (·.ref? = some ref)

def lastIdx? (p : α → Bool) : List α → Option Nat
  | [] => none
  | a :: l =>
    match lastIdx? p l with
    | some i => some (i + 1)
    | none => if p a then some 0 else none

/-- The place of the newest pending entry of this sender and body. -/
def placeOfBody? (t : Timeline) (sender : UserId) (body : String) : Option Nat :=
  lastIdx? (fun e => e.isPending && e.sender = some sender && e.body = body) t

/-- The messages whose numbers are new, each number once. -/
def fresh (seen : List MessageId) : List Message → List Message
  | [] => []
  | m :: rest =>
    if seen.contains m.id then fresh seen rest
    else m :: fresh (m.id :: seen) rest

/-- The newest page in place of the confirmed entries; pending ones stay, behind it. -/
def reload (t : Timeline) (room : UInt64) (page : List Message) : Timeline :=
  (fresh [] page).map (Entry.ofMessage room) ++ t.pending

/-- The part of an older page that is not in the timeline yet. -/
def missing (t : Timeline) (room : UInt64) (page : List Message) : Timeline :=
  (fresh t.ids page).map (Entry.ofMessage room)

end Timeline

end LiveChat
