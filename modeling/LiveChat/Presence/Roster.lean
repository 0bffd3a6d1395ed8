import LiveChat.Presence.IdleWatch
import LiveChat.Table
import LiveChat.Wire.ClientFrame

/-!
# The roster

What is known of the presence of users, which users are watched, and whether the local user is
idle. Records are replaced but never forgotten, and the watched users only grow in number.
-/

namespace LiveChat

structure Roster where
  self : UserId
  records : Table UserId Presence
  watched : Table UserId Unit
  idleWatch : IdleWatch
  deriving DecidableEq, Repr

namespace Roster

def new (self : UserId) (idleThreshold : Duration) (now : Instant) : Roster :=
  ⟨self, .empty, .empty, .new now idleThreshold⟩

/-- The users that are not yet in the set, each once, in the order given. -/
def newcomers (known : Table UserId Unit) : List UserId → List UserId
  | [] => []
  | u :: rest =>
    if known.contains u then newcomers known rest
    else u :: newcomers (known.insert u ()) rest

def watch (r : Roster) (users : List UserId) : Roster × Option ClientFrame :=
  match newcomers r.watched users with
  | [] => (r, none)
  | added =>
    ({ r with watched := added.foldl (fun t u => t.insert u ()) r.watched }, some (.watch added))

def subscription (r : Roster) : Option ClientFrame :=
  if r.watched.isEmpty then none else some (.watch r.watched.keys)

def update (r : Roster) (p : Presence) : Roster :=
  { r with records := r.records.insert p.user p }

/-- Stores a record under the user it was sent for, whatever user it names. -/
def store (r : Roster) (user : UserId) (p : Presence) : Roster := r.update { p with user }

/-- Takes over a batch of records, and gives their users in ascending order. -/
def merge (r : Roster) (batch : List (UserId × Presence)) : Roster × List UserId :=
  (batch.foldl (fun r e => r.store e.1 e.2) r,
    (batch.map (·.1)).mergeSort fun a b => decide (a ≤ b))

def record? (r : Roster) (user : UserId) : Option Presence := r.records.find? user

def availabilityOf (r : Roster) (user : UserId) : Availability :=
  ((r.record? user).map Presence.availability).getD .offline

/-- Changes the local user's own note at once, without waiting for the service. -/
def setNote (r : Roster) (note emoji : Option String) (wall : Int64) : Roster × ClientFrame :=
  let availability := ((r.record? r.self).map Presence.availability).getD .online
  (r.update ⟨r.self, availability, wall, note, emoji⟩, .setNote note emoji)

def activity (r : Roster) (now : Instant) : Roster × Option ClientFrame :=
  let (w, change) := r.idleWatch.activity now
  ({ r with idleWatch := w }, change.map .setAvailability)

def tick (r : Roster) (now : Instant) : Roster × Option ClientFrame :=
  let (w, change) := r.idleWatch.tick now
  ({ r with idleWatch := w }, change.map .setAvailability)

end Roster

end LiveChat
