import LiveChat.Chat.Request
import LiveChat.Fault
import LiveChat.Table

/-!
# A chat service in memory

It stores the messages of each room, pages through them from the newest, and takes note of what it
is asked. Posting and paging can be made to fail.
-/

namespace LiveChat.Simulation

structure Server where
  rooms : Table Room (List Message)
  nextId : MessageId
  failPosts : Bool
  failHistory : Bool
  readMarks : List Room
  /-- The pages asked for: room, limit and offset. -/
  historyRequests : List (Room × Nat × Nat)
  user : UserId
  deriving DecidableEq, Repr

namespace Server

def new (user : UserId) : Server := ⟨.empty, 1, false, false, [], [], user⟩

def log (s : Server) (room : Room) : List Message := (s.rooms.find? room).getD []

def record (s : Server) (room : Room) (sender : UserId) (body : String) (ref : Option Ref) :
    Message where
  id := s.nextId
  room := some room.number
  sender := some sender
  nickname := some ("user" ++ toString sender)
  avatar := none
  body := body
  kind := .text
  createdAt := s.nextId.toInt64
  ref := ref

/-- Stores a message. The last number is never given away. -/
def post (s : Server) (room : Room) (sender : UserId) (body : String) (ref : Option Ref) :
    Except Fault (Server × Message) :=
  if s.nextId.toNat + 1 < UInt64.size then
    let m := s.record room sender body ref
    .ok ({ s with rooms := s.rooms.insert room (s.log room ++ [m]), nextId := s.nextId + 1 }, m)
  else .error .overflow

/-- Stores numbered messages of one sender, and gives their numbers. -/
def seed (s : Server) (room : Room) (sender : UserId) (count : Nat) :
    Except Fault (Server × List MessageId) :=
  (List.range count).foldlM (fun (s, ids) n => do
    let (s, m) ← s.post room sender ("message " ++ toString n) none
    .ok (s, ids ++ [m.id])) (s, [])

/-- The newest messages but for the first `offset`, at most `limit` of them, oldest first. -/
def page (s : Server) (room : Room) (limit offset : Nat) : Page :=
  let log := s.log room
  let stop := log.length - offset
  ⟨(log.take stop).drop (stop - limit), .ofNat log.length⟩

def history (s : Server) (room : Room) (limit offset : Nat) : Server × Page :=
  ({ s with historyRequests := s.historyRequests ++ [(room, limit, offset)] },
    s.page room limit offset)

def markRead (s : Server) (room : Room) : Server := { s with readMarks := s.readMarks ++ [room] }

/-! ## Requests -/

def requestHistory (s : Server) (room : Room) (limit offset : Nat) :
    Server × Except RequestError Page :=
  if s.failHistory then (s, .error (.unreachable "connection refused"))
  else
    let (s, page) := s.history room limit offset
    (s, .ok page)

def requestPost (s : Server) (room : Room) (body : String) (ref : Ref) :
    Except Fault (Server × Except RequestError Message) :=
  if s.failPosts then .ok (s, .error (.refused 503 "unavailable"))
  else do
    let (s, m) ← s.post room s.user body (some ref)
    .ok (s, .ok m)

end Server

end LiveChat.Simulation
