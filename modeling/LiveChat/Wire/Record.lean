import LiveChat.Json.Document
import LiveChat.Json.Reader

/-!
# Records

What the chat service stores and sends: presence of users, messages, pages of message history and
notices. Each record has a writer `toJson` and a reader `ofJson?`. A reader is told whether the
record comes out of a payload that was set aside, and how many arrays and objects stand around it.
-/

namespace LiveChat

abbrev UserId := UInt64

abbrev MessageId := UInt64

/-- The number a sender gives to a message so that its confirmation can be told. -/
abbrev Ref := UInt64

inductive Availability where
  | online
  | idle
  | doNotDisturb
  | offline
  deriving DecidableEq, Repr, Inhabited

namespace Availability

def name : Availability → String
  | online => "online"
  | idle => "idle"
  | doNotDisturb => "dnd"
  | offline => "offline"

def ofName? (s : String) : Option Availability :=
  [online, idle, doNotDisturb, offline].find? (·.name = s)

theorem ofName?_name (a : Availability) : ofName? a.name = some a := by cases a <;> decide

def unknownMessage (s : String) : String := "unknown presence status: " ++ s

def toJson (a : Availability) : Json := .text a.name

def ofJson? (aside : Bool) (j : Json) : Option Availability := do
  ofName? (← if aside then j.asideVariant? else j.variant?)

end Availability

structure Presence where
  user : UserId
  availability : Availability
  /-- When the service last heard from the user, in milliseconds since 1970. -/
  heardAt : Int64
  note : Option String
  emoji : Option String
  deriving DecidableEq, Repr

namespace Presence

def toJson (p : Presence) : Json :=
  .record [("user_id", .word p.user), ("status", p.availability.toJson),
    ("last_heartbeat", .int64 p.heardAt), ("status_message", .nullable .text p.note),
    ("status_emoji", .nullable .text p.emoji)]

def ofJson? (aside : Bool) (j : Json) : Option Presence := do
  let fs ← j.recordFields?
    ["user_id", "status", "last_heartbeat", "status_message", "status_emoji"]
  some {
    user := ← fs.required "user_id" Json.word?
    availability := ← fs.required "status" (Availability.ofJson? aside)
    heardAt := ← fs.required "last_heartbeat" Json.int64?
    note := ← fs.optional "status_message" Json.text?
    emoji := ← fs.optional "status_emoji" Json.text? }

end Presence

/-- Plain text, or anything else that a room can show. -/
inductive MessageKind where
  | text
  | other
  deriving DecidableEq, Repr

namespace MessageKind

def name : MessageKind → String
  | text => "text"
  | other => "other"

def toJson (k : MessageKind) : Json := .text k.name

/-- Every name but `text` stands for another kind. -/
def ofJson? (aside : Bool) (j : Json) : Option MessageKind := do
  let name ← if aside then j.asideVariant? else j.variant?
  some (if name = "text" then text else other)

end MessageKind

structure Message where
  id : MessageId
  room : Option UInt64
  /-- The sender; a message of the system has none. -/
  sender : Option UserId
  nickname : Option String
  avatar : Option String
  body : String
  kind : MessageKind
  /-- When the message was stored, in milliseconds since 1970. -/
  createdAt : Int64
  ref : Option Ref
  deriving DecidableEq, Repr

namespace Message

def toJson (m : Message) : Json :=
  .record ([("id", .word m.id), ("room_id", .nullable .word m.room),
    ("sender_id", .nullable .word m.sender), ("nickname", .nullable .text m.nickname),
    ("avatar", .nullable .text m.avatar), ("message", .text m.body), ("type", m.kind.toJson),
    ("created_at", .int64 m.createdAt)] ++
    match m.ref with
    | none => []
    | some ref => [("client_ref", .word ref)])

def ofJson? (aside : Bool) (j : Json) : Option Message := do
  let fs ← j.recordFields? ["id", "room_id", "sender_id", "nickname", "avatar", "message", "type",
    "created_at", "client_ref"]
  some {
    id := ← fs.required "id" Json.word?
    room := ← fs.optional "room_id" Json.word?
    sender := ← fs.optional "sender_id" Json.word?
    nickname := ← fs.optional "nickname" Json.text?
    avatar := ← fs.optional "avatar" Json.text?
    body := ← fs.required "message" Json.text?
    kind := ← fs.defaulted "type" .text (MessageKind.ofJson? aside)
    createdAt := ← fs.required "created_at" Json.int64?
    ref := ← fs.optional "client_ref" Json.word? }

end Message

structure Page where
  messages : List Message
  /-- How many messages the room has in all. -/
  total : UInt64
  deriving DecidableEq, Repr

namespace Page

def toJson (p : Page) : Json :=
  .record [("messages", .array (p.messages.map Message.toJson)), ("total", .word p.total)]

def ofJson? (j : Json) : Option Page := do
  let fs ← j.recordFields? ["messages", "total"]
  some ⟨← fs.required "messages" (Json.list? (Message.ofJson? false)),
    ← fs.required "total" Json.word?⟩

end Page

/-- Something to tell the user, with data for whoever shows it. -/
structure Notice where
  id : UInt64
  kind : String
  title : String
  body : Option String
  createdAt : Int64
  data : Option Json.Document
  deriving DecidableEq, Repr

/-- How many arrays and objects may stand inside each other in a value that is kept. -/
def nestingLimit : Nat := 127

namespace Notice

def toJson (n : Notice) : Json :=
  .record ([("id", .word n.id), ("kind", .text n.kind), ("title", .text n.title),
    ("body", .nullable .text n.body), ("created_at", .int64 n.createdAt)] ++
    match n.data with
    | none => []
    | some data => [("data", data.toJson)])

/-- Reads a document inside a record that has `around` arrays and objects around it. -/
def dataOfJson? (around : Nat) (j : Json) : Option Json.Document :=
  if around + 1 + j.depth ≤ nestingLimit then Json.Document.ofJson? j else none

def ofJson? (around : Nat) (j : Json) : Option Notice := do
  let fs ← j.recordFields? ["id", "kind", "title", "body", "created_at", "data"]
  some {
    id := ← fs.required "id" Json.word?
    kind := ← fs.defaulted "kind" "" Json.text?
    title := ← fs.required "title" Json.text?
    body := ← fs.optional "body" Json.text?
    createdAt := ← fs.required "created_at" Json.int64?
    data := ← fs.optional "data" (dataOfJson? around) }

end Notice

end LiveChat
