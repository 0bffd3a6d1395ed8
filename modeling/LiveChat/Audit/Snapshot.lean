import LiveChat.Client.Basic

/-!
# Snapshots

What can be seen of clients at one moment, as plain data: the timeline, who is typing, the
channels with their timers, the watched users and the notices.
-/

namespace LiveChat.Audit

structure MessageView where
  id : MessageId
  sender : Option UserId
  body : String
  /-- The number the message was sent with while it is pending. -/
  ref : Option Ref
  deriving DecidableEq, Repr

structure ChannelView where
  address : String
  /-- The room of a room's channel. -/
  room : Option String
  state : String
  beatArmed : Bool
  retryArmed : Bool
  deriving DecidableEq, Repr

structure ClientView where
  user : UserId
  activeRoom : Option String
  messages : List MessageView
  typing : List UserId
  channels : List ChannelView
  watched : List UserId
  /-- Numbers of notices, newest first. -/
  notices : List UInt64
  deriving DecidableEq, Repr

structure Snapshot where
  clients : List ClientView
  deriving DecidableEq, Repr

def MessageView.ofEntry (e : Entry) : MessageView := ⟨e.id, e.sender, e.body, e.ref?⟩

def ChannelView.ofLink (a : Address) (l : Link) : ChannelView where
  address := a.text
  room := a.room?.map Room.text
  state := l.phase.name
  beatArmed := l.beatArmed
  retryArmed := l.retryArmed

def ClientView.ofClient (c : Client) : ClientView where
  user := c.identity.user
  activeRoom := c.room?.map Room.text
  messages := c.conversation.timeline.map .ofEntry
  typing := c.conversation.typists.users
  channels := c.switchboard.lines.entries.map fun (a, line) => .ofLink a line.link
  watched := c.roster.watched.keys
  notices := c.feed.entries.map Notice.id

def Snapshot.ofClient (c : Client) : Snapshot := ⟨[.ofClient c]⟩

def MessageView.toJson (m : MessageView) : Json :=
  .record [("id", .word m.id), ("sender_id", .nullable .word m.sender), ("body", .text m.body),
    ("client_ref", .nullable .word m.ref)]

def ChannelView.toJson (c : ChannelView) : Json :=
  .record [("address", .text c.address), ("room", .nullable .text c.room),
    ("state", .text c.state), ("heartbeat_armed", .bool c.beatArmed),
    ("reconnect_armed", .bool c.retryArmed)]

def ClientView.toJson (c : ClientView) : Json :=
  .record [("user_id", .word c.user), ("active_room", .nullable .text c.activeRoom),
    ("messages", .array (c.messages.map MessageView.toJson)),
    ("typing", .array (c.typing.map .word)),
    ("channels", .array (c.channels.map ChannelView.toJson)),
    ("watched", .array (c.watched.map .word)), ("notifications", .array (c.notices.map .word))]

def Snapshot.toJson (s : Snapshot) : Json :=
  .record [("clients", .array (s.clients.map ClientView.toJson))]

end LiveChat.Audit
