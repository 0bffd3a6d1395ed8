import LiveChat.Channel.Switchboard
import LiveChat.Chat.Conversation

/-!
# What a client hears and what it asks for

Events come from the transports, the clock, the user and the answers to requests. Actions go to
the transports, the service and the display.
-/

namespace LiveChat.Client

inductive Event where
  | start
  | shutdown
  | transportOpened (a : Address)
  /-- The transport is gone or could not be opened. -/
  | transportClosed (a : Address)
  | frameReceived (a : Address) (text : String)
  | tick (now : Instant)
  | enterRoom (room : Room)
  | leaveRoom
  | loadOlder
  | reloadHistory
  | send (text : String)
  | input (text : String)
  /-- The user has moved a pointer or pressed a key. -/
  | activity
  | setAvailability (availability : Availability)
  | setNote (note emoji : Option String)
  | watch (users : List UserId)
  | historyLoaded (r : HistoryRequest) (result : Except RequestError Page)
  | posted (r : PostRequest) (result : Except RequestError Message)

inductive Action where
  | openTransport (a : Address)
  | closeTransport (a : Address)
  | sendFrame (a : Address) (text : String)
  | fetchHistory (r : HistoryRequest)
  | postMessage (r : PostRequest)
  | markRead (room : Room)
  | timelineChanged
  | typistsChanged
  | presenceChanged (users : List UserId)
  | noticePublished (n : Notice)
  | scrollToNewest
  | keepPosition
  deriving DecidableEq

def Action.ofLink : LinkAction → Action
  | .opening a => openTransport a
  | .closing a => closeTransport a
  | .sending a f => sendFrame a f.encode

inductive Error where
  | channel (e : Switchboard.Error)
  | frame (e : FrameError)
  | fault (f : Fault)
  deriving DecidableEq, Repr

def Error.message : Error → String
  | channel e => e.message
  | frame e => e.message
  | fault f => f.message

end LiveChat.Client
