import LiveChat.Address
import LiveChat.Wire.Record

/-!
# Requests to the service

Loading a page of a room's history, and posting a message when the room's channel is down. A
request carries the stay in the room and the load that it belongs to, so that an answer that comes
too late can be told.
-/

namespace LiveChat

inductive LoadKind where
  | newest
  | older
  deriving DecidableEq, Repr

def LoadKind.name : LoadKind → String
  | newest => "initial"
  | older => "older"

structure HistoryRequest where
  room : Room
  /-- The stay in the room, counted over all rooms. -/
  stay : Nat
  load : Nat
  kind : LoadKind
  limit : Nat
  /-- How many of the newest messages are left out. -/
  offset : Nat
  deriving DecidableEq, Repr

structure PostRequest where
  room : Room
  stay : Nat
  body : String
  ref : Ref
  deriving DecidableEq, Repr

inductive RequestError where
  | unreachable (detail : String)
  | refused (status : UInt16) (body : String)
  | unreadable (detail : String)
  deriving DecidableEq, Repr

def RequestError.message : RequestError → String
  | unreachable detail => "request failed: " ++ detail
  | refused status body => "server returned " ++ toString status ++ ": " ++ body
  | unreadable detail => "invalid response body: " ++ detail

end LiveChat
