import LiveChat.Audit.Snapshot
import LiveChat.Text.Quoted

/-!
# Checks

What holds of every client at every moment: messages and pending numbers are listed once, timers
exclude each other, the only room channel is that of the active room, and nobody is shown to
themselves as typing. A check looks at all clients and reports the first offence that it finds.
-/

namespace LiveChat.Audit

inductive Check where
  | distinctMessages
  | distinctRefs
  | exclusiveTimers
  | singleRoomChannel
  | typingExcludesSelf
  deriving DecidableEq, Repr

namespace Check

def all : List Check :=
  [distinctMessages, distinctRefs, exclusiveTimers, singleRoomChannel, typingExcludesSelf]

def name : Check → String
  | distinctMessages => "no_duplicate_messages"
  | distinctRefs => "single_optimistic_per_ref"
  | exclusiveTimers => "exclusive_timers"
  | singleRoomChannel => "single_room_channel"
  | typingExcludesSelf => "typing_excludes_self"

end Check

def firstRepeat? [BEq α] (seen : List α) : List α → Option α
  | [] => none
  | a :: rest => if seen.contains a then some a else firstRepeat? (a :: seen) rest

def ClientView.confirmedIds (c : ClientView) : List MessageId :=
  (c.messages.filter (·.ref.isNone)).map MessageView.id

def ClientView.pendingRefs (c : ClientView) : List Ref := c.messages.filterMap MessageView.ref

def ClientView.rooms (c : ClientView) : List String := c.channels.filterMap ChannelView.room

def ChannelView.timerFault? (c : ChannelView) : Option String :=
  if c.beatArmed && c.retryArmed then some "heartbeat and reconnect both armed"
  else if c.beatArmed && c.state ≠ "Connected" then some ("heartbeat armed while " ++ c.state)
  else none

/-- What is wrong with the room channels: there may be none, or that of the active room. -/
def ClientView.roomFault? (c : ClientView) : Option String :=
  let report := "room channels " ++ Text.quoteList c.rooms ++ " with active room " ++
    Text.quoteOption c.activeRoom
  match c.rooms with
  | [] => none
  | [room] => if c.activeRoom = some room then none else some report
  | _ => some report

def Check.offence? (c : ClientView) : Check → Option String
  | distinctMessages =>
    (firstRepeat? [] c.confirmedIds).map fun id =>
      ": message " ++ toString id ++ " listed twice"
  | distinctRefs =>
    (firstRepeat? [] c.pendingRefs).map fun ref =>
      ": client_ref " ++ toString ref ++ " pending twice"
  | exclusiveTimers =>
    c.channels.findSome? fun channel =>
      channel.timerFault?.map fun fault => " channel " ++ channel.address ++ ": " ++ fault
  | singleRoomChannel => c.roomFault?.map (": " ++ ·)
  | typingExcludesSelf =>
    if c.typing.contains c.user then some ": shown as typing to themselves" else none

/-- The first offence against a check, with the client it was found at. -/
def Check.run (check : Check) (s : Snapshot) : Option String :=
  s.clients.findSome? fun c =>
    (check.offence? c).map fun offence => "client " ++ toString c.user ++ offence

structure Violation where
  check : Check
  message : String
  deriving DecidableEq, Repr

def Violation.text (v : Violation) : String := v.check.name ++ ": " ++ v.message

/-- One violation for each check that fails, in the order of the checks. -/
def violations (s : Snapshot) : List Violation :=
  Check.all.filterMap fun check => (check.run s).map (⟨check, ·⟩)

/-- The report of all violations, if there is one. -/
def report? (s : Snapshot) (context : String) : Option String :=
  match violations s with
  | [] => none
  | vs => some ("invariant violated " ++ context ++ ":\n  " ++
      "\n  ".intercalate (vs.map Violation.text))

end LiveChat.Audit
