import LiveChat.Address
import LiveChat.Channel.Retry
import LiveChat.Table
import LiveChat.Wire.ClientFrame

/-!
# One channel's link

A link is down, waits to be opened again, is being opened, or is live. Only a live link has a
heartbeat running and only a waiting one a retry, since each timer is part of its phase. A link
that its owner closed is down and stays so until the owner starts it.
-/

namespace LiveChat

/-- What a link asks of the transport that carries it. -/
inductive LinkAction where
  | opening (a : Address)
  | closing (a : Address)
  | sending (a : Address) (f : ClientFrame)
  deriving DecidableEq, Repr

structure LinkSettings where
  heartbeatEvery : Duration
  retry : Retry
  deriving DecidableEq, Repr

def LinkSettings.standard : LinkSettings := ⟨.ofSeconds 30, .standard⟩

namespace Link

inductive Phase where
  | down
  | waiting (since : Instant) (delay : Duration)
  | opening
  | live (beatAt : Instant)
  deriving DecidableEq, Repr

def Phase.name : Phase → String
  | down | waiting _ _ => "Disconnected"
  | opening => "Connecting"
  | live _ => "Connected"

def maxFailures : Nat := UInt32.size - 1

end Link

structure Link where
  address : Address
  settings : LinkSettings
  phase : Link.Phase
  /-- How often in a row the link was lost without having been live. -/
  failures : Nat
  /-- Frames sent each time the link comes alive, one of a kind. -/
  standing : Table String ClientFrame
  deriving DecidableEq, Repr

namespace Link

def new (a : Address) (settings : LinkSettings) : Link := ⟨a, settings, .down, 0, .empty⟩

def isLive (l : Link) : Bool :=
  match l.phase with
  | .live _ => true
  | _ => false

def beatArmed (l : Link) : Bool := l.isLive

def retryDelay? (l : Link) : Option Duration :=
  match l.phase with
  | .waiting _ delay => some delay
  | _ => none

def retryArmed (l : Link) : Bool := l.retryDelay?.isSome

/-- Keeps a frame to be sent each time the link comes alive, in place of one of its kind. -/
def keep (l : Link) (f : ClientFrame) : Link := { l with standing := l.standing.insert f.kind f }

def start (l : Link) : Link × List LinkAction :=
  match l.phase with
  | .down | .waiting _ _ => ({ l with phase := .opening }, [.opening l.address])
  | .opening | .live _ => (l, [])

/-- The transport is open; this counts only while the link is being opened. -/
def opened (l : Link) (now : Instant) : Link × List LinkAction :=
  match l.phase with
  | .opening =>
    ({ l with phase := .live now, failures := 0 }, l.standing.values.map (.sending l.address))
  | _ => (l, [])

def lost (l : Link) (now : Instant) (e : Entropy) : Except Fault (Link × Entropy) :=
  match l.phase with
  | .down | .waiting _ _ => .ok (l, e)
  | .opening | .live _ =>
    let failures := min (l.failures + 1) maxFailures
    match l.settings.retry.delay failures e with
    | (.ok delay, e) => .ok ({ l with phase := .waiting now delay, failures }, e)
    | (.error fault, _) => .error fault

/-- A frame sent while the link is not live is dropped. -/
def send (l : Link) (f : ClientFrame) : List LinkAction :=
  if l.isLive then [.sending l.address f] else []

def close (l : Link) : Link × List LinkAction :=
  match l.phase with
  | .down | .waiting _ _ => ({ l with phase := .down }, [])
  | .opening | .live _ => ({ l with phase := .down }, [.closing l.address])

/-- Sends a heartbeat or opens the link again when the time for it has come. Logging is left out, and
with it the number of the attempt, `failures + 1`, that is worked out for the log line. -/
def tick (l : Link) (now : Instant) : Link × List LinkAction :=
  match l.phase with
  | .live beatAt =>
    if l.settings.heartbeatEvery ≤ now - beatAt then
      ({ l with phase := .live now }, [.sending l.address .heartbeat])
    else (l, [])
  | .waiting since delay =>
    if delay ≤ now - since then ({ l with phase := .opening }, [.opening l.address])
    else (l, [])
  | .down | .opening => (l, [])

end Link

end LiveChat
