import LiveChat.Audit.Check
import LiveChat.Client.Basic
import LiveChat.Simulation.Clock
import LiveChat.Simulation.Server

/-!
# A session in memory

A client together with a clock, a service and the transports between them. What the client asks
for is done at once, and what follows from it is queued and handled in turn. What follows from an
event leads to nothing further, so a few rounds empty the queue.
-/

namespace LiveChat

namespace Simulation

structure Options where
  autoOpen : Bool
  /-- Store messages that come over a channel, and send them back on it. -/
  echoMessages : Bool
  /-- Send messages back with the number they were sent with. -/
  echoRefs : Bool
  /-- Hold answers to requests back until they are released. -/
  holdAnswers : Bool
  deriving DecidableEq, Repr

def Options.standard : Options := ⟨true, true, true, false⟩

end Simulation

structure Simulation where
  clock : Simulation.Clock
  client : Client
  server : Simulation.Server
  options : Simulation.Options
  transports : Table Address Unit
  /-- Events that the client has still to handle. -/
  queue : List Client.Event
  held : List Client.Event
  sent : List (Address × ClientFrame)
  openRequests : List Address
  closeRequests : List Address
  /-- What the client has told the display, oldest first. -/
  display : List Client.Action
  audited : Bool

namespace Simulation

open Client (Event Action Error)

abbrev Step := Except Error Simulation

def new (identity : Identity) (settings : Settings) (epoch : Int64) (entropy : Entropy)
    (options : Options) (audited : Bool) : Simulation where
  clock := .start epoch
  client := .new identity settings .zero entropy
  server := .new identity.user
  options := options
  transports := .empty
  queue := []
  held := []
  sent := []
  openRequests := []
  closeRequests := []
  display := []
  audited := audited

def isOpen (s : Simulation) (a : Address) : Bool := s.transports.contains a

def snapshot (s : Simulation) : Audit.Snapshot := .ofClient s.client

def reading (s : Simulation) : Client.Reading := ⟨s.clock.now, s.clock.wall⟩

def enqueue (s : Simulation) (e : Event) : Simulation := { s with queue := s.queue ++ [e] }

def liftFault (x : Except Fault α) : Except Error α :=
  match x with
  | .ok a => .ok a
  | .error f => .error (.fault f)

/-! ## What follows from an action -/

/-- Answers a request, at once or when answers are released. -/
def answer (s : Simulation) (e : Event) : Simulation :=
  if s.options.holdAnswers then { s with held := s.held ++ [e] } else s.enqueue e

/-- Stores a message that came over the channel of a room, and sends it back. -/
def echo (s : Simulation) (room : Room) (body : String) (ref : Option Ref) : Step :=
  if !s.options.echoMessages then .ok s
  else do
    let (server, m) ← liftFault (s.server.post room s.client.identity.user body ref)
    let m := if s.options.echoRefs then m else { m with ref := none }
    .ok ({ s with server }.enqueue (.frameReceived (.room room) (ServerFrame.message m).encode))

def transmit (s : Simulation) (a : Address) (text : String) : Step := do
  match ClientFrame.decode text with
  | none => .error (.frame (.malformed text))
  | some f =>
    let s ← match f, a with
      | .post body ref, .room room => s.echo room body ref
      | _, _ => .ok s
    .ok { s with sent := s.sent ++ [(a, f)] }

def execute (s : Simulation) : Action → Step
  | .openTransport a =>
    let s := { s with openRequests := s.openRequests ++ [a] }
    .ok (if s.options.autoOpen then
        { s with transports := s.transports.insert a () }.enqueue (.transportOpened a)
      else s)
  | .closeTransport a =>
    .ok { s with closeRequests := s.closeRequests ++ [a], transports := s.transports.erase a }
  | .sendFrame a text => s.transmit a text
  | .fetchHistory r =>
    let (server, result) := s.server.requestHistory r.room r.limit r.offset
    .ok ({ s with server }.answer (.historyLoaded r result))
  | .postMessage r => do
    let (server, result) ← liftFault (s.server.requestPost r.room r.body r.ref)
    .ok ({ s with server }.answer (.posted r result))
  | .markRead room => .ok { s with server := s.server.markRead room }
  | shown => .ok { s with display := s.display ++ [shown] }

def audit (s : Simulation) (context : String) : Step :=
  if !s.audited then .ok s
  else match Audit.report? s.snapshot context with
    | none => .ok s
    | some report => .error (.fault (.violation report))

def process (s : Simulation) (e : Event) : Step := do
  let (client, actions) ← s.client.handle s.reading e
  let s ← actions.foldlM execute { s with client }
  s.audit "after an event"

/-- Handles what is queued, then what was queued by that, and so on for some rounds. -/
def drain : Nat → Simulation → Step
  | 0, s => .ok s
  | rounds + 1, s => do drain rounds (← s.queue.foldlM process { s with queue := [] })

def maxRounds : Nat := 3

def settle (s : Simulation) : Step := s.drain maxRounds

/-! ## Driving a session -/

def dispatch (s : Simulation) (e : Event) : Step := (s.enqueue e).settle

def advance (s : Simulation) (span : Duration) : Step := do
  let s := { s with clock := ← liftFault (s.clock.advance span) }
  s.dispatch (.tick s.clock.now)

def runFor (s : Simulation) (whole step : Duration) : Step :=
  (whole.pieces step).foldlM advance s

/-- Opens a transport, whether or not the client asked for it. -/
def openTransport (s : Simulation) (a : Address) : Step :=
  { s with transports := s.transports.insert a () }.dispatch (.transportOpened a)

def drop (s : Simulation) (a : Address) : Step :=
  { s with transports := s.transports.erase a }.dispatch (.transportClosed a)

def deliver (s : Simulation) (a : Address) (f : ServerFrame) : Step :=
  s.dispatch (.frameReceived a f.encode)

def release (s : Simulation) : Step := { s with held := [], queue := s.queue ++ s.held }.settle

def releaseReversed (s : Simulation) : Step :=
  { s with held := [], queue := s.queue ++ s.held.reverse }.settle

def takeSent (s : Simulation) (a : Address) : Simulation × List ClientFrame :=
  ({ s with sent := s.sent.filter (·.1 ≠ a) }, (s.sent.filter (·.1 = a)).map (·.2))

def takeAllSent (s : Simulation) : Simulation × List (Address × ClientFrame) :=
  ({ s with sent := [] }, s.sent)

def takeDisplay (s : Simulation) : Simulation × List Action :=
  ({ s with display := [] }, s.display)

end Simulation

end LiveChat
