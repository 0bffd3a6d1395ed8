import LiveChat.Client.Event
import LiveChat.Feed
import LiveChat.Presence.Roster
import LiveChat.Wire.ServerFrame

/-!
# The client of one user

A client holds the global channel from its start to its shutdown, and the channel of the room the
user is in. It hands each event to the part that is concerned and gathers what the parts ask for.
-/

namespace LiveChat

structure Settings where
  link : LinkSettings
  chat : ChatSettings
  idleThreshold : Duration
  deriving DecidableEq, Repr

def Settings.standard : Settings := ⟨.standard, .standard, IdleWatch.standardThreshold⟩

structure Client where
  identity : Identity
  switchboard : Switchboard
  roster : Roster
  conversation : Conversation
  feed : Feed
  started : Bool
  entropy : Entropy

namespace Client

/-- The clocks as they stand when an event is handled. -/
structure Reading where
  now : Instant
  /-- Milliseconds since 1970; absent when they are beyond what a time stamp can hold. -/
  wall : Option Int64
  deriving DecidableEq, Repr

def new (identity : Identity) (settings : Settings) (now : Instant) (entropy : Entropy) :
    Client where
  identity := identity
  switchboard := .new settings.link
  roster := .new identity.user settings.idleThreshold now
  conversation := .new identity settings.chat
  feed := .empty
  started := false
  entropy := entropy

abbrev Step := Except Error (Client × List Action)

def room? (c : Client) : Option Room := c.conversation.room

def readWall (r : Reading) : Except Error Int64 :=
  match r.wall with
  | some wall => .ok wall
  | none => .error (.fault .overflow)

/-! ## Gathering actions -/

def ofLinks (actions : List LinkAction) : List Action := actions.map .ofLink

/-- What an effect of the conversation amounts to; frames go out on the channel of the room. -/
def effectActions (c : Client) : ChatEffect → List Action
  | .transmit f =>
    match c.room? with
    | none => []
    | some room => ofLinks (c.switchboard.send (.room room) f)
  | .fetch r => [.fetchHistory r]
  | .post r => [.postMessage r]
  | .markRead room => [.markRead room]
  | .timelineChanged => [.timelineChanged]
  | .typistsChanged => [.typistsChanged]
  | .scrollToNewest => [.scrollToNewest]
  | .keepPosition => [.keepPosition]

/-- Takes over what the conversation has become, and acts on its effects. -/
def applyChat (c : Client) (step : Conversation × List ChatEffect) : Client × List Action :=
  let c := { c with conversation := step.1 }
  (c, step.2.flatMap c.effectActions)

def sendGlobal (c : Client) (frame : Option ClientFrame) : List Action :=
  match frame with
  | none => []
  | some f => ofLinks (c.switchboard.send .global f)

/-! ## The session -/

def keepGlobal (c : Client) (frame : Option ClientFrame) : Except Error Client :=
  match frame with
  | none => .ok c
  | some f =>
    match c.switchboard.keep .global f with
    | .ok switchboard => .ok { c with switchboard }
    | .error e => .error (.channel e)

def start (c : Client) : Step :=
  if c.started then .ok (c, [])
  else do
    let (switchboard, actions) := c.switchboard.acquire .global
    let c ← { c with started := true, switchboard }.keepGlobal c.roster.subscription
    .ok (c, ofLinks actions)

def releaseRoom (c : Client) (room : Room) : Step :=
  let (c, stopped) := c.applyChat c.conversation.stopTyping
  match c.switchboard.release (.room room) with
  | .ok (switchboard, actions) => .ok ({ c with switchboard }, stopped ++ ofLinks actions)
  | .error e => .error (.channel e)

def leaveRoom (c : Client) : Step :=
  match c.room? with
  | none => .ok (c, [])
  | some room => do
    let (c, released) ← c.releaseRoom room
    let (c, left) := c.applyChat c.conversation.leave
    .ok (c, released ++ left)

def enterRoom (c : Client) (room : Room) : Step :=
  if c.room? = some room then .ok (c, [])
  else do
    let (c, released) ← match c.room? with
      | none => .ok (c, [])
      | some old => c.releaseRoom old
    let (switchboard, opened) := c.switchboard.acquire (.room room)
    let (c, entered) := { c with switchboard }.applyChat (c.conversation.enter room)
    .ok (c, released ++ ofLinks opened ++ entered)

def shutdown (c : Client) : Step := do
  let (c, left) ← c.leaveRoom
  let (switchboard, closed) := c.switchboard.closeAll
  .ok ({ c with switchboard, started := false }, left ++ ofLinks closed)

/-! ## Transports and time -/

def transportOpened (c : Client) (r : Reading) (a : Address) : Client × List Action :=
  let (switchboard, actions) := c.switchboard.opened a r.now
  ({ c with switchboard }, ofLinks actions)

def transportClosed (c : Client) (r : Reading) (a : Address) : Step :=
  match c.switchboard.lost a r.now c.entropy with
  | .ok (switchboard, entropy) => .ok ({ c with switchboard, entropy }, [])
  | .error f => .error (.fault f)

/-- A frame counts on the channel that its kind belongs to: presence and notices on the global one,
messages and typing on that of the room the user is in. -/
def frameReceived (c : Client) (r : Reading) (a : Address) (text : String) :
    Client × List Action :=
  if (c.switchboard.link? a).isNone then (c, [])
  else
    let inRoom := c.room?.map Address.room = some a
    match ServerFrame.decode text with
    | none => (c, [])
    | some (.presence p) =>
      if a = .global then ({ c with roster := c.roster.update p }, [.presenceChanged [p.user]])
      else (c, [])
    | some (.presences batch) =>
      if a = .global then
        let (roster, users) := c.roster.merge batch.entries
        ({ c with roster }, if users.isEmpty then [] else [.presenceChanged users])
      else (c, [])
    | some (.notice n) =>
      if a = .global then
        let (feed, published) := c.feed.take n
        ({ c with feed }, (published.map Action.noticePublished).toList)
      else (c, [])
    | some (.message m) => if inRoom then c.applyChat (c.conversation.received m) else (c, [])
    | some (.typing user nickname) =>
      if inRoom then c.applyChat (c.conversation.otherTyping user nickname r.now) else (c, [])
    | some (.stoppedTyping user) =>
      if inRoom then c.applyChat (c.conversation.otherStopped user) else (c, [])

/-- The channels first, then idleness, then typing. -/
def tick (c : Client) (now : Instant) : Client × List Action :=
  let (switchboard, actions) := c.switchboard.tick now
  let (roster, idle) := c.roster.tick now
  let c := { c with switchboard, roster }
  let (c', typing) := c.applyChat (c.conversation.tick now)
  (c', ofLinks actions ++ c.sendGlobal idle ++ typing)

/-! ## The user -/

/-- A message goes over the channel of the room if that is live. -/
def send (c : Client) (r : Reading) (text : String) : Step := do
  let live := (c.room?.map fun room => c.switchboard.isLive (.room room)).getD false
  let wall ← readWall r
  match c.conversation.send text r.now wall live with
  | .ok step => .ok (c.applyChat step)
  | .error f => .error (.fault f)

def activity (c : Client) (r : Reading) : Client × List Action :=
  let (roster, frame) := c.roster.activity r.now
  ({ c with roster }, c.sendGlobal frame)

/-- The user's own record changes at once, whether or not the frame goes out. -/
def setNote (c : Client) (r : Reading) (note emoji : Option String) : Step := do
  let wall ← readWall r
  let (roster, frame) := c.roster.setNote note emoji wall
  .ok ({ c with roster }, c.sendGlobal (some frame) ++ [.presenceChanged [c.identity.user]])

/-- Asks for the presence of the users that are new, and keeps the whole set to ask for again when
the channel comes back. -/
def watch (c : Client) (users : List UserId) : Step :=
  match c.roster.watch users with
  | (roster, none) => .ok ({ c with roster }, [])
  | (roster, some frame) => do
    let c := { c with roster }
    let c ← if (c.switchboard.link? .global).isSome then c.keepGlobal roster.subscription
      else .ok c
    .ok (c, c.sendGlobal (some frame))

def handle (c : Client) (r : Reading) : Event → Step
  | .start => c.start
  | .shutdown => c.shutdown
  | .transportOpened a => .ok (c.transportOpened r a)
  | .transportClosed a => c.transportClosed r a
  | .frameReceived a text => .ok (c.frameReceived r a text)
  | .tick now => .ok (c.tick now)
  | .enterRoom room => c.enterRoom room
  | .leaveRoom => c.leaveRoom
  | .loadOlder => .ok (c.applyChat c.conversation.loadOlder)
  | .reloadHistory => .ok (c.applyChat c.conversation.loadNewest)
  | .send text => c.send r text
  | .input text => .ok (c.applyChat (c.conversation.input text r.now))
  | .activity => .ok (c.activity r)
  | .setAvailability availability => .ok (c, c.sendGlobal (some (.setAvailability availability)))
  | .setNote note emoji => c.setNote r note emoji
  | .watch users => c.watch users
  | .historyLoaded q result => .ok (c.applyChat (c.conversation.historyLoaded q result))
  | .posted q result => .ok (c.applyChat (c.conversation.posted q result))

end Client

end LiveChat
