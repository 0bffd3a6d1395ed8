import LiveChat.Chat.Request
import LiveChat.Chat.Timeline
import LiveChat.Chat.Typists
import LiveChat.Chat.TypingSignal
import LiveChat.Fault

/-!
# The conversation in the active room

The timeline of the room the user is in, what is loaded of its history, who types, and the user's
own sending. A message that the user sends is shown at once and settled later: confirmed in its
place, or taken back when it could not be posted. Answers of an earlier stay, or to a load that a
later one has overtaken, are dropped.
-/

namespace LiveChat

structure Identity where
  user : UserId
  nickname : String
  deriving DecidableEq, Repr

structure ChatSettings where
  pageSize : Nat
  sendCooldown : Duration
  /-- How long a burst of typing lasts without input. -/
  typingTimeout : Duration
  /-- How long another user is shown as typing without a refresh. -/
  typistTtl : Duration
  deriving DecidableEq, Repr

def ChatSettings.standard : ChatSettings :=
  ⟨30, .ofMillis 1000, .ofSeconds 5, .ofSeconds 60⟩

inductive ChatEffect where
  | transmit (f : ClientFrame)
  | fetch (r : HistoryRequest)
  | post (r : PostRequest)
  | markRead (room : Room)
  | timelineChanged
  | typistsChanged
  | scrollToNewest
  /-- Keep the reading position although entries came in above it. -/
  | keepPosition
  deriving DecidableEq, Repr

structure Conversation where
  identity : Identity
  settings : ChatSettings
  room : Option Room
  /-- How many stays there have been. -/
  stay : Nat
  load : Nat
  timeline : Timeline
  total : Option UInt64
  hasOlder : Bool
  loading : Option LoadKind
  lastSend : Option Instant
  lastRef : Ref
  typists : Typists
  signal : TypingSignal
  deriving DecidableEq, Repr

namespace Conversation

def new (identity : Identity) (settings : ChatSettings) : Conversation where
  identity := identity
  settings := settings
  room := none
  stay := 0
  load := 0
  timeline := []
  total := none
  hasOlder := false
  loading := none
  lastSend := none
  lastRef := 0
  typists := .empty
  signal := .silent

def isTyping (c : Conversation) : Bool := c.signal.isTyping

/-- Ends the stay: nothing that belongs to a room is left. -/
def reset (c : Conversation) : Conversation :=
  { c with
    stay := c.stay + 1
    timeline := []
    total := none
    hasOlder := false
    loading := none
    lastSend := none
    typists := .empty
    signal := .silent }

def isCurrent (c : Conversation) (room : Room) (stay : Nat) : Bool :=
  c.room = some room && c.stay = stay

/-! ## Rooms and history -/

def beginLoad (c : Conversation) (room : Room) (kind : LoadKind) :
    Conversation × List ChatEffect :=
  let offset := match kind with
    | .newest => 0
    | .older => c.timeline.confirmedCount
  let request := ⟨room, c.stay, c.load + 1, kind, c.settings.pageSize, offset⟩
  ({ c with loading := some kind, load := c.load + 1 }, [.fetch request])

def enter (c : Conversation) (room : Room) : Conversation × List ChatEffect :=
  let (c, effects) := { c.reset with room := some room }.beginLoad room .newest
  (c, .timelineChanged :: effects)

def leave (c : Conversation) : Conversation × List ChatEffect :=
  match c.room with
  | none => (c, [])
  | some _ => ({ c.reset with room := none }, [.timelineChanged, .typistsChanged])

/-- Loads the newest page again, overtaking a load of an older one. -/
def loadNewest (c : Conversation) : Conversation × List ChatEffect :=
  match c.room with
  | none => (c, [])
  | some room => if c.loading = some .newest then (c, []) else c.beginLoad room .newest

def loadOlder (c : Conversation) : Conversation × List ChatEffect :=
  match c.room with
  | none => (c, [])
  | some room =>
    if c.loading.isSome || !c.hasOlder then (c, []) else c.beginLoad room .older

def applyPage (c : Conversation) (r : HistoryRequest) (page : Page) :
    Conversation × List ChatEffect :=
  let (timeline, effects) := match r.kind with
    | .newest =>
      (c.timeline.reload r.room.number page.messages,
        [ChatEffect.timelineChanged, .scrollToNewest])
    | .older =>
      let older := c.timeline.missing r.room.number page.messages
      (older ++ c.timeline,
        if older.isEmpty then [.timelineChanged] else [.timelineChanged, .keepPosition])
  ({ c with
    timeline
    total := some page.total
    hasOlder := c.settings.pageSize ≤ page.messages.length &&
      timeline.confirmedCount < page.total.toNat }, effects)

/-- Takes the answer to a load, if it is the latest of this stay and still awaited. -/
def historyLoaded (c : Conversation) (r : HistoryRequest) (result : Except RequestError Page) :
    Conversation × List ChatEffect :=
  if !c.isCurrent r.room r.stay then (c, [])
  else if r.load ≠ c.load ∨ c.loading ≠ some r.kind then (c, [])
  else match result with
    | .error _ => ({ c with loading := none }, [])
    | .ok page => { c with loading := none }.applyPage r page

/-! ## Messages -/

/-- A number for the next message: the wall clock's, or one more than the last. -/
def nextRef (last : Ref) (wall : Int64) : Except Fault Ref :=
  match Text.word? (max wall.toInt.toNat (last.toNat + 1)) with
  | some ref => .ok ref
  | none => .error .overflow

def maySend (c : Conversation) (text : String) (now : Instant) : Bool :=
  !Text.allBlank text.toList &&
    match c.lastSend with
    | none => true
    | some last => c.settings.sendCooldown ≤ now - last

def pendingEntry (c : Conversation) (room : Room) (text : String) (wall : Int64) (ref : Ref) :
    Entry where
  id := ref
  room := room.number
  sender := some c.identity.user
  body := text
  kind := .text
  createdAt := wall
  author := some ⟨c.identity.nickname, none⟩
  origin := .pending ref

/-- Sends a message over the channel if it is live and by a request if not. A blank message, and one
that comes too soon after another, is dropped. -/
def send (c : Conversation) (text : String) (now : Instant) (wall : Int64) (live : Bool) :
    Except Fault (Conversation × List ChatEffect) :=
  match c.room with
  | none => .ok (c, [])
  | some room =>
    if !c.maySend text now then .ok (c, [])
    else do
      let ref ← nextRef c.lastRef wall
      let (signal, stop) := c.signal.stop
      let transmission := if live then .transmit (.post text (some ref))
        else .post ⟨room, c.stay, text, ref⟩
      .ok ({ c with
          lastSend := some now
          lastRef := ref
          signal
          timeline := c.timeline ++ [c.pendingEntry room text wall ref] },
        (stop.map ChatEffect.transmit).toList ++
          [.timelineChanged, .scrollToNewest, transmission])

def retract (c : Conversation) (place : Option Nat) : Conversation × List ChatEffect :=
  match place with
  | none => (c, [])
  | some i => ({ c with timeline := c.timeline.eraseIdx i }, [.timelineChanged])

/-- Puts a message of the local user in the place of the pending entry that it confirms: the one
sent with its number, or if it carries none the newest of the same body. -/
def settle (c : Conversation) (m : Message) : Conversation × List ChatEffect :=
  match c.room with
  | none => (c, [])
  | some room =>
    let byRef := m.ref.bind c.timeline.placeOfRef?
    if c.timeline.holdsConfirmed m.id then c.retract byRef
    else
      let place := if m.ref.isSome then byRef
        else c.timeline.placeOfBody? c.identity.user m.body
      let entry := Entry.ofMessage room.number m
      match place with
      | some i => ({ c with timeline := c.timeline.set i entry }, [.timelineChanged])
      | none =>
        ({ c with timeline := c.timeline ++ [entry] }, [.timelineChanged, .scrollToNewest])

def posted (c : Conversation) (r : PostRequest) (result : Except RequestError Message) :
    Conversation × List ChatEffect :=
  if !c.isCurrent r.room r.stay then (c, [])
  else match result with
    | .ok m => c.settle { m with
        ref := m.ref.or (some r.ref)
        sender := m.sender.or (some c.identity.user) }
    | .error _ => c.retract (c.timeline.placeOfRef? r.ref)

def received (c : Conversation) (m : Message) : Conversation × List ChatEffect :=
  match c.room with
  | none => (c, [])
  | some room =>
    if m.sender = some c.identity.user then c.settle m
    else if c.timeline.holds m.id then (c, [])
    else ({ c with timeline := c.timeline ++ [Entry.ofMessage room.number m] },
      [.timelineChanged, .scrollToNewest, .markRead room])

/-! ## Typing -/

def typistsEffect (changed : Bool) : List ChatEffect := if changed then [.typistsChanged] else []

def otherTyping (c : Conversation) (user : UserId) (nickname : String) (now : Instant) :
    Conversation × List ChatEffect :=
  if user = c.identity.user then (c, [])
  else
    let (typists, changed) := c.typists.insert user nickname now
    ({ c with typists }, typistsEffect changed)

def otherStopped (c : Conversation) (user : UserId) : Conversation × List ChatEffect :=
  let (typists, changed) := c.typists.remove user
  ({ c with typists }, typistsEffect changed)

def input (c : Conversation) (text : String) (now : Instant) : Conversation × List ChatEffect :=
  match c.room with
  | none => (c, [])
  | some _ =>
    let (signal, frame) := c.signal.input text now
    ({ c with signal }, (frame.map ChatEffect.transmit).toList)

def stopTyping (c : Conversation) : Conversation × List ChatEffect :=
  let (signal, frame) := c.signal.stop
  ({ c with signal }, (frame.map ChatEffect.transmit).toList)

def tick (c : Conversation) (now : Instant) : Conversation × List ChatEffect :=
  let (signal, frame) := c.signal.tick now c.settings.typingTimeout
  let (typists, changed) := c.typists.expire now c.settings.typistTtl
  ({ c with signal, typists }, (frame.map ChatEffect.transmit).toList ++ typistsEffect changed)

end Conversation

end LiveChat
