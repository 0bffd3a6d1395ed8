import LiveChat.Proofs.Chat.Sound
import LiveChat.Proofs.Client.Actions
import LiveChat.Proofs.Client.Frame
import LiveChat.Proofs.Client.Handlers

/-!
# Sound clients

A sound client holds the global channel once while it is started, the channel of the active room
once, and no other. Every event keeps a client sound, and is either handled or fails because a
number, a wait or the wall clock is out of range.
-/

namespace LiveChat

namespace Roster

theorem watch_isPost {r : Roster} {users : List UserId} {f : ClientFrame}
    (h : (r.watch users).2 = some f) : f.isPost = false := by
  unfold watch at h
  split at h
  · cases h
  · cases h
    rfl

theorem tick_isPost {r : Roster} {now : Instant} {f : ClientFrame}
    (h : (r.tick now).2 = some f) : f.isPost = false := by
  obtain ⟨availability, -, rfl⟩ := Option.map_eq_some_iff.1 h
  rfl

theorem activity_isPost {r : Roster} {now : Instant} {f : ClientFrame}
    (h : (r.activity now).2 = some f) : f.isPost = false := by
  obtain ⟨availability, -, rfl⟩ := Option.map_eq_some_iff.1 h
  rfl

end Roster

theorem Roster.subscription_isWatch {r : Roster} {f : ClientFrame}
    (h : r.subscription = some f) : f.isWatch = true := by
  unfold subscription at h
  split at h
  · cases h
  · cases h
    rfl

namespace Client

variable {identity : Identity} {settings : LinkSettings} {room : Option Room} {c c' : Client}
  {r : Reading} {actions : List Action}

/-- A sound client but for its room: it holds the channel of the room that is given. -/
structure SoundIn (identity : Identity) (settings : LinkSettings) (room : Option Room)
    (c : Client) : Prop where
  self : c.identity = identity
  owner : c.conversation.identity = identity
  settings : c.switchboard.settings = settings
  conversation : c.conversation.Sound
  switchboard : c.switchboard.Sound
  global : c.switchboard.holders .global = if c.started then 1 else 0
  rooms : ∀ r, c.switchboard.holders (.room r) = if room = some r then 1 else 0

abbrev Sound (identity : Identity) (settings : LinkSettings) (c : Client) : Prop :=
  c.SoundIn identity settings c.room?

theorem sound_new (identity : Identity) (settings : Settings) (now : Instant) (entropy : Entropy) :
    (new identity settings now entropy).Sound identity settings.link :=
  ⟨rfl, rfl, rfl, Conversation.sound_new _ _, Switchboard.sound_new _, rfl, fun _ => rfl⟩

/-! ## The operations that an event amounts to -/

/-- A frame amounts to something if it came on the channel of the active room. -/
def frameOperations (c : Client) (r : Reading) (a : Address) (text : String) :
    List Conversation.Operation :=
  if (c.switchboard.link? a).isNone ∨ c.room?.map Address.room ≠ some a then []
  else match ServerFrame.decode text with
    | some (.message m) => [.received m]
    | some (.typing user nickname) => [.otherTyping user nickname r.now]
    | some (.stoppedTyping user) => [.otherStopped user]
    | _ => []

/-- The operations of letting go of the active room. -/
def leaveOperations (c : Client) : List Conversation.Operation :=
  if c.room?.isNone then [] else [.stopTyping, .leave]

/-- The operations of going over to a room. -/
def enterOperations (c : Client) (room : Room) : List Conversation.Operation :=
  if c.room? = some room then []
  else if c.room?.isNone then [.enter room]
  else [.stopTyping, .enter room]

def operations (c : Client) (r : Reading) : Event → List Conversation.Operation
  | .shutdown | .leaveRoom => c.leaveOperations
  | .enterRoom room => c.enterOperations room
  | .frameReceived a text => c.frameOperations r a text
  | .tick now => [.tick now]
  | .loadOlder => [.loadOlder]
  | .reloadHistory => [.loadNewest]
  | .send text => r.wall.toList.map fun wall => .send text r.now wall c.isRoomLive
  | .input text => [.input text r.now]
  | .historyLoaded q result => [.historyLoaded q result]
  | .posted q result => [.posted q result]
  | _ => []

/-- Why an event cannot be handled: a number, a wait or the wall clock is out of range. -/
inductive Overflows (c : Client) (r : Reading) : Event → Prop
  | clock {e : Event} (h : r.wall = none) : Overflows c r e
  | wait {a : Address} (h : ¬ c.switchboard.settings.retry.NeverOverflows) :
      Overflows c r (.transportClosed a)
  | number {text : String} (h : UInt64.size ≤ c.conversation.lastRef.toNat + 1) :
      Overflows c r (.send text)

/-! ## Parts of a client -/

theorem SoundIn.applyChat (h : c.SoundIn identity settings room) (op : Conversation.Operation)
    {step : Conversation × List ChatEffect} (perform : c.conversation.perform op = .ok step) :
    (c.applyChat step).1.SoundIn identity settings room where
  self := h.self
  owner := (Conversation.perform_typistStep perform).1.trans h.owner
  settings := h.settings
  conversation := h.conversation.perform perform
  switchboard := h.switchboard
  global := h.global
  rooms := h.rooms

/-- An operation that does not switch leaves the room as it is. -/
theorem Sound.applyChat (h : c.Sound identity settings) (op : Conversation.Operation)
    {step : Conversation × List ChatEffect} (perform : c.conversation.perform op = .ok step)
    (stays : op.switches = false) : (c.applyChat step).1.Sound identity settings := by
  obtain ⟨after, effects⟩ := step
  have hroom : (c.applyChat (after, effects)).1.room? = c.room? :=
    (Conversation.perform_stays perform stays).1
  rw [Sound, hroom]
  exact SoundIn.applyChat h op perform

/-- The roster, the feed and the random words are of no concern. -/
theorem SoundIn.same (h : c.SoundIn identity settings room) (roster : Roster) (feed : Feed)
    (entropy : Entropy) : { c with roster, feed, entropy }.SoundIn identity settings room :=
  ⟨h.self, h.owner, h.settings, h.conversation, h.switchboard, h.global, h.rooms⟩

theorem SoundIn.links (h : c.SoundIn identity settings room) {b : Switchboard} (sound : b.Sound)
    (same : c.switchboard.SameHolders b) :
    { c with switchboard := b }.SoundIn identity settings room where
  self := h.self
  owner := h.owner
  settings := same.settings.trans h.settings
  conversation := h.conversation
  switchboard := sound
  global := (same.holders .global).trans h.global
  rooms := fun r => (same.holders (.room r)).trans (h.rooms r)

/-- Keeping a subscription on the global channel, while that is held. -/
theorem SoundIn.keepGlobal (h : c.SoundIn identity settings room) (started : c.started = true) :
    ∃ b, c.keepGlobal c.roster.subscription = .ok { c with switchboard := b } ∧
      { c with switchboard := b }.SoundIn identity settings room := by
  unfold Client.keepGlobal
  cases hframe : c.roster.subscription with
  | none => exact ⟨c.switchboard, rfl, h⟩
  | some f =>
      have hheld : 0 < c.switchboard.holders .global := by
        rw [h.global, started]
        exact Nat.one_pos
      obtain ⟨b, hkeep, hsound, hsame⟩ :=
        h.switchboard.keep hheld (Roster.subscription_isWatch hframe)
      refine ⟨b, ?_, h.links hsound hsame⟩
      dsimp only
      rw [hkeep]

theorem SoundIn.releaseRoom {room : Room} (h : c.SoundIn identity settings (some room)) :
    ∃ b actions, c.releaseRoom room =
        .ok ({ c with conversation := c.conversation.stopTyping.1, switchboard := b }, actions) ∧
      { c with conversation := c.conversation.stopTyping.1,
               switchboard := b }.SoundIn identity settings none ∧
      ∀ x ∈ actions, x.Modest true := by
  have hstopped := h.applyChat .stopTyping rfl
  have hheld : 0 < c.switchboard.holders (.room room) := by
    rw [h.rooms, if_pos rfl]
    exact Nat.one_pos
  obtain ⟨b, closing, hrelease, hsound, hsettings, hholders⟩ := h.switchboard.release hheld
  refine ⟨b, _, releaseRoom_of_release hrelease, ⟨h.self, hstopped.owner,
    hsettings.trans h.settings, hstopped.conversation, hsound, ?_, fun r => ?_⟩, ?_⟩
  · show b.holders .global = _
    rw [hholders, if_neg nofun]
    exact h.global
  · show b.holders (.room r) = _
    rw [hholders, h.rooms, h.rooms, if_pos rfl]
    by_cases hr : r = room
    · simp [hr]
    · rw [if_neg (fun e => hr (Address.room.inj e)), if_neg (fun e => hr (Option.some.inj e).symm)]
      rfl
  · intro x hx
    rcases List.mem_append.1 hx with hx | hx
    · exact (applyChat_modest .stopTyping rfl rfl x hx).mono
    · exact ofLinks_modest (Switchboard.release_asks hrelease fun _ => trivial) x hx

/-- Letting go of the active room leaves a client that holds the channel of none. -/
theorem SoundIn.released {room : Room} (h : c.SoundIn identity settings (some room))
    (ok : c.releaseRoom room = .ok (c', actions)) : c'.SoundIn identity settings none := by
  obtain ⟨b, released, hrelease, hsound, -⟩ := h.releaseRoom
  rw [hrelease] at ok
  cases ok
  exact hsound

theorem SoundIn.acquireRoom (h : c.SoundIn identity settings none) (room : Room) :
    { c with switchboard := (c.switchboard.acquire (.room room)).1 }.SoundIn identity settings
      (some room) := by
  refine ⟨h.self, h.owner, Switchboard.acquire_settings.trans h.settings, h.conversation,
    h.switchboard.acquire, ?_, fun r => ?_⟩
  · show (c.switchboard.acquire (.room room)).1.holders .global = _
    rw [Switchboard.holders_acquire, if_neg nofun]
    exact h.global
  · show (c.switchboard.acquire (.room room)).1.holders (.room r) = _
    rw [Switchboard.holders_acquire, h.rooms, h.rooms]
    by_cases hr : r = room
    · simp [hr]
    · rw [if_neg (fun e => hr (Address.room.inj e)),
        if_neg (fun e => hr (Option.some.inj e).symm)]
      rfl

theorem SoundIn.join (h : c.SoundIn identity settings none) (released : List Action) (room : Room) :
    (c.join released room).1.Sound identity settings :=
  (h.acquireRoom room).applyChat (.enter room) rfl

theorem join_modest {released : List Action} (h : ∀ x ∈ released, x.Modest true) (room : Room) :
    ∀ x ∈ (c.join released room).2, x.Modest true := by
  intro x hx
  rcases List.mem_append.1 hx with hx | hx
  · rcases List.mem_append.1 hx with hx | hx
    · exact h x hx
    · exact ofLinks_modest (Switchboard.acquire_asks rfl) x hx
  · exact applyChat_modest (.enter room) rfl rfl x hx

/-! ## The session -/

theorem Sound.start (h : c.Sound identity settings) :
    ∃ c' actions, c.start = .ok (c', actions) ∧ c'.Sound identity settings ∧
      c'.conversation = c.conversation ∧ ∀ x ∈ actions, x.Modest true := by
  cases hstarted : c.started with
  | true => exact ⟨c, [], by simp [Client.start, hstarted], h, rfl, by simp⟩
  | false =>
      have hacquired : { c with
          started := true, switchboard := (c.switchboard.acquire .global).1 }.Sound identity
            settings := by
        refine ⟨h.self, h.owner, Switchboard.acquire_settings.trans h.settings, h.conversation,
          h.switchboard.acquire, ?_, fun r => ?_⟩
        · show (c.switchboard.acquire .global).1.holders .global = 1
          rw [Switchboard.holders_acquire, if_pos rfl, h.global, hstarted]
          rfl
        · show (c.switchboard.acquire .global).1.holders (.room r) = _
          rw [Switchboard.holders_acquire, if_neg nofun]
          exact h.rooms r
      obtain ⟨b, hkeep, hsound⟩ := SoundIn.keepGlobal hacquired rfl
      exact ⟨_, _, start_of_keep hkeep hstarted, hsound, rfl,
        ofLinks_modest (Switchboard.acquire_asks rfl)⟩

theorem Sound.leaveRoom (h : c.Sound identity settings) :
    ∃ c' actions, c.leaveRoom = .ok (c', actions) ∧ c'.Sound identity settings ∧
      c.conversation.Performs c.leaveOperations c'.conversation ∧ c'.room? = none ∧
      ∀ x ∈ actions, x.Modest true := by
  unfold leaveOperations
  cases hroom : c.room? with
  | none => exact ⟨c, [], by simp [Client.leaveRoom, hroom], h, .nil _, hroom, by simp⟩
  | some room =>
      rw [Sound, hroom] at h
      obtain ⟨b, actions, hrelease, hsound, hmodest⟩ := h.releaseRoom
      have hgone : c.conversation.stopTyping.1.leave.1.room = none := by
        have hconv : c.conversation.room = some room := hroom
        simp [Conversation.leave, Conversation.stopTyping, hconv]
      have hleft := hsound.applyChat .leave rfl
      refine ⟨_, _, leaveRoom_of_release hroom hrelease, ?_, ?_, hgone, fun x hx => ?_⟩
      · rw [Sound, room?]
        show SoundIn identity settings c.conversation.stopTyping.1.leave.1.room _
        rw [hgone]
        exact hleft
      · exact .cons .stopTyping rfl (.one .leave rfl)
      · rcases List.mem_append.1 hx with hx | hx
        · exact hmodest x hx
        · exact (applyChat_modest .leave rfl rfl x hx).mono

theorem Sound.enterRoom (h : c.Sound identity settings) (room : Room) :
    ∃ c' actions, c.enterRoom room = .ok (c', actions) ∧ c'.Sound identity settings ∧
      c.conversation.Performs (c.enterOperations room) c'.conversation ∧
      ∀ x ∈ actions, x.Modest true := by
  unfold enterOperations
  by_cases hsame : c.room? = some room
  · rw [if_pos hsame]
    exact ⟨c, [], by simp [Client.enterRoom, hsame], h, .nil _, by simp⟩
  · rw [if_neg hsame]
    cases hroom : c.room? with
    | none =>
        rw [Sound, hroom] at h
        exact ⟨_, _, enterRoom_of_none hroom, h.join [] room, .one (.enter room) rfl,
          join_modest (by simp) room⟩
    | some old =>
        rw [Sound, hroom] at h
        obtain ⟨b, actions, hrelease, hsound, hmodest⟩ := h.releaseRoom
        exact ⟨_, _, enterRoom_of_release hroom hsame hrelease, hsound.join actions room,
          .cons .stopTyping rfl (.one (.enter room) rfl), join_modest hmodest room⟩

theorem Sound.shutdown (h : c.Sound identity settings) :
    ∃ c' actions, c.shutdown = .ok (c', actions) ∧ c'.Sound identity settings ∧
      c.conversation.Performs c.leaveOperations c'.conversation ∧
      ∀ x ∈ actions, x.Modest true := by
  obtain ⟨c', actions, hleave, hsound, hperforms, hroom, hmodest⟩ := h.leaveRoom
  refine ⟨{ c' with switchboard := c'.switchboard.closeAll.1, started := false },
    actions ++ ofLinks c'.switchboard.closeAll.2, ?_, ?_, hperforms, fun x hx => ?_⟩
  · unfold Client.shutdown
    rw [hleave]
    rfl
  · refine ⟨hsound.self, hsound.owner, hsound.settings, hsound.conversation,
      Switchboard.closeAll_sound, rfl, fun r => ?_⟩
    rw [if_neg (by
      show c'.room? ≠ some r
      simp [hroom])]
    rfl
  · rcases List.mem_append.1 hx with hx | hx
    · exact hmodest x hx
    · exact ofLinks_modest (Switchboard.closeAll_asks fun _ => trivial) x hx

/-! ## Transports and time -/

theorem Sound.transportOpened (h : c.Sound identity settings) (r : Reading) (a : Address) :
    (c.transportOpened r a).1.Sound identity settings ∧
      ∀ x ∈ (c.transportOpened r a).2, x.Modest false := by
  obtain ⟨hsound, hsame⟩ := Switchboard.opened_spec (a := a) h.switchboard r.now
  refine ⟨h.links hsound hsame, ofLinks_modest (h.switchboard.opened_asks trivial ?_ r.now)⟩
  exact fun f watch => ClientFrame.isPost_of_isWatch watch

theorem Sound.transportClosed (h : c.Sound identity settings) (r : Reading) (a : Address) :
    (∃ c', c.transportClosed r a = .ok (c', []) ∧ c'.Sound identity settings ∧
      c'.conversation = c.conversation) ∨
    c.transportClosed r a = .error (.fault .overflow) ∧
      ¬ c.switchboard.settings.retry.NeverOverflows := by
  unfold Client.transportClosed
  cases hlost : c.switchboard.lost a r.now c.entropy with
  | error f =>
      obtain rfl := Switchboard.lost_error hlost
      refine .inr ⟨rfl, fun never => ?_⟩
      obtain ⟨b, e, hok⟩ := h.switchboard.lost_isOk never a r.now c.entropy
      rw [hlost] at hok
      cases hok
  | ok pair =>
      obtain ⟨hsound, hsame⟩ := Switchboard.lost_spec h.switchboard hlost
      exact .inl ⟨_, rfl, (h.links hsound hsame).same _ _ _, rfl⟩

/-- The channels and the clock of idleness move on. -/
theorem Sound.ticked (h : c.Sound identity settings) (now : Instant) :
    { c with switchboard := (c.switchboard.tick now).1,
             roster := (c.roster.tick now).1 }.Sound identity settings := by
  obtain ⟨hsound, hsame⟩ := Switchboard.tick_spec h.switchboard now
  exact (h.links hsound hsame).same _ _ _

theorem Sound.tick (h : c.Sound identity settings) (now : Instant) :
    (c.tick now).1.Sound identity settings ∧
      c.conversation.Performs [.tick now] (c.tick now).1.conversation ∧
      ∀ x ∈ (c.tick now).2, x.Modest true := by
  refine ⟨Sound.applyChat (h.ticked now) (.tick now) rfl rfl, .one (.tick now) rfl, ?_⟩
  intro x hx
  rcases List.mem_append.1 hx with hx | hx
  · rcases List.mem_append.1 hx with hx | hx
    · exact ofLinks_modest (Switchboard.tick_asks (fun _ => rfl) (fun _ => rfl) now) x hx
    · exact sendGlobal_modest (fun _ => Roster.tick_isPost) true x hx
  · exact (applyChat_modest (.tick now) rfl rfl x hx).mono

/-! ## Frames -/

theorem Ignores.frameOperations {a : Address} {text : String} (h : c.Ignores a text)
    (r : Reading) : c.frameOperations r a text = [] := by
  unfold Client.frameOperations
  cases h with
  | unheld unheld => exact if_pos (.inl (by rw [unheld]; rfl))
  | elsewhere _ inRoom => exact if_pos (.inr inRoom)
  | malformed malformed =>
      rw [malformed]
      exact ite_self _
  | @misplaced f decodes misplaced =>
      rw [decodes]
      split
      · rfl
      · next hplace =>
        have hroom : a ≠ .global := by
          rintro rfl
          obtain ⟨-, hglobal⟩ := not_or.1 hplace
          simp at hglobal
        cases f with
        | presence | presences | notice => rfl
        | message | typing | stoppedTyping =>
            exact absurd (decide_eq_false hroom).symm misplaced

theorem Takes.frameOperations {a : Address} {f : ServerFrame} {text : String}
    (takes : Takes c r a f c' actions) (held : (c.switchboard.link? a).isSome)
    (decodes : ServerFrame.decode text = some f) :
    c.frameOperations r a text = f.operations r.now := by
  obtain ⟨link, hlink⟩ := Option.isSome_iff_exists.1 held
  unfold Client.frameOperations
  rw [hlink, decodes]
  cases takes with
  | presence | presences | notice => exact if_pos (.inr (by simp))
  | message active | typing active | stoppedTyping active => exact if_neg (by simp [active])

/-- Frames of presence and notices do not concern the conversation. -/
theorem Sound.frameReceived (h : c.Sound identity settings) (r : Reading) (a : Address)
    (text : String) :
    (c.frameReceived r a text).1.Sound identity settings ∧
      c.conversation.Performs (c.frameOperations r a text)
        (c.frameReceived r a text).1.conversation ∧
      ∀ x ∈ (c.frameReceived r a text).2, x.Modest false := by
  rw [← and_assoc]
  refine ⟨?_, fun x hx => Action.modest_of_inward (frameReceived_inward x hx) false⟩
  have hchat : ∀ op step, c.conversation.perform op = .ok step → op.switches = false →
      (c.applyChat step).1.Sound identity settings ∧
        c.conversation.Performs [op] (c.applyChat step).1.conversation :=
    fun op step perform stays => ⟨h.applyChat op perform stays, .one op perform⟩
  rcases c.ignores_or_takes r a text with ignores | ⟨f, c', actions, held, decodes, takes⟩
  · rw [ignores.frameReceived r, ignores.frameOperations r]
    exact ⟨h, .nil _⟩
  · rw [takes.frameReceived held decodes, takes.frameOperations held decodes]
    cases takes with
    | presence | presences | notice => exact ⟨h.same _ _ _, .nil _⟩
    | message active m => exact hchat (.received m) _ rfl rfl
    | typing active user nickname => exact hchat (.otherTyping user nickname r.now) _ rfl rfl
    | stoppedTyping active user => exact hchat (.otherStopped user) _ rfl rfl

/-! ## The user -/

theorem Sound.send (h : c.Sound identity settings) {r : Reading} {wall : Int64}
    (hwall : r.wall = some wall) (text : String) :
    (∃ c' actions, c.send r text = .ok (c', actions) ∧ c'.Sound identity settings ∧
      c.conversation.Performs [.send text r.now wall c.isRoomLive] c'.conversation) ∨
    c.send r text = .error (.fault .overflow) ∧
      UInt64.size ≤ c.conversation.lastRef.toNat + 1 := by
  cases hstep : c.conversation.send text r.now wall c.isRoomLive with
  | ok step =>
      exact .inl ⟨_, _, send_of_ok hwall hstep,
        h.applyChat (.send text r.now wall c.isRoomLive) hstep rfl, .one _ hstep⟩
  | error f =>
      obtain ⟨rfl, hfull⟩ := Conversation.send_error hstep
      exact .inr ⟨send_of_error hwall hstep, hfull⟩

theorem Sound.watch (h : c.Sound identity settings) (users : List UserId) :
    ∃ c' actions, c.watch users = .ok (c', actions) ∧ c'.Sound identity settings ∧
      c'.conversation = c.conversation ∧ ∀ x ∈ actions, x.Modest true := by
  unfold Client.watch
  split
  · exact ⟨_, _, rfl, h.same _ _ _, rfl, by simp⟩
  · next roster frame hwatch =>
    have hframe : ∀ f, some frame = some f → f.isPost = false := by
      rintro f ⟨⟩
      exact Roster.watch_isPost (congrArg Prod.snd hwatch)
    dsimp only
    by_cases hglobal : (c.switchboard.link? .global).isSome
    · have hstarted : c.started = true := by
        have hheld := h.switchboard.link?_isSome_iff.1 hglobal
        rw [h.global] at hheld
        cases hs : c.started with
        | true => rfl
        | false => simp [hs] at hheld
      obtain ⟨b, hkeep, hsound⟩ := SoundIn.keepGlobal (h.same roster c.feed c.entropy) hstarted
      rw [if_pos hglobal, hkeep]
      exact ⟨_, _, rfl, hsound, rfl, sendGlobal_modest hframe true⟩
    · rw [if_neg hglobal]
      exact ⟨_, _, rfl, h.same _ _ _, rfl, sendGlobal_modest hframe true⟩

/-! ## All events -/

/-- The event is handled: the client stays sound, and its conversation goes through the operations
that the event amounts to. -/
structure Handles (identity : Identity) (settings : LinkSettings) (c : Client) (r : Reading)
    (e : Event) (c' : Client) (actions : List Action) : Prop where
  ok : c.handle r e = .ok (c', actions)
  sound : c'.Sound identity settings
  performs : c.conversation.Performs (c.operations r e) c'.conversation
  modest : e.isSend = false → ∀ x ∈ actions, x.Modest (!e.isAnswer)

/-- An event is handled, or a number, a wait or the wall clock is out of range. -/
theorem Sound.handle (h : c.Sound identity settings) (r : Reading) (e : Event) :
    (∃ c' actions, Handles identity settings c r e c' actions) ∨
      c.handle r e = .error (.fault .overflow) ∧ c.Overflows r e := by
  have done : ∀ c' actions, c.handle r e = .ok (c', actions) → c'.Sound identity settings →
      c.conversation.Performs (c.operations r e) c'.conversation →
      (e.isSend = false → ∀ x ∈ actions, x.Modest (!e.isAnswer)) →
      (∃ c' actions, Handles identity settings c r e c' actions) ∨
        c.handle r e = .error (.fault .overflow) ∧ c.Overflows r e :=
    fun c' actions ok sound performs modest => .inl ⟨c', actions, ok, sound, performs, modest⟩
  cases e with
  | start =>
      obtain ⟨c', actions, hok, hsound, hconv, hmodest⟩ := h.start
      exact done c' actions hok hsound (hconv ▸ .nil _) fun _ => hmodest
  | shutdown =>
      obtain ⟨c', actions, hok, hsound, hperforms, hmodest⟩ := h.shutdown
      exact done c' actions hok hsound hperforms fun _ => hmodest
  | transportOpened a =>
      obtain ⟨hsound, hmodest⟩ := h.transportOpened r a
      exact done _ _ rfl hsound (.nil _) fun _ => hmodest
  | transportClosed a =>
      rcases h.transportClosed r a with ⟨c', hok, hsound, hconv⟩ | ⟨herror, hwait⟩
      · exact done c' [] hok hsound (hconv ▸ .nil _) fun _ => by simp
      · exact .inr ⟨herror, .wait hwait⟩
  | frameReceived a text =>
      obtain ⟨hsound, hperforms, hmodest⟩ := h.frameReceived r a text
      exact done _ _ rfl hsound hperforms fun _ => hmodest
  | tick now =>
      obtain ⟨hsound, hperforms, hmodest⟩ := h.tick now
      exact done _ _ rfl hsound hperforms fun _ => hmodest
  | enterRoom room =>
      obtain ⟨c', actions, hok, hsound, hperforms, hmodest⟩ := h.enterRoom room
      exact done c' actions hok hsound hperforms fun _ => hmodest
  | leaveRoom =>
      obtain ⟨c', actions, hok, hsound, hperforms, -, hmodest⟩ := h.leaveRoom
      exact done c' actions hok hsound hperforms fun _ => hmodest
  | loadOlder =>
      exact done _ _ rfl (h.applyChat .loadOlder rfl rfl) (.one _ rfl)
        fun _ => applyChat_modest .loadOlder rfl rfl
  | reloadHistory =>
      exact done _ _ rfl (h.applyChat .loadNewest rfl rfl) (.one _ rfl)
        fun _ => applyChat_modest .loadNewest rfl rfl
  | send text =>
      cases hwall : r.wall with
      | none =>
          refine .inr ⟨?_, .clock hwall⟩
          show c.send r text = _
          unfold Client.send readWall
          rw [hwall]
          rfl
      | some wall =>
          rcases h.send hwall text with ⟨c', actions, hok, hsound, hperforms⟩ | ⟨herror, hfull⟩
          · refine done c' actions hok hsound ?_ nofun
            unfold operations
            rw [hwall]
            exact hperforms
          · exact .inr ⟨herror, .number hfull⟩
  | input text =>
      exact done _ _ rfl (h.applyChat (.input text r.now) rfl rfl) (.one _ rfl)
        fun _ x hx => (applyChat_modest (.input text r.now) rfl rfl x hx).mono
  | activity =>
      refine done _ _ rfl (h.same _ _ _) (.nil _) fun _ => ?_
      show ∀ x ∈ c.sendGlobal (c.roster.activity r.now).2, x.Modest true
      exact sendGlobal_modest (fun _ => Roster.activity_isPost) true
  | setAvailability availability =>
      refine done _ _ rfl h (.nil _) fun _ => sendGlobal_modest ?_ true
      rintro f ⟨⟩
      rfl
  | setNote note emoji =>
      cases hwall : r.wall with
      | none =>
          refine .inr ⟨?_, .clock hwall⟩
          show c.setNote r note emoji = _
          unfold Client.setNote readWall
          rw [hwall]
          rfl
      | some wall =>
          refine done _ _ (setNote_of_wall hwall note emoji) (h.same _ _ _) (.nil _)
            fun _ x hx => ?_
          rcases List.mem_append.1 hx with hx | hx
          · refine sendGlobal_modest ?_ true x hx
            rintro f ⟨⟩
            rfl
          · obtain rfl := List.mem_singleton.1 hx
            trivial
  | watch users =>
      obtain ⟨c', actions, hok, hsound, hconv, hmodest⟩ := h.watch users
      exact done c' actions hok hsound (hconv ▸ .nil _) fun _ => hmodest
  | historyLoaded q result =>
      exact done _ _ rfl (h.applyChat (.historyLoaded q result) rfl rfl) (.one _ rfl)
        fun _ => applyChat_modest (.historyLoaded q result) rfl rfl
  | posted q result =>
      exact done _ _ rfl (h.applyChat (.posted q result) rfl rfl) (.one _ rfl)
        fun _ => applyChat_modest (.posted q result) rfl rfl

/-- Only the event that brings a message to be sent amounts to sending. -/
theorem operations_receive {r : Reading} {e : Event} (receives : e.isSend = false) :
    ∀ op ∈ c.operations r e, op.isSend = false := by
  cases e with
  | send text => cases receives
  | shutdown | leaveRoom =>
      show ∀ op ∈ c.leaveOperations, op.isSend = false
      unfold leaveOperations
      split <;> simp [Conversation.Operation.isSend]
  | enterRoom room =>
      show ∀ op ∈ c.enterOperations room, op.isSend = false
      unfold enterOperations
      split
      · simp
      · split <;> simp [Conversation.Operation.isSend]
  | frameReceived a text =>
      show ∀ op ∈ c.frameOperations r a text, op.isSend = false
      unfold frameOperations
      split
      · simp
      · split <;> simp [Conversation.Operation.isSend]
  | _ => simp [operations, Conversation.Operation.isSend]

/-- An event brings one message to be sent and nothing else, or none. -/
theorem operations_sends (c : Client) (r : Reading) (e : Event) :
    (∃ op, c.operations r e = [op]) ∨ ∀ op ∈ c.operations r e, op.isSend = false := by
  cases e with
  | send text =>
      unfold operations
      cases r.wall with
      | none => exact .inr (by simp)
      | some wall => exact .inl ⟨_, rfl⟩
  | _ => exact .inr (operations_receive rfl)

end Client

end LiveChat
