import LiveChat.Proofs.Client.Actions
import LiveChat.Proofs.Presence.Roster

/-!
# Frames that come in

The text of a frame is not to be trusted, so what it can do is bounded: a frame of presence or a
notice concerns the roster and the feed, a frame of the active room its timeline and its typists,
and any other text nothing at all. No frame has anything sent or asked for. Since the two kinds of
channel concern different parts, the order in which their frames come does not matter.
-/

namespace LiveChat

def ServerFrame.isGlobal : ServerFrame → Bool
  | .presence _ | .presences _ | .notice _ => true
  | .message _ | .typing _ _ | .stoppedTyping _ => false

def ServerFrame.operations (now : Instant) : ServerFrame → List Conversation.Operation
  | .message m => [.received m]
  | .typing user nickname => [.otherTyping user nickname now]
  | .stoppedTyping user => [.otherStopped user]
  | .presence _ | .presences _ | .notice _ => []

namespace Client

variable {c c' : Client} {r : Reading} {a : Address} {text : String} {f : ServerFrame}
  {actions : List Action}

/-- Why a text that comes on a channel is nothing to the client. -/
inductive Ignores (c : Client) (a : Address) (text : String) : Prop
  | unheld (unheld : c.switchboard.link? a = none)
  | elsewhere (inSession : a ≠ .global) (inRoom : c.room?.map Address.room ≠ some a)
  | malformed (malformed : ServerFrame.decode text = none)
  | misplaced {f : ServerFrame} (decodes : ServerFrame.decode text = some f)
      (misplaced : f.isGlobal ≠ decide (a = .global))

/-- What a frame makes of the client, on the channel where it belongs. -/
inductive Takes (c : Client) (r : Reading) : Address → ServerFrame → Client → List Action → Prop
  | presence (p : Presence) : Takes c r .global (.presence p)
      { c with roster := c.roster.update p } [.presenceChanged [p.user]]
  | presences (batch : Table UserId Presence) : Takes c r .global (.presences batch)
      { c with roster := (c.roster.merge batch.entries).1 }
      (if (c.roster.merge batch.entries).2.isEmpty then []
        else [.presenceChanged (c.roster.merge batch.entries).2])
  | notice (n : Notice) : Takes c r .global (.notice n)
      { c with feed := (c.feed.take n).1 } ((c.feed.take n).2.map Action.noticePublished).toList
  | message {room : Room} (active : c.room? = some room) (m : Message) :
      Takes c r (.room room) (.message m) (c.applyChat (c.conversation.received m)).1
        (c.applyChat (c.conversation.received m)).2
  | typing {room : Room} (active : c.room? = some room) (user : UserId) (nickname : String) :
      Takes c r (.room room) (.typing user nickname)
        (c.applyChat (c.conversation.otherTyping user nickname r.now)).1
        (c.applyChat (c.conversation.otherTyping user nickname r.now)).2
  | stoppedTyping {room : Room} (active : c.room? = some room) (user : UserId) :
      Takes c r (.room room) (.stoppedTyping user)
        (c.applyChat (c.conversation.otherStopped user)).1
        (c.applyChat (c.conversation.otherStopped user)).2

theorem Ignores.frameReceived (h : c.Ignores a text) (r : Reading) :
    c.frameReceived r a text = (c, []) := by
  unfold Client.frameReceived
  cases h with
  | unheld unheld => rw [if_pos (by simp [unheld])]
  | elsewhere inSession inRoom =>
      split
      · rfl
      · cases ServerFrame.decode text with
        | none => rfl
        | some f => cases f <;> simp [inSession, inRoom]
  | malformed malformed =>
      rw [malformed]
      exact ite_self _
  | @misplaced f decodes misplaced =>
      rw [decodes]
      split
      · rfl
      · cases f with
        | presence | presences | notice =>
            have hroom : a ≠ .global := by simpa [ServerFrame.isGlobal] using misplaced
            exact if_neg hroom
        | message | typing | stoppedTyping =>
            have hglobal : a = .global := by simpa [ServerFrame.isGlobal] using misplaced
            exact if_neg (by simp [hglobal])

theorem Takes.frameReceived (takes : Takes c r a f c' actions)
    (held : (c.switchboard.link? a).isSome) (decodes : ServerFrame.decode text = some f) :
    c.frameReceived r a text = (c', actions) := by
  obtain ⟨link, hlink⟩ := Option.isSome_iff_exists.1 held
  unfold Client.frameReceived
  rw [if_neg (by simp [hlink]), decodes]
  cases takes with
  | presence | presences | notice => rfl
  | message active | typing active | stoppedTyping active => exact if_pos (by rw [active]; rfl)

/-- A text is nothing to the client, or it is a frame that is taken where it belongs. -/
theorem ignores_or_takes (c : Client) (r : Reading) (a : Address) (text : String) :
    c.Ignores a text ∨ ∃ f c' actions, (c.switchboard.link? a).isSome ∧
      ServerFrame.decode text = some f ∧ Takes c r a f c' actions := by
  cases hlink : c.switchboard.link? a with
  | none => exact .inl (.unheld hlink)
  | some link =>
      cases hdecode : ServerFrame.decode text with
      | none => exact .inl (.malformed hdecode)
      | some f =>
          by_cases hplace : f.isGlobal = decide (a = .global)
          · by_cases hglobal : a = .global
            · subst hglobal
              refine .inr ⟨f, ?_⟩
              cases f with
              | presence p => exact ⟨_, _, rfl, rfl, .presence p⟩
              | presences batch => exact ⟨_, _, rfl, rfl, .presences batch⟩
              | notice n => exact ⟨_, _, rfl, rfl, .notice n⟩
              | message | typing | stoppedTyping => cases hplace
            · by_cases hroom : c.room?.map Address.room = some a
              · obtain ⟨room, active, rfl⟩ := Option.map_eq_some_iff.1 hroom
                refine .inr ⟨f, ?_⟩
                cases f with
                | message m => exact ⟨_, _, rfl, rfl, .message active m⟩
                | typing user nickname => exact ⟨_, _, rfl, rfl, .typing active user nickname⟩
                | stoppedTyping user => exact ⟨_, _, rfl, rfl, .stoppedTyping active user⟩
                | presence | presences | notice => cases hplace
              · exact .inl (.elsewhere hglobal hroom)
          · exact .inl (.misplaced hdecode hplace)

/-! ## The footprint of a frame -/

/-- Whether an action concerns a transport or asks for something that is answered. -/
def Action.isRequest : Action → Bool
  | .openTransport _ | .closeTransport _ | .sendFrame _ _ | .fetchHistory _ | .postMessage _ => true
  | _ => false

theorem Action.modest_of_inward {x : Action} (h : x.isRequest = false) (asks : Bool) :
    x.Modest asks := by
  cases x with
  | openTransport | closeTransport | sendFrame | fetchHistory | postMessage => cases h
  | _ => trivial

/-- At most the records of the roster, the feed, the timeline and the typists have changed. -/
def Footprint (c c' : Client) : Prop :=
  c' = { c with
    roster := { c.roster with records := c'.roster.records }
    feed := c'.feed
    conversation := { c.conversation with
      timeline := c'.conversation.timeline
      typists := c'.conversation.typists } }

theorem Footprint.switchboard (h : Footprint c c') : c'.switchboard = c.switchboard := by
  unfold Footprint at h
  rw [h]

theorem Footprint.watched (h : Footprint c c') : c'.roster.watched = c.roster.watched := by
  unfold Footprint at h
  rw [h]

theorem applyChat_inward {step : Conversation × List ChatEffect}
    (quiet : ∀ effect ∈ step.2, effect.isQuiet = true) :
    ∀ x ∈ (c.applyChat step).2, x.isRequest = false := by
  intro x hx
  obtain ⟨effect, he, hx⟩ := List.mem_flatMap.1 hx
  cases effect with
  | transmit | fetch | post => cases quiet _ he
  | _ =>
      obtain rfl := List.mem_singleton.1 hx
      rfl

theorem Takes.inward (takes : Takes c r a f c' actions) : ∀ x ∈ actions, x.isRequest = false := by
  cases takes with
  | presence p => simp [Action.isRequest]
  | presences batch => split <;> simp [Action.isRequest]
  | notice n => cases (c.feed.take n).2 <;> simp [Action.isRequest]
  | message active m => exact applyChat_inward (Conversation.received_quiet m)
  | typing active user nickname =>
      exact applyChat_inward (Conversation.otherTyping_quiet user nickname r.now)
  | stoppedTyping active user => exact applyChat_inward (Conversation.otherStopped_quiet user)

theorem Takes.footprint (takes : Takes c r a f c' actions) : Footprint c c' := by
  cases takes with
  | presence p => rfl
  | presences batch => exact congrArg (fun roster => { c with roster }) (c.roster.merge_eq _)
  | notice n => rfl
  | message active m =>
      obtain ⟨t, ht⟩ := Conversation.received_frame (c := c.conversation) m
      unfold Footprint applyChat
      rw [ht]
  | typing active user nickname =>
      unfold Footprint applyChat Conversation.otherTyping
      split <;> rfl
  | stoppedTyping active user => rfl

theorem Takes.conversation_global (takes : Takes c r .global f c' actions) :
    c'.conversation = c.conversation := by
  cases takes <;> rfl

/-- What a frame does on the global channel does not depend on the conversation. -/
theorem frameReceived_global_apart (conversation : Conversation) :
    { c with conversation }.frameReceived r .global text =
      ({ (c.frameReceived r .global text).1 with conversation },
        (c.frameReceived r .global text).2) := by
  rcases c.ignores_or_takes r .global text with ignores | ⟨f, c', actions, held, decodes, takes⟩
  · have ignores' : { c with conversation }.Ignores .global text := by
      cases ignores with
      | unheld unheld => exact .unheld unheld
      | elsewhere inSession => exact absurd rfl inSession
      | malformed malformed => exact .malformed malformed
      | misplaced decodes misplaced => exact .misplaced decodes misplaced
    rw [ignores.frameReceived r, ignores'.frameReceived r]
  · have takes' : Takes { c with conversation } r .global f { c' with conversation } actions := by
      cases takes with
      | presence p => exact .presence p
      | presences batch => exact .presences batch
      | notice n => exact .notice n
    rw [takes.frameReceived held decodes, takes'.frameReceived held decodes]

theorem applyChat_apart (step : Conversation × List ChatEffect) (roster : Roster) (feed : Feed) :
    { c with roster, feed }.applyChat step =
      ({ (c.applyChat step).1 with roster, feed }, (c.applyChat step).2) := by
  have hactions : { c with conversation := step.1, roster, feed }.effectActions =
      { c with conversation := step.1 }.effectActions := by
    funext effect
    cases effect <;> rfl
  unfold applyChat
  dsimp only
  rw [hactions]

/-- What a frame does on the channel of a room does not depend on the roster and the feed. -/
theorem frameReceived_room_apart (room : Room) (roster : Roster) (feed : Feed) :
    { c with roster, feed }.frameReceived r (.room room) text =
      ({ (c.frameReceived r (.room room) text).1 with roster, feed },
        (c.frameReceived r (.room room) text).2) := by
  rcases c.ignores_or_takes r (.room room) text with
    ignores | ⟨f, c', actions, held, decodes, takes⟩
  · have ignores' : { c with roster, feed }.Ignores (.room room) text := by
      cases ignores with
      | unheld unheld => exact .unheld unheld
      | elsewhere inSession inRoom => exact .elsewhere inSession inRoom
      | malformed malformed => exact .malformed malformed
      | misplaced decodes misplaced => exact .misplaced decodes misplaced
    rw [ignores.frameReceived r, ignores'.frameReceived r]
  · have takes' : Takes { c with roster, feed } r (.room room) f { c' with roster, feed }
        actions := by
      cases takes with
      | message active m =>
          have takes := Takes.message (c := { c with roster, feed }) (r := r) active m
          rwa [applyChat_apart] at takes
      | typing active user nickname =>
          have takes := Takes.typing (c := { c with roster, feed }) (r := r) active user nickname
          rwa [applyChat_apart] at takes
      | stoppedTyping active user =>
          have takes := Takes.stoppedTyping (c := { c with roster, feed }) (r := r) active user
          rwa [applyChat_apart] at takes
    rw [takes.frameReceived held decodes, takes'.frameReceived held decodes]

theorem frameReceived_inward :
    ∀ x ∈ (c.frameReceived r a text).2, x.isRequest = false := by
  rcases c.ignores_or_takes r a text with ignores | ⟨f, c', actions, held, decodes, takes⟩
  · rw [ignores.frameReceived r]
    simp
  · rw [takes.frameReceived held decodes]
    exact takes.inward

theorem frameReceived_footprint : Footprint c (c.frameReceived r a text).1 := by
  rcases c.ignores_or_takes r a text with ignores | ⟨f, c', actions, held, decodes, takes⟩
  · rw [ignores.frameReceived r]
    rfl
  · rw [takes.frameReceived held decodes]
    exact takes.footprint

theorem frameReceived_global (c : Client) (r : Reading) (text : String) :
    ∃ roster feed, (c.frameReceived r .global text).1 = { c with roster, feed } := by
  rcases c.ignores_or_takes r .global text with ignores | ⟨f, c', actions, held, decodes, takes⟩
  · rw [ignores.frameReceived r]
    exact ⟨_, _, rfl⟩
  · rw [takes.frameReceived held decodes]
    cases takes <;> exact ⟨_, _, rfl⟩

theorem frameReceived_room (c : Client) (r : Reading) (room : Room) (text : String) :
    ∃ conversation, (c.frameReceived r (.room room) text).1 = { c with conversation } := by
  rcases c.ignores_or_takes r (.room room) text with
    ignores | ⟨f, c', actions, held, decodes, takes⟩
  · rw [ignores.frameReceived r]
    exact ⟨_, rfl⟩
  · rw [takes.frameReceived held decodes]
    cases takes <;> exact ⟨_, rfl⟩

theorem frameReceived_comm (c : Client) (r : Reading) (room : Room) (text text' : String) :
    ∃ c', (c.frameReceived r .global text).1.frameReceived r (.room room) text' =
        (c', (c.frameReceived r (.room room) text').2) ∧
      (c.frameReceived r (.room room) text').1.frameReceived r .global text =
        (c', (c.frameReceived r .global text).2) := by
  obtain ⟨roster, feed, hglobal⟩ := frameReceived_global c r text
  obtain ⟨conversation, hroom⟩ := frameReceived_room c r room text'
  refine ⟨{ c with roster, feed, conversation }, ?_, ?_⟩
  · rw [hglobal, frameReceived_room_apart, hroom]
  · rw [hroom, frameReceived_global_apart, hglobal]

/-- Whatever text comes on whatever channel, nothing is sent or asked for, and at most the records
of the roster and the feed change on the global channel, and the timeline and the typists on that
of the active room. A text on a channel that is not held or is of another room, or that is no frame
or one of the other kind of channel, changes nothing and has nothing done. What comes on the global
channel and what comes on that of a room may come in either order. -/
theorem frame_footprint_bounded (c : Client) (r : Reading) :
    (∀ a text, ∃ c' actions, c.handle r (.frameReceived a text) = .ok (c', actions) ∧
      (∀ x ∈ actions, x.isRequest = false) ∧ c.Footprint c' ∧
      (a = .global → c'.conversation = c.conversation) ∧
      (∀ room, a = .room room → c'.roster = c.roster ∧ c'.feed = c.feed) ∧
      (c.Ignores a text → c' = c ∧ actions = [])) ∧
    ∀ room text text', ∃ c₁ c₂ c' actions actions',
      c.handle r (.frameReceived .global text) = .ok (c₁, actions) ∧
      c₁.handle r (.frameReceived (.room room) text') = .ok (c', actions') ∧
      c.handle r (.frameReceived (.room room) text') = .ok (c₂, actions') ∧
      c₂.handle r (.frameReceived .global text) = .ok (c', actions) := by
  constructor
  · intro a text
    refine ⟨(c.frameReceived r a text).1, (c.frameReceived r a text).2, rfl,
      frameReceived_inward, frameReceived_footprint, ?_, ?_, fun ignores => ?_⟩
    · rintro rfl
      obtain ⟨roster, feed, hglobal⟩ := frameReceived_global c r text
      rw [hglobal]
    · rintro room rfl
      obtain ⟨conversation, hroom⟩ := frameReceived_room c r room text
      rw [hroom]
      exact ⟨rfl, rfl⟩
    · rw [ignores.frameReceived r]
      exact ⟨rfl, rfl⟩
  · intro room text text'
    obtain ⟨c', hforth, hback⟩ := frameReceived_comm c r room text text'
    exact ⟨_, _, c', _, _, rfl, congrArg Except.ok hforth, rfl, congrArg Except.ok hback⟩

end Client

end LiveChat
