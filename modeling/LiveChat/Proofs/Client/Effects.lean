import LiveChat.Proofs.Client.Frame
import LiveChat.Proofs.Client.Sound

/-!
# What an event is made of

An event moves the channels and the clocks and has the conversation go through operations: none,
one, or two where it ends a stay in a room. What the operations ask for and tell stands among the
actions of the event in its order, but for the frames that go out on the channel of the room. No
other action of an event is of the conversation.
-/

namespace LiveChat

def ChatEffect.isTransmit : ChatEffect → Bool
  | .transmit _ => true
  | _ => false

namespace Client

variable {c c' c'' : Client} {r : Reading} {e : Event} {actions actions' : List Action}
  {ops ops' : List Conversation.Operation}

/-! ## Effects among actions -/

/-- The effect of the conversation that an action carries out. -/
def Action.effect? : Action → Option ChatEffect
  | .fetchHistory q => some (.fetch q)
  | .postMessage q => some (.post q)
  | .markRead room => some (.markRead room)
  | .timelineChanged => some .timelineChanged
  | .typistsChanged => some .typistsChanged
  | .scrollToNewest => some .scrollToNewest
  | .keepPosition => some .keepPosition
  | _ => none

def effectsIn (actions : List Action) : List ChatEffect := actions.filterMap Action.effect?

/-- An action that carries out an effect is among the actions if the effect is among those that
they carry out. -/
theorem mem_iff_of_effectsIn {effects : List ChatEffect}
    (hin : effectsIn actions = effects.filter (!·.isTransmit)) {x : Action} {effect : ChatEffect}
    (h : x.effect? = some effect) : x ∈ actions ↔ effect ∈ effects := by
  have hcarried : (!effect.isTransmit) = true := by cases x <;> cases h <;> rfl
  have hmem : effect ∈ effectsIn actions ↔ effect ∈ effects := by
    rw [hin, List.mem_filter, and_iff_left hcarried]
  rw [← hmem]
  constructor
  · exact fun hx => List.mem_filterMap.2 ⟨x, hx, h⟩
  · intro heffect
    obtain ⟨y, hy, hsame⟩ := List.mem_filterMap.1 heffect
    have hxy : x = y := by cases x <;> cases h <;> cases y <;> cases hsame <;> rfl
    exact hxy ▸ hy

@[simp] theorem effectsIn_append (actions actions' : List Action) :
    effectsIn (actions ++ actions') = effectsIn actions ++ effectsIn actions' :=
  List.filterMap_append

@[simp] theorem effectsIn_ofLinks (actions : List LinkAction) :
    effectsIn (ofLinks actions) = [] := by
  refine List.filterMap_eq_nil_iff.2 fun x hx => ?_
  obtain ⟨y, -, rfl⟩ := List.mem_map.1 hx
  cases y <;> rfl

@[simp] theorem effectsIn_sendGlobal (frame : Option ClientFrame) :
    effectsIn (c.sendGlobal frame) = [] := by
  cases frame with
  | none => rfl
  | some f => exact effectsIn_ofLinks _

theorem effectsIn_effectActions (effect : ChatEffect) :
    effectsIn (c.effectActions effect) = [effect].filter (!·.isTransmit) := by
  cases effect with
  | transmit f =>
      unfold effectActions
      dsimp only
      split
      · rfl
      · exact effectsIn_ofLinks _
  | _ => rfl

theorem effectsIn_applyChat (step : Conversation × List ChatEffect) :
    effectsIn (c.applyChat step).2 = step.2.filter (!·.isTransmit) := by
  show effectsIn (step.2.flatMap _) = _
  induction step.2 with
  | nil => rfl
  | cons effect effects ih =>
      rw [List.flatMap_cons, effectsIn_append, effectsIn_effectActions, ih, ← List.filter_append]
      rfl

/-- What the conversation conveys by the actions: it goes through the operations, and their effects
stand among the actions. -/
def Conveys (c : Client) (ops : List Conversation.Operation) (c' : Client)
    (actions : List Action) : Prop :=
  ∃ effects, c.conversation.Enacts ops effects c'.conversation ∧
    effectsIn actions = effects.filter (!·.isTransmit)

theorem Conveys.append (h : Conveys c ops c' actions) (h' : Conveys c' ops' c'' actions') :
    Conveys c (ops ++ ops') c'' (actions ++ actions') := by
  obtain ⟨effects, henacts, hin⟩ := h
  obtain ⟨effects', henacts', hin'⟩ := h'
  refine ⟨_, henacts.append henacts', ?_⟩
  rw [effectsIn_append, List.filter_append, hin, hin']

theorem Conveys.still (conversation : c'.conversation = c.conversation)
    (silent : effectsIn actions = []) : Conveys c [] c' actions :=
  ⟨[], conversation ▸ .nil _, silent⟩

/-! ## What handlers are made of -/

/-- Moves of the channels and the clocks and operations of the conversation, one after the other.
They leave the records of the roster and the feed as they are. -/
inductive Moves : Client → List Conversation.Operation → Client → List Action → Prop
  | nil (c : Client) : Moves c [] c []
  | links (c : Client) (switchboard : Switchboard) (started : Bool) (entropy : Entropy)
      (watched : Table UserId Unit) (idleWatch : IdleWatch) (actions : List LinkAction) :
      Moves c [] { c with
        switchboard, started, entropy, roster := { c.roster with watched, idleWatch } }
        (ofLinks actions)
  | chat {c : Client} (op : Conversation.Operation) {step : Conversation × List ChatEffect}
      (perform : c.conversation.perform op = .ok step) :
      Moves c [op] (c.applyChat step).1 (c.applyChat step).2
  | append {c c' c'' : Client} {ops ops' : List Conversation.Operation}
      {actions actions' : List Action} (first : Moves c ops c' actions)
      (second : Moves c' ops' c'' actions') : Moves c (ops ++ ops') c'' (actions ++ actions')

theorem Moves.conveys (h : Moves c ops c' actions) : Conveys c ops c' actions := by
  induction h with
  | nil c => exact .still rfl rfl
  | links => exact .still rfl (effectsIn_ofLinks _)
  | chat op perform => exact ⟨_, .one op perform, effectsIn_applyChat _⟩
  | append _ _ first second => exact first.append second

theorem Moves.board (c : Client) (switchboard : Switchboard) (actions : List LinkAction) :
    Moves c [] { c with switchboard } (ofLinks actions) :=
  .links c switchboard c.started c.entropy c.roster.watched c.roster.idleWatch actions

theorem sendGlobal_moves (c : Client) (frame : Option ClientFrame) :
    Moves c [] c (c.sendGlobal frame) := by
  cases frame with
  | none => exact .nil c
  | some f => exact .board c c.switchboard _

theorem releaseRoom_moves {room : Room} (ok : c.releaseRoom room = .ok (c', actions)) :
    Moves c [.stopTyping] c' actions := by
  obtain ⟨b, closing, -, rfl, rfl⟩ := releaseRoom_eq_ok ok
  exact (Moves.chat .stopTyping rfl).append (.board _ _ _)

theorem leaveRoom_moves (ok : c.leaveRoom = .ok (c', actions)) :
    Moves c c.leaveOperations c' actions := by
  unfold leaveOperations
  rcases leaveRoom_cases ok with
    ⟨hroom, rfl, rfl⟩ | ⟨room, left, released, hroom, hrelease, rfl, rfl⟩
  · rw [hroom]
    exact .nil c'
  · rw [hroom]
    exact (releaseRoom_moves hrelease).append (.chat .leave rfl)

theorem join_moves {released : List Action} (h : Moves c ops c' released) (room : Room) :
    Moves c (ops ++ [.enter room]) (c'.join released room).1 (c'.join released room).2 := by
  let acquired : Client := { c' with switchboard := (c'.switchboard.acquire (.room room)).1 }
  have hopened : Moves c' [] acquired (ofLinks (c'.switchboard.acquire (.room room)).2) :=
    .board _ _ _
  have hentered : Moves acquired [.enter room] (acquired.applyChat (c'.conversation.enter room)).1
      (acquired.applyChat (c'.conversation.enter room)).2 := .chat (.enter room) rfl
  have hjoined := (h.append hopened).append hentered
  rwa [List.append_nil] at hjoined

theorem enterRoom_moves {room : Room} (ok : c.enterRoom room = .ok (c', actions)) :
    Moves c (c.enterOperations room) c' actions := by
  unfold enterOperations
  rcases enterRoom_cases ok with
    ⟨hsame, rfl, rfl⟩ | ⟨hroom, rfl, rfl⟩ | ⟨old, left, released, hroom, hother, hrelease, rfl, rfl⟩
  · rw [if_pos hsame]
    exact .nil c'
  · rw [hroom]
    exact join_moves (.nil c) room
  · rw [if_neg hother, hroom]
    exact join_moves (releaseRoom_moves hrelease) room

theorem shutdown_moves (ok : c.shutdown = .ok (c', actions)) :
    Moves c c.leaveOperations c' actions := by
  obtain ⟨left, leaving, hleave, rfl, rfl⟩ := shutdown_eq_ok ok
  have hclosed := (leaveRoom_moves hleave).append (.links left left.switchboard.closeAll.1 false
    left.entropy left.roster.watched left.roster.idleWatch left.switchboard.closeAll.2)
  rwa [List.append_nil] at hclosed

theorem keepGlobal_eq {frame : Option ClientFrame} (ok : c.keepGlobal frame = .ok c') :
    ∃ switchboard, c' = { c with switchboard } := by
  rcases keepGlobal_cases ok with ⟨-, rfl⟩ | ⟨f, b, -, -, rfl⟩ <;> exact ⟨_, rfl⟩

theorem start_moves (ok : c.start = .ok (c', actions)) : Moves c [] c' actions := by
  rcases start_cases ok with ⟨-, rfl, rfl⟩ | ⟨-, hkeep, rfl⟩
  · exact .nil c'
  · obtain ⟨switchboard, rfl⟩ := keepGlobal_eq hkeep
    exact .links c switchboard true c.entropy c.roster.watched c.roster.idleWatch _

theorem tick_moves (c : Client) (now : Instant) :
    Moves c [.tick now] (c.tick now).1 (c.tick now).2 := by
  let ticked : Client := { c with
    switchboard := (c.switchboard.tick now).1
    roster := (c.roster.tick now).1 }
  have hlinks : Moves c [] ticked (ofLinks (c.switchboard.tick now).2) :=
    .links c _ c.started c.entropy c.roster.watched (c.roster.idleWatch.tick now).1 _
  exact (hlinks.append (sendGlobal_moves ticked _)).append (.chat (.tick now) rfl)

theorem transportClosed_moves {a : Address} (ok : c.transportClosed r a = .ok (c', actions)) :
    Moves c [] c' actions := by
  obtain ⟨b, entropy, -, rfl, rfl⟩ := transportClosed_eq_ok ok
  exact .links c b c.started entropy c.roster.watched c.roster.idleWatch []

theorem activity_moves (c : Client) (r : Reading) :
    Moves c [] (c.activity r).1 (c.activity r).2 := by
  let roused : Client := { c with roster := (c.roster.activity r.now).1 }
  have hroused : Moves c [] roused (ofLinks []) := .links c c.switchboard c.started c.entropy
    c.roster.watched (c.roster.idleWatch.activity r.now).1 []
  exact hroused.append (sendGlobal_moves roused (c.roster.activity r.now).2)

theorem send_moves {text : String} (ok : c.send r text = .ok (c', actions)) :
    Moves c (c.operations r (.send text)) c' actions := by
  obtain ⟨wall, step, hwall, hstep, rfl, rfl⟩ := send_eq_ok ok
  unfold operations
  rw [hwall]
  exact .chat _ hstep

theorem watch_moves {users : List UserId} (ok : c.watch users = .ok (c', actions)) :
    Moves c [] c' actions := by
  have hmoves : ∀ roster frame switchboard, c.roster.watch users = (roster, frame) →
      Moves c [] { c with switchboard, roster } (ofLinks []) := by
    intro roster frame switchboard hwatch
    have hwatched : roster = { c.roster with watched := roster.watched } := by
      unfold Roster.watch at hwatch
      split at hwatch <;> cases hwatch <;> rfl
    rw [hwatched]
    exact .links c switchboard c.started c.entropy _ c.roster.idleWatch []
  rcases watch_cases ok with ⟨roster, hwatch, rfl, rfl⟩ | ⟨roster, frame, hwatch, rfl, hkept⟩
  · exact hmoves roster none c.switchboard hwatch
  · obtain ⟨switchboard, rfl⟩ : ∃ switchboard, c' = { c with switchboard, roster } := by
      rcases hkept with ⟨-, hkeep⟩ | ⟨-, rfl⟩
      · exact keepGlobal_eq hkeep
      · exact ⟨c.switchboard, rfl⟩
    exact (hmoves roster _ switchboard hwatch).append (sendGlobal_moves _ (some frame))

/-! ## Frames -/

theorem Takes.effectsIn_global {f : ServerFrame} (takes : Takes c r .global f c' actions) :
    effectsIn actions = [] := by
  cases takes with
  | presence p => rfl
  | presences batch => split <;> rfl
  | notice n => cases (c.feed.take n).2 <;> rfl

/-! ## Events -/

/-- What comes on the global channel concerns the roster and the feed, and a change of the note the
roster. All other events are made of moves of the channels and the clocks and operations of the
conversation. -/
inductive Parts (c : Client) (r : Reading) : Event → Client → List Action → Prop
  | moves {e : Event} {c' : Client} {actions : List Action}
      (moves : Moves c (c.operations r e) c' actions) : Parts c r e c' actions
  | global {text : String} {f : ServerFrame} {c' : Client} {actions : List Action}
      (takes : Takes c r .global f c' actions) : Parts c r (.frameReceived .global text) c' actions
  | note {note emoji : Option String} {wall : Int64} :
      Parts c r (.setNote note emoji) { c with roster := (c.roster.setNote note emoji wall).1 }
        (c.sendGlobal (some (c.roster.setNote note emoji wall).2) ++
          [.presenceChanged [c.identity.user]])

theorem frameReceived_parts (c : Client) (r : Reading) (a : Address) (text : String) :
    Parts c r (.frameReceived a text) (c.frameReceived r a text).1
      (c.frameReceived r a text).2 := by
  rcases c.ignores_or_takes r a text with ignores | ⟨f, c', actions, held, decodes, takes⟩
  · have hoperations : c.operations r (.frameReceived a text) = [] := ignores.frameOperations r
    rw [ignores.frameReceived r]
    exact .moves (hoperations ▸ .nil c)
  · have hoperations : c.operations r (.frameReceived a text) = f.operations r.now :=
      takes.frameOperations held decodes
    rw [takes.frameReceived held decodes]
    cases a with
    | global => exact .global takes
    | room room =>
        refine .moves (hoperations ▸ ?_)
        cases takes with
        | message active m => exact .chat (.received m) rfl
        | typing active user nickname => exact .chat (.otherTyping user nickname r.now) rfl
        | stoppedTyping active user => exact .chat (.otherStopped user) rfl

/-- What an event that is handled is made of. -/
theorem handle_parts (ok : c.handle r e = .ok (c', actions)) : Parts c r e c' actions := by
  cases e with
  | start => exact .moves (start_moves ok)
  | shutdown => exact .moves (shutdown_moves ok)
  | transportOpened a =>
      cases ok
      exact .moves (.board c _ _)
  | transportClosed a => exact .moves (transportClosed_moves ok)
  | frameReceived a text =>
      have hframe : c.frameReceived r a text = (c', actions) := Except.ok.inj ok
      have hparts := frameReceived_parts c r a text
      rwa [hframe] at hparts
  | tick now =>
      cases ok
      exact .moves (tick_moves c now)
  | enterRoom room => exact .moves (enterRoom_moves ok)
  | leaveRoom => exact .moves (leaveRoom_moves ok)
  | loadOlder =>
      cases ok
      exact .moves (.chat .loadOlder rfl)
  | reloadHistory =>
      cases ok
      exact .moves (.chat .loadNewest rfl)
  | send text => exact .moves (send_moves ok)
  | input text =>
      cases ok
      exact .moves (.chat (.input text r.now) rfl)
  | activity =>
      cases ok
      exact .moves (activity_moves c r)
  | setAvailability availability =>
      cases ok
      exact .moves (sendGlobal_moves c _)
  | setNote note emoji =>
      obtain ⟨wall, -, rfl, rfl⟩ := setNote_eq_ok ok
      exact .note
  | watch users => exact .moves (watch_moves ok)
  | historyLoaded q result =>
      cases ok
      exact .moves (.chat (.historyLoaded q result) rfl)
  | posted q result =>
      cases ok
      exact .moves (.chat (.posted q result) rfl)

/-- The conversation goes through the operations that the event amounts to, and conveys by the
actions what they ask for and tell. -/
theorem handle_conveys (ok : c.handle r e = .ok (c', actions)) :
    Conveys c (c.operations r e) c' actions := by
  cases handle_parts ok with
  | moves moves => exact moves.conveys
  | @global text f _ _ takes =>
      have hnone : c.operations r (.frameReceived .global text) = [] := if_pos (.inr (by simp))
      rw [hnone]
      exact .still takes.conversation_global takes.effectsIn_global
  | note => exact .still rfl (by rw [effectsIn_append, effectsIn_sendGlobal]; rfl)

/-! ## The operations of an event -/

/-- Whether an event ends a stay in the room. -/
def Event.Leaves (room : Room) : Event → Prop
  | .leaveRoom | .shutdown => True
  | .enterRoom other => other ≠ room
  | _ => False

/-- The event amounts to one operation within the stay. What comes from others counts only on the
channel of the active room. -/
inductive Does (c : Client) (r : Reading) : Event → Conversation.Operation → Prop
  | received {room : Room} {text : String} {m : Message} (active : c.room? = some room)
      (decodes : ServerFrame.decode text = some (.message m)) :
      Does c r (.frameReceived (.room room) text) (.received m)
  | typing {room : Room} {text : String} {user : UserId} {nickname : String}
      (active : c.room? = some room)
      (decodes : ServerFrame.decode text = some (.typing user nickname)) :
      Does c r (.frameReceived (.room room) text) (.otherTyping user nickname r.now)
  | stoppedTyping {room : Room} {text : String} {user : UserId} (active : c.room? = some room)
      (decodes : ServerFrame.decode text = some (.stoppedTyping user)) :
      Does c r (.frameReceived (.room room) text) (.otherStopped user)
  | tick (now : Instant) : Does c r (.tick now) (.tick now)
  | loadOlder : Does c r .loadOlder .loadOlder
  | reloadHistory : Does c r .reloadHistory .loadNewest
  | send {wall : Int64} (clock : r.wall = some wall) (text : String) :
      Does c r (.send text) (.send text r.now wall c.isRoomLive)
  | input (text : String) : Does c r (.input text) (.input text r.now)
  | historyLoaded (q : HistoryRequest) (result : Except RequestError Page) :
      Does c r (.historyLoaded q result) (.historyLoaded q result)
  | posted (q : PostRequest) (result : Except RequestError Message) :
      Does c r (.posted q result) (.posted q result)

/-- What an event amounts to: nothing, the end of the stay, the beginning of one, both, or one
operation within it. -/
inductive Amounts (c : Client) (r : Reading) : Event → List Conversation.Operation → Prop
  | nothing {e : Event} (stays : ∀ room, c.room? = some room → ¬ e.Leaves room) : Amounts c r e []
  | leaves {room : Room} {e : Event} (active : c.room? = some room) (leaves : e.Leaves room)
      (vacates : ∀ room, e ≠ .enterRoom room) : Amounts c r e [.stopTyping, .leave]
  | enters {room : Room} (vacant : c.room? = none) : Amounts c r (.enterRoom room) [.enter room]
  | switches {old room : Room} (active : c.room? = some old) (other : room ≠ old) :
      Amounts c r (.enterRoom room) [.stopTyping, .enter room]
  | within {e : Event} {op : Conversation.Operation} (does : Does c r e op) : Amounts c r e [op]

theorem Does.stays {op : Conversation.Operation} (h : Does c r e op) :
    op.switches = false ∧ ∀ room, ¬ e.Leaves room := by
  cases h <;> exact ⟨rfl, fun _ => id⟩

theorem Does.same_stay {op : Conversation.Operation} {conversation : Conversation}
    {effects : List ChatEffect} (h : Does c r e op)
    (perform : c.conversation.perform op = .ok (conversation, effects)) :
    conversation.room = c.conversation.room ∧ conversation.stay = c.conversation.stay ∧
      conversation.RequestsOf effects :=
  Conversation.perform_stays perform h.stays.1

theorem leaveOperations_amounts (leaves : ∀ room, e.Leaves room)
    (vacates : ∀ room, e ≠ .enterRoom room) : Amounts c r e c.leaveOperations := by
  unfold leaveOperations
  cases hroom : c.room? with
  | none => exact .nothing fun room active => absurd (hroom.symm.trans active) nofun
  | some room => exact .leaves hroom (leaves room) vacates

theorem frameOperations_amounts (c : Client) (r : Reading) (a : Address) (text : String) :
    Amounts c r (.frameReceived a text) (c.frameOperations r a text) := by
  have nothing : Amounts c r (.frameReceived a text) [] := .nothing fun _ _ => id
  unfold frameOperations
  split
  · exact nothing
  · next hplace =>
    obtain ⟨-, hroom⟩ := not_or.1 hplace
    obtain ⟨room, active, rfl⟩ := Option.map_eq_some_iff.1 (Decidable.not_not.1 hroom)
    split
    · next m decodes => exact .within (.received active decodes)
    · next user nickname decodes => exact .within (.typing active decodes)
    · next user decodes => exact .within (.stoppedTyping active decodes)
    · exact nothing

theorem operations_amounts (c : Client) (r : Reading) (e : Event) :
    Amounts c r e (c.operations r e) := by
  cases e with
  | shutdown | leaveRoom => exact leaveOperations_amounts (fun _ => trivial) nofun
  | frameReceived a text => exact frameOperations_amounts c r a text
  | enterRoom room =>
      show Amounts c r (.enterRoom room) (c.enterOperations room)
      unfold enterOperations
      split
      · next hsame =>
        refine .nothing fun other active => ?_
        rw [hsame] at active
        exact not_not_intro (Option.some.inj active)
      · next hother =>
        cases hroom : c.room? with
        | none => exact .enters hroom
        | some old => exact .switches hroom fun heq => hother (heq ▸ hroom)
  | send text =>
      unfold operations
      cases hwall : r.wall with
      | none => exact .nothing fun _ _ => id
      | some wall => exact .within (.send hwall text)
  | tick now => exact .within (.tick now)
  | loadOlder => exact .within .loadOlder
  | reloadHistory => exact .within .reloadHistory
  | input text => exact .within (.input text)
  | historyLoaded q result => exact .within (.historyLoaded q result)
  | posted q result => exact .within (.posted q result)
  | _ => exact .nothing fun _ _ => id

/-- What an event makes of the conversation, and the effects that this has. -/
inductive Passes (c : Client) (r : Reading) : Event → Conversation → List ChatEffect → Prop
  | rests {e : Event} (stays : ∀ room, c.room? = some room → ¬ e.Leaves room) :
      Passes c r e c.conversation []
  | leaves {room : Room} {e : Event} (active : c.room? = some room) (leaves : e.Leaves room)
      (vacates : ∀ room, e ≠ .enterRoom room) : Passes c r e c.conversation.leave.1
        (c.conversation.stopTyping.2 ++ c.conversation.leave.2)
  | enters {room : Room} (vacant : c.room? = none) :
      Passes c r (.enterRoom room) (c.conversation.enter room).1 (c.conversation.enter room).2
  | switches {old room : Room} (active : c.room? = some old) (other : room ≠ old) :
      Passes c r (.enterRoom room) (c.conversation.enter room).1
        (c.conversation.stopTyping.2 ++ (c.conversation.enter room).2)
  | does {e : Event} {op : Conversation.Operation} {conversation : Conversation}
      {effects : List ChatEffect} (does : Does c r e op)
      (perform : c.conversation.perform op = .ok (conversation, effects)) :
      Passes c r e conversation effects

theorem Amounts.passes {conversation : Conversation} {effects : List ChatEffect}
    (amounts : Amounts c r e ops) (enacts : c.conversation.Enacts ops effects conversation) :
    Passes c r e conversation effects := by
  cases amounts with
  | nothing stays =>
      obtain ⟨rfl, rfl⟩ := enacts.of_nil
      exact .rests stays
  | @leaves room _ active leaves vacates =>
      obtain ⟨stopped, first, rest, hstop, hleave, rfl⟩ := enacts.of_cons
      obtain ⟨rfl, rfl⟩ := Conversation.eq_of_ok hstop
      obtain ⟨rfl, rfl⟩ := Conversation.eq_of_ok hleave.of_one
      have hsame : c.conversation.stopTyping.1.leave = c.conversation.leave := by
        have hroom : c.conversation.room = some room := active
        simp [Conversation.leave, Conversation.stopTyping, Conversation.reset, hroom]
      rw [hsame]
      exact .leaves active leaves vacates
  | enters vacant =>
      obtain ⟨rfl, rfl⟩ := Conversation.eq_of_ok enacts.of_one
      exact .enters vacant
  | switches active other =>
      obtain ⟨stopped, first, rest, hstop, henter, rfl⟩ := enacts.of_cons
      obtain ⟨rfl, rfl⟩ := Conversation.eq_of_ok hstop
      obtain ⟨rfl, rfl⟩ := Conversation.eq_of_ok henter.of_one
      exact .switches active other
  | within does => exact .does does enacts.of_one

/-- The conversation becomes what the event makes of it, and what that asks for and tells stands
among the actions. -/
theorem handle_passes (ok : c.handle r e = .ok (c', actions)) :
    ∃ effects, Passes c r e c'.conversation effects ∧
      effectsIn actions = effects.filter (!·.isTransmit) := by
  obtain ⟨effects, henacts, hin⟩ := handle_conveys ok
  exact ⟨effects, (operations_amounts c r e).passes henacts, hin⟩

end Client

end LiveChat
