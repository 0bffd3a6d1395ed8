import LiveChat.Proofs.Chat.Signal
import LiveChat.Proofs.Client.Origin
import LiveChat.Proofs.Client.Transport

/-!
# Typing on the channel of a room

What the user's typing comes to on the channel of a room. While that channel is live, all that the
conversation tells of typing goes out there, and nothing else that goes out there is of typing. So
the channel carries whole bursts and at most one that is still open, which ends before the channel
is given up.
-/

namespace LiveChat

/-! ## Links -/

/-- Nothing is told of typing. -/
def LinkAction.isSilent : LinkAction → Bool
  | .sending _ f => !f.isSignal
  | _ => true

theorem LinkAction.isSilent_of_isWatch {a : Address} {f : ClientFrame} (h : f.isWatch = true) :
    (sending a f).isSilent = true := by
  cases f with
  | watch => rfl
  | _ => cases h

namespace Transport

/-- What the transport had come to is not given up. -/
structure Rises (t t' : Transport) : Prop where
  busy : t ≠ .idle → t' ≠ .idle
  up : t = .up → t' = .up

theorem Rises.of_eq {t t' : Transport} (h : t' = t) : t.Rises t' := by
  subst h
  exact ⟨id, id⟩

theorem Rises.of_idle (t' : Transport) : idle.Rises t' := ⟨absurd rfl, nofun⟩

theorem opened_rises (t : Transport) : t.Rises t.opened := by
  cases t <;> constructor <;> simp [opened]

end Transport

namespace Link

theorem tick_rises (l : Link) (now : Instant) : l.transport.Rises (l.tick now).1.transport := by
  unfold tick
  cases hphase : l.phase with
  | down | opening => exact .of_eq rfl
  | live beatAt =>
      dsimp only
      split
      · exact .of_eq (by simp [transport, hphase])
      · exact .of_eq rfl
  | waiting since delay =>
      have hidle : l.transport = .idle := by simp [transport, hphase]
      rw [hidle]
      exact .of_idle _

theorem close_of_busy {l : Link} (busy : l.transport ≠ .idle) :
    l.close.2 = [.closing l.address] := by
  rw [transport_ne_idle_iff] at busy
  unfold close
  cases hphase : l.phase with
  | down | waiting => simp [isLive, hphase] at busy
  | opening | live => rfl

end Link

namespace Switchboard

variable {b b' : Switchboard} {a : Address} {actions : List LinkAction}

/-- The first holder asks for the transport. -/
theorem acquire_transports (unheld : b.lines.find? a = none) :
    (b.acquire a).1.transports = Function.update b.transports a .asked := by
  unfold acquire
  rw [unheld]
  exact transports_insert a _

theorem acquire_transports_of_ne {a' : Address} (other : a' ≠ a) :
    (b.acquire a).1.transports a' = b.transports a' := by
  unfold acquire
  split <;> rw [transports_insert, Function.update_of_ne other]

theorem opened_rises (b : Switchboard) (a a' : Address) (now : Instant) :
    (b.transports a').Rises ((b.opened a now).1.transports a') := by
  unfold opened
  cases hline : b.lines.find? a with
  | none => exact .of_eq rfl
  | some line =>
      rw [transports_setLink, Link.opened_transport, ← transports_of_line hline]
      by_cases heq : a' = a
      · subst heq
        rw [Function.update_self]
        exact Transport.opened_rises _
      · exact .of_eq (Function.update_of_ne heq _ _)

theorem tick_rises (b : Switchboard) (a : Address) (now : Instant) :
    (b.transports a).Rises ((b.tick now).1.transports a) := by
  cases hline : b.lines.find? a with
  | none => exact .of_eq (by simp [transports, link?, tick, Table.find?_map, hline])
  | some line =>
      have hticked : (b.tick now).1.transports a = (line.link.tick now).1.transport := by
        simp [transports, link?, tick, Table.find?_map, hline]
      rw [hticked, transports_of_line hline]
      exact line.link.tick_rises now

/-- The only holder gives up the transport. -/
theorem Sound.release_of_busy (h : b.Sound) (ok : b.release a = .ok (b', actions))
    (only : b.holders a = 1) (busy : b.transports a ≠ .idle) : actions = [.closing a] := by
  obtain ⟨line, hline, ⟨shared, -, -⟩ | ⟨-, rfl, -⟩⟩ := release_cases ok
  · simp only [holders, hline, Option.map_some, Option.getD_some] at only
    omega
  · rw [transports_of_line hline] at busy
    rw [Link.close_of_busy busy, (h a line hline).address]

end Switchboard

namespace Client

variable {identity : Identity} {settings : LinkSettings} {room : Room} {c c' d : Client}
  {r : Reading} {e : Event} {actions actions' : List Action} {log : List Turn} {writes : Bool}

/-! ## What actions tell -/

/-- What an action tells of typing on the channel of the room. -/
def Action.signal? (room : Room) : Action → Option ClientFrame
  | .sendFrame a text =>
    if a = .room room then (ClientFrame.decode text).filter ClientFrame.isSignal else none
  | _ => none

def signals (room : Room) (actions : List Action) : List ClientFrame :=
  actions.filterMap (Action.signal? room)

theorem signals_append (room : Room) (actions actions' : List Action) :
    signals room (actions ++ actions') = signals room actions ++ signals room actions' :=
  List.filterMap_append

theorem signals_of_inward (h : ∀ x ∈ actions, x.isRequest = false) : signals room actions = [] := by
  refine List.filterMap_eq_nil_iff.2 fun x hx => ?_
  have hinward := h x hx
  cases x with
  | sendFrame => cases hinward
  | _ => rfl

theorem signals_ofLinks_of_silent {actions : List LinkAction}
    (h : ∀ x ∈ actions, x.isSilent = true) : signals room (ofLinks actions) = [] := by
  refine List.filterMap_eq_nil_iff.2 fun x hx => ?_
  obtain ⟨y, hy, rfl⟩ := List.mem_map.1 hx
  have hsilent := h y hy
  cases y with
  | sending a f =>
      have hother : f.isSignal = false := by simpa [LinkAction.isSilent] using hsilent
      simp [Action.ofLink, Action.signal?, ClientFrame.decode_encode, Option.filter, hother]
  | _ => rfl

theorem signals_sending (room : Room) (a : Address) (f : ClientFrame) :
    signals room (ofLinks [.sending a f]) =
      if a = .room room then (ChatEffect.transmit f).signal?.toList else [] := by
  have hone : signals room (ofLinks [.sending a f]) =
      (Action.signal? room (.sendFrame a f.encode)).toList := by
    unfold signals ofLinks
    cases hsignal : Action.signal? room (.sendFrame a f.encode) <;>
      simp [Action.ofLink, hsignal]
  rw [hone, Action.signal?, ClientFrame.decode_encode]
  split <;> rfl

theorem signals_send {b : Switchboard} (h : b.Sound) (room : Room) (a : Address)
    (f : ClientFrame) : signals room (ofLinks (b.send a f)) =
      if a = .room room ∧ b.isLive a = true then (ChatEffect.transmit f).signal?.toList
      else [] := by
  rw [h.send_eq]
  cases b.isLive a with
  | false => simp [ofLinks, signals]
  | true => simp [signals_sending]

theorem sendGlobal_signals (h : c.switchboard.Sound) (room : Room) (frame : Option ClientFrame) :
    signals room (c.sendGlobal frame) = [] := by
  cases frame with
  | none => rfl
  | some f => exact (signals_send h room .global f).trans (if_neg nofun)

theorem effectActions_signals (h : c.switchboard.Sound) (room : Room) (effect : ChatEffect) :
    signals room (c.effectActions effect) =
      if c.room? = some room ∧ c.switchboard.isLive (.room room) = true then effect.signal?.toList
      else [] := by
  cases effect with
  | transmit f =>
      unfold effectActions
      dsimp only
      cases c.room? with
      | none => simp [signals]
      | some other =>
          dsimp only
          rw [signals_send h]
          by_cases heq : other = room
          · subst heq
            simp
          · simp [heq]
  | _ => split <;> rfl

/-- What the conversation tells goes out on the channel of its room while that is live. -/
theorem applyChat_signals (h : c.switchboard.Sound) (room : Room)
    (step : Conversation × List ChatEffect) : signals room (c.applyChat step).2 =
      if step.1.room = some room ∧ c.switchboard.isLive (.room room) = true then
        Conversation.signalsIn step.2
      else [] := by
  obtain ⟨conversation, effects⟩ := step
  let after : Client := { c with conversation }
  let Heard : Prop := conversation.room = some room ∧ c.switchboard.isLive (.room room) = true
  have heffect : ∀ effect, signals room (after.effectActions effect) =
      if Heard then effect.signal?.toList else [] := effectActions_signals (c := after) h room
  show signals room (effects.flatMap after.effectActions) =
    if Heard then Conversation.signalsIn effects else []
  induction effects with
  | nil => split <;> rfl
  | cons effect effects ih =>
      rw [List.flatMap_cons, signals_append, heffect, ih]
      by_cases heard : Heard
      · rw [if_pos heard, if_pos heard, if_pos heard]
        cases hsignal : effect.signal? <;> simp [Conversation.signalsIn, hsignal]
      · rw [if_neg heard, if_neg heard, if_neg heard]
        rfl

theorem applyChat_signals_of_silent (h : c.switchboard.Sound) (room : Room)
    {step : Conversation × List ChatEffect} (silent : Conversation.signalsIn step.2 = []) :
    signals room (c.applyChat step).2 = [] := by
  rw [applyChat_signals h, silent, ite_self]

/-! ## Turns within a stay -/

def Event.isInput : Event → Bool
  | .input _ => true
  | _ => false

/-- The stay in the room goes on. -/
structure Remains (room : Room) (writes : Bool) (c c' : Client) (actions : List Action) : Prop where
  active : c'.room? = some room
  rises : (c.switchboard.transports (.room room)).Rises (c'.switchboard.transports (.room room))
  signals : Signals writes c.conversation.isTyping (signals room actions) c'.conversation.isTyping

namespace Remains

theorem refl (active : c.room? = some room) : Remains room writes c c [] :=
  ⟨active, .of_eq rfl, .still _⟩

/-- What the channels and the clocks do stands before. -/
theorem prepend (h : Remains room writes d c' actions')
    (same : d.conversation = c.conversation)
    (rises : (c.switchboard.transports (.room room)).Rises (d.switchboard.transports (.room room)))
    (silent : Client.signals room actions = []) :
    Remains room writes c c' (actions ++ actions') := by
  refine ⟨h.active, ⟨h.rises.busy ∘ rises.busy, h.rises.up ∘ rises.up⟩, ?_⟩
  rw [signals_append, silent, ← same]
  exact h.signals

theorem quiet (active : c.room? = some room) (same : c'.conversation = c.conversation)
    (rises : (c.switchboard.transports (.room room)).Rises (c'.switchboard.transports (.room room)))
    (silent : Client.signals room actions = []) : Remains room writes c c' actions := by
  have active' : c'.room? = some room := by
    rw [room?, same]
    exact active
  exact List.append_nil actions ▸ (refl active').prepend same rises silent

/-- An operation tells of typing only if the user types or writes, and then the channel is live. -/
theorem chat (h : c.switchboard.Sound) (active : c.room? = some room)
    (op : Conversation.Operation) {step : Conversation × List ChatEffect}
    (perform : c.conversation.perform op = .ok step) (stays : op.switches = false)
    (live : c.conversation.isTyping = true ∨ op.isInput = true →
      c.switchboard.isLive (.room room) = true) :
    Remains room op.isInput c (c.applyChat step).1 (c.applyChat step).2 := by
  obtain ⟨conversation, effects⟩ := step
  have active' : conversation.room = some room :=
    (Conversation.perform_stays perform stays).1.trans active
  have hsignals := Conversation.perform_signals perform stays
  refine ⟨active', .of_eq rfl, ?_⟩
  rw [applyChat_signals h]
  show Signals _ _ (if conversation.room = some room ∧ _ then _ else _) conversation.isTyping
  by_cases hlive : c.switchboard.isLive (.room room) = true
  · rw [if_pos ⟨active', hlive⟩]
    exact hsignals
  · rw [if_neg fun both => hlive both.2]
    obtain ⟨htyping, hinput⟩ := not_or.1 (mt live hlive)
    rw [Bool.not_eq_true] at htyping hinput
    rw [htyping, hinput] at hsignals ⊢
    generalize Conversation.signalsIn effects = told, conversation.isTyping = typing at hsignals ⊢
    cases hsignals with
    | still => exact .still _
    | begins written => cases written

end Remains

theorem Footprint.signal (h : Footprint c c') :
    c'.conversation.signal = c.conversation.signal ∧ c'.room? = c.room? := by
  unfold Footprint at h
  rw [h]
  exact ⟨rfl, rfl⟩

/-- Others' typing is no concern of the user's own. -/
theorem frameReceived_remains {a : Address} {text : String} (active : c.room? = some room)
    (came : c.frameReceived r a text = (c', actions)) : Remains room writes c c' actions := by
  have hfootprint : Footprint c (c', actions).1 := came ▸ frameReceived_footprint
  have hinward : ∀ x ∈ (c', actions).2, x.isRequest = false := came ▸ frameReceived_inward
  obtain ⟨hsignal, hroom⟩ := hfootprint.signal
  refine ⟨hroom.trans active, .of_eq (by rw [hfootprint.switchboard]), ?_⟩
  rw [signals_of_inward hinward, Conversation.isTyping, Conversation.isTyping, hsignal]
  exact .still _

theorem start_remains (active : c.room? = some room) (ok : c.start = .ok (c', actions)) :
    Remains room writes c c' actions := by
  rcases start_cases ok with ⟨-, rfl, rfl⟩ | ⟨-, hkeep, rfl⟩
  · exact .refl active
  · have hsilent : signals room (ofLinks (c.switchboard.acquire .global).2) = [] :=
      signals_ofLinks_of_silent (Switchboard.acquire_asks rfl)
    have hsame : c'.switchboard.transports (.room room) =
        c.switchboard.transports (.room room) := by
      rw [keepGlobal_transports hkeep]
      exact Switchboard.acquire_transports_of_ne nofun
    obtain ⟨b, rfl⟩ := keepGlobal_eq hkeep
    exact .quiet active rfl (.of_eq hsame) hsilent

namespace Sound

theorem watch_remains (h : c.Sound identity settings) (active : c.room? = some room)
    {users : List UserId} (ok : c.watch users = .ok (c', actions)) :
    Remains room writes c c' actions := by
  have hsound := (h.handles (r := ⟨.zero, none⟩) (e := .watch users) ok).sound
  rcases watch_cases ok with ⟨roster, -, rfl, rfl⟩ | ⟨roster, frame, -, rfl, hkept⟩
  · exact .quiet active rfl (.of_eq rfl) rfl
  · have hsilent := sendGlobal_signals hsound.switchboard room (some frame)
    rcases hkept with ⟨-, hkeep⟩ | ⟨-, rfl⟩
    · have hsame := keepGlobal_transports hkeep
      obtain ⟨b, rfl⟩ := keepGlobal_eq hkeep
      exact .quiet active rfl (.of_eq (congrFun hsame _)) hsilent
    · exact .quiet active rfl (.of_eq rfl) hsilent

theorem tick_remains (h : c.Sound identity settings) (active : c.room? = some room)
    (live : c.conversation.isTyping = true → c.switchboard.isLive (.room room) = true)
    (now : Instant) : Remains room false c (c.tick now).1 (c.tick now).2 := by
  let ticked : Client := { c with
    switchboard := (c.switchboard.tick now).1
    roster := (c.roster.tick now).1 }
  have hrises := c.switchboard.tick_rises (.room room) now
  have hsound : ticked.switchboard.Sound := (h.ticked now).switchboard
  have hchat : Remains room false ticked (ticked.applyChat (c.conversation.tick now)).1
      (ticked.applyChat (c.conversation.tick now)).2 := by
    refine .chat hsound active (.tick now) rfl rfl fun h => ?_
    have htyping : c.conversation.isTyping = true := h.resolve_right nofun
    rw [← Switchboard.transports_eq_up_iff] at live ⊢
    exact hrises.up (live htyping)
  have hlinks : signals room (ofLinks (c.switchboard.tick now).2) = [] :=
    signals_ofLinks_of_silent (Switchboard.tick_asks (fun _ => rfl) (fun _ => rfl) now)
  refine hchat.prepend rfl hrises ?_
  show signals room (ofLinks (c.switchboard.tick now).2 ++
    ticked.sendGlobal (c.roster.tick now).2) = []
  rw [signals_append, hlinks, sendGlobal_signals hsound]
  rfl

/-- What an event does that neither ends the stay nor takes the channel of the room away. -/
theorem remains (h : c.Sound identity settings) (active : c.room? = some room)
    (ok : c.handle r e = .ok (c', actions)) (stays : ¬ e.Leaves room)
    (kept : e ≠ .transportClosed (.room room))
    (live : c.conversation.isTyping = true ∨ e.isInput = true →
      c.switchboard.isLive (.room room) = true) :
    Remains room e.isInput c c' actions := by
  have chat : ∀ (op : Conversation.Operation) {step : Conversation × List ChatEffect},
      c.conversation.perform op = .ok step → op.switches = false → op.isInput = e.isInput →
      Remains room e.isInput c (c.applyChat step).1 (c.applyChat step).2 := by
    intro op step perform hstays hinput
    exact hinput ▸ Remains.chat h.switchboard active op perform hstays (hinput ▸ live)
  cases e with
  | start => exact start_remains active ok
  | shutdown | leaveRoom => exact absurd trivial stays
  | transportOpened a =>
      cases ok
      exact .quiet active rfl (Switchboard.opened_rises _ _ _ _)
        (signals_ofLinks_of_silent (h.switchboard.opened_asks (by rfl)
          (fun f watch => LinkAction.isSilent_of_isWatch watch) r.now))
  | transportClosed a =>
      obtain ⟨b, entropy, hlost, rfl, rfl⟩ := transportClosed_eq_ok ok
      have hother : Address.room room ≠ a := fun heq => kept (heq ▸ rfl)
      refine .quiet active rfl (.of_eq ?_) rfl
      rw [Switchboard.lost_transports hlost, Function.update_of_ne hother]
  | frameReceived a text =>
      have came : c.frameReceived r a text = (c', actions) := Except.ok.inj ok
      exact frameReceived_remains active came
  | tick now =>
      cases ok
      exact h.tick_remains active (live ∘ .inl) now
  | enterRoom other =>
      obtain rfl : other = room := Decidable.not_not.1 stays
      have hsame : c.enterRoom other = .ok (c, []) := if_pos active
      cases hsame.symm.trans ok
      exact .refl active
  | loadOlder =>
      cases ok
      exact chat .loadOlder rfl rfl rfl
  | reloadHistory =>
      cases ok
      exact chat .loadNewest rfl rfl rfl
  | send text =>
      obtain ⟨wall, step, -, hstep, rfl, rfl⟩ := send_eq_ok ok
      exact chat (.send text r.now wall c.isRoomLive) hstep rfl rfl
  | input text =>
      cases ok
      exact chat (.input text r.now) rfl rfl rfl
  | activity =>
      cases ok
      exact .quiet active rfl (.of_eq rfl) (sendGlobal_signals h.switchboard room _)
  | setAvailability availability =>
      cases ok
      exact .quiet active rfl (.of_eq rfl) (sendGlobal_signals h.switchboard room _)
  | setNote note emoji =>
      obtain ⟨wall, -, rfl, rfl⟩ := setNote_eq_ok ok
      refine .quiet active rfl (.of_eq rfl) ?_
      rw [signals_append, sendGlobal_signals h.switchboard]
      rfl
  | watch users => exact h.watch_remains active ok
  | historyLoaded q result =>
      cases ok
      exact chat (.historyLoaded q result) rfl rfl rfl
  | posted q result =>
      cases ok
      exact chat (.posted q result) rfl rfl rfl

end Sound

/-! ## How a stay begins -/

namespace SoundIn

/-- Nothing was held of the room that is entered, so its transport is asked for. -/
theorem join_transports (h : c.SoundIn identity settings none) (released : List Action)
    (room : Room) : (c.join released room).1.switchboard.transports (.room room) = .asked := by
  have hunheld : c.switchboard.lines.find? (.room room) = none := by
    rw [← Option.not_isSome_iff_eq_none, ← Switchboard.link?_isSome,
      h.switchboard.link?_isSome_iff, h.rooms]
    exact Nat.lt_irrefl 0
  show (c.switchboard.acquire (.room room)).1.transports (.room room) = .asked
  rw [Switchboard.acquire_transports hunheld, Function.update_self]

/-- What is done to enter a room comes last, and tells nothing. -/
theorem join_silent (h : c.SoundIn identity settings none) (released : List Action)
    (joined : Room) : ∃ joining, (c.join released joined).2 = released ++ joining ∧
      ∀ room, signals room joining = [] := by
  let acquired : Client := { c with switchboard := (c.switchboard.acquire (.room joined)).1 }
  let opened := ofLinks (c.switchboard.acquire (.room joined)).2
  let entered := (acquired.applyChat (c.conversation.enter joined)).2
  refine ⟨opened ++ entered, List.append_assoc .., fun room => ?_⟩
  have hopened : signals room opened = [] :=
    signals_ofLinks_of_silent (Switchboard.acquire_asks rfl)
  have hentered : signals room entered = [] :=
    applyChat_signals_of_silent (h.acquireRoom joined).switchboard room rfl
  rw [signals_append, hopened, hentered]
  rfl

/-- Where one room is let go of, nothing is told on the channel of another. -/
theorem releaseRoom_signals {old : Room} (h : c.SoundIn identity settings (some old))
    (active : c.room? = some old) (other : old ≠ room)
    (ok : c.releaseRoom old = .ok (c', actions)) : signals room actions = [] := by
  obtain ⟨b, closing, hrelease, -, rfl⟩ := releaseRoom_eq_ok ok
  have hroom : c.conversation.stopTyping.1.room = some old := active
  rw [signals_append, signals_ofLinks_of_silent (Switchboard.release_asks hrelease fun _ => rfl),
    applyChat_signals h.switchboard, if_neg]
  · rfl
  · rw [hroom]
    exact fun talks => other (Option.some.inj talks.1)

end SoundIn

/-- The room has just been entered, and nothing is told there yet. -/
structure Begins (room : Room) (c : Client) (actions : List Action) : Prop where
  active : c.room? = some room
  asked : c.switchboard.transports (.room room) = .asked
  silent : c.conversation.isTyping = false
  untold : signals room actions = []

theorem SoundIn.join_begins (h : c.SoundIn identity settings none) {released : List Action}
    (untold : signals room released = []) :
    Begins room (c.join released room).1 (c.join released room).2 := by
  obtain ⟨joining, heq, hjoining⟩ := h.join_silent released room
  refine ⟨rfl, h.join_transports released room, rfl, ?_⟩
  rw [heq, signals_append, untold, hjoining]
  rfl

theorem Sound.begins (h : c.Sound identity settings) (away : c.room? ≠ some room)
    (ok : c.enterRoom room = .ok (c', actions)) : Begins room c' actions := by
  rcases enterRoom_cases ok with
    ⟨hroom, -, -⟩ | ⟨hroom, rfl, rfl⟩ | ⟨old, left, released, hroom, -, hrelease, rfl, rfl⟩
  · exact absurd hroom away
  · rw [Sound, hroom] at h
    exact h.join_begins rfl
  · rw [Sound, hroom] at h
    have hother : old ≠ room := fun heq => away (heq ▸ hroom)
    exact (h.released hrelease).join_begins (h.releaseRoom_signals hroom hother hrelease)

/-! ## How a stay ends -/

/-- The channel of the room is given up once, after all that is told there of typing. -/
def Ends (room : Room) (typing : Bool) (actions : List Action) : Prop :=
  ∃ before after, actions = before ++ .closeTransport (.room room) :: after ∧
    .closeTransport (.room room) ∉ before ∧ Signals false typing (signals room before) false ∧
    signals room after = []

theorem Ends.append {typing : Bool} (h : Ends room typing actions)
    (silent : signals room actions' = []) : Ends room typing (actions ++ actions') := by
  obtain ⟨before, after, rfl, first, hends, rest⟩ := h
  refine ⟨before, after ++ actions', by simp, first, hends, ?_⟩
  rw [signals_append, rest, silent]
  rfl

theorem Action.Still.not_closing {w : Transports} {a : Address} {x : Action} (h : x.Still w) :
    x ≠ .closeTransport a := by
  rintro rfl
  refine h.permitted ?_
  have hidle := congrFun h.same a
  rw [← hidle]
  exact Function.update_self ..

namespace SoundIn

theorem releaseRoom_ends (h : c.SoundIn identity settings (some room))
    (active : c.room? = some room) (busy : c.switchboard.transports (.room room) ≠ .idle)
    (live : c.conversation.isTyping = true → c.switchboard.isLive (.room room) = true)
    (ok : c.releaseRoom room = .ok (c', actions)) :
    Ends room c.conversation.isTyping actions := by
  obtain ⟨b, closing, hrelease, -, rfl⟩ := releaseRoom_eq_ok ok
  have honly : c.switchboard.holders (.room room) = 1 := (h.rooms room).trans (if_pos rfl)
  have hstops : Remains room false c (c.applyChat c.conversation.stopTyping).1
      (c.applyChat c.conversation.stopTyping).2 :=
    .chat h.switchboard active .stopTyping rfl rfl fun typing => live (typing.resolve_right nofun)
  refine ⟨_, [], ?_, fun hclosing => ?_, hstops.signals, rfl⟩
  · rw [h.switchboard.release_of_busy hrelease honly busy]
    rfl
  · exact (h.applyChat_still _ _ hclosing).not_closing rfl

end SoundIn

theorem Event.Leaves.inRange (h : e.Leaves room) : ¬ c.OutOfRange r e := by
  cases e with
  | leaveRoom | shutdown | enterRoom => exact id
  | _ => cases h

namespace Sound

theorem leaveRoom_ends (h : c.Sound identity settings) (active : c.room? = some room)
    (busy : c.switchboard.transports (.room room) ≠ .idle)
    (live : c.conversation.isTyping = true → c.switchboard.isLive (.room room) = true)
    (ok : c.leaveRoom = .ok (c', actions)) : Ends room c.conversation.isTyping actions := by
  rw [Sound, active] at h
  rcases leaveRoom_cases ok with
    ⟨hroom, -, -⟩ | ⟨old, left, released, hroom, hrelease, rfl, rfl⟩
  · rw [hroom] at active
    cases active
  · obtain rfl := Option.some.inj (hroom.symm.trans active)
    have hleft : Conversation.signalsIn left.conversation.leave.2 = [] := by
      unfold Conversation.leave
      split <;> rfl
    exact (h.releaseRoom_ends active busy live hrelease).append
      (applyChat_signals_of_silent (h.released hrelease).switchboard old hleft)

/-- An event that ends the stay is handled, and ends what is told of typing. -/
theorem ends (h : c.Sound identity settings) (active : c.room? = some room)
    (busy : c.switchboard.transports (.room room) ≠ .idle)
    (live : c.conversation.isTyping = true → c.switchboard.isLive (.room room) = true)
    (r : Reading) (leaves : e.Leaves room) :
    ∃ c' actions, c.handle r e = .ok (c', actions) ∧ Ends room c.conversation.isTyping actions := by
  obtain ⟨c', actions, ok⟩ := h.handle_of_inRange (r := r) leaves.inRange
  refine ⟨c', actions, ok, ?_⟩
  cases e with
  | leaveRoom => exact h.leaveRoom_ends active busy live ok
  | shutdown =>
      obtain ⟨left, leaving, hleave, rfl, rfl⟩ := shutdown_eq_ok ok
      exact (h.leaveRoom_ends active busy live hleave).append
        (signals_ofLinks_of_silent (Switchboard.closeAll_asks fun _ => rfl))
  | enterRoom next =>
      rcases enterRoom_cases ok with
        ⟨hroom, -, -⟩ | ⟨hroom, -, -⟩ | ⟨old, left, released, hroom, -, hrelease, rfl, rfl⟩
      · exact absurd (Option.some.inj (hroom.symm.trans active)) leaves
      · exact absurd (hroom.symm.trans active) nofun
      · obtain rfl := Option.some.inj (hroom.symm.trans active)
        rw [Sound, hroom] at h
        obtain ⟨joining, heq, hjoining⟩ := (h.released hrelease).join_silent released next
        rw [heq]
        exact (h.releaseRoom_ends active busy live hrelease).append (hjoining old)
  | _ => cases leaves

end Sound

/-! ## Stays -/

/-- What is told on the channel of the room during the turns. -/
def signalsDuring (room : Room) (log : List Turn) : List ClientFrame :=
  log.flatMap fun t => signals room t.actions

theorem signalsDuring_snoc (room : Room) (log : List Turn) (t : Turn) :
    signalsDuring room (log ++ [t]) = signalsDuring room log ++ signals room t.actions := by
  simp [signalsDuring]

/-- The turn in which the user first writes. -/
def firstInput? (log : List Turn) : Option Turn := log.find? (·.event.isInput)

theorem firstInput?_snoc (log : List Turn) (t : Turn) : firstInput? (log ++ [t]) =
    (firstInput? log).or (if t.event.isInput then some t else none) := by
  unfold firstInput?
  rw [List.find?_append]
  cases hinput : t.event.isInput <;> simp [hinput]

/-- A stay is its first turn, or one that goes on. -/
theorem IsStay.of_snoc {stay : List Turn} {t : Turn} (h : IsStay room (stay ++ [t])) :
    (stay = [] ∧ t.event = .enterRoom room ∧ t.before.room? ≠ some room) ∨
      IsStay room stay ∧ ¬ t.event.Leaves room := by
  obtain ⟨first, later, heq, enters, away, remains⟩ := h
  cases stay with
  | nil =>
      obtain ⟨rfl, rfl⟩ := List.cons.inj heq
      exact .inl ⟨rfl, enters, away⟩
  | cons x rest =>
      obtain ⟨rfl, rfl⟩ := List.cons.inj heq
      refine .inr ⟨⟨x, rest, rfl, enters, away, fun t' ht' => ?_⟩, remains t (by simp)⟩
      exact remains t' (List.mem_append_left _ ht')

/-- What was told during the stay, and that all of it could be told. -/
structure Talks (room : Room) (stay : List Turn) (c : Client) : Prop where
  active : c.room? = some room
  busy : c.switchboard.transports (.room room) ≠ .idle
  live : (firstInput? stay).isSome = true → c.switchboard.isLive (.room room) = true
  written : c.conversation.isTyping = true → (firstInput? stay).isSome = true
  bursts : Bursts (signalsDuring room stay) c.conversation.isTyping

namespace Talks

variable {stay : List Turn}

theorem begin (begins : Begins room c' actions) :
    Talks room [⟨c, r, .enterRoom room, actions⟩] c' where
  active := begins.active
  busy := by
    rw [begins.asked]
    nofun
  live := nofun
  written typing := absurd (typing.symm.trans begins.silent) nofun
  bursts := by
    rw [begins.silent, signalsDuring, List.flatMap_singleton, begins.untold]
    exact .none

theorem snoc (h : Talks room stay c) (sound : c.Sound identity settings)
    (ok : c.handle r e = .ok (c', actions)) (stays : ¬ e.Leaves room)
    (kept : e ≠ .transportClosed (.room room))
    (connected : ∀ t ∈ firstInput? (stay ++ [⟨c, r, e, actions⟩]),
      t.before.switchboard.isLive (.room room) = true) :
    Talks room (stay ++ [⟨c, r, e, actions⟩]) c' := by
  let t : Turn := ⟨c, r, e, actions⟩
  have hfirst := firstInput?_snoc stay t
  have hsome : (firstInput? (stay ++ [t])).isSome = true ↔
      (firstInput? stay).isSome = true ∨ e.isInput = true := by
    rw [hfirst, Option.isSome_or, Bool.or_eq_true]
    show _ ∨ (if e.isInput then some t else none).isSome = true ↔ _
    cases e.isInput <;> simp
  have hlive : (firstInput? stay).isSome = true ∨ e.isInput = true →
      c.switchboard.isLive (.room room) = true := by
    intro hwritten
    cases hstay : firstInput? stay with
    | some first => exact h.live (by rw [hstay]; rfl)
    | none =>
        have hinput : t.event.isInput = true := by simpa [hstay] using hwritten
        refine connected t ?_
        rw [hfirst, hstay, if_pos hinput]
        rfl
  have remains := sound.remains h.active ok stays kept fun typing =>
    hlive (typing.imp_left h.written)
  refine ⟨remains.active, remains.rises.busy h.busy, fun hnow => ?_, fun htyping => ?_, ?_⟩
  · rw [← Switchboard.transports_eq_up_iff]
    exact remains.rises.up (Switchboard.transports_eq_up_iff.2 (hlive (hsome.1 hnow)))
  · have hsignals := remains.signals
    rw [htyping] at hsignals
    exact hsome.2 (hsignals.of_typing.imp_left h.written)
  · rw [signalsDuring_snoc]
    exact h.bursts.append remains.signals

end Talks

theorem Run.talks {start : Client} (run : Run start log c) (sound : start.Sound identity settings)
    {earlier stay : List Turn} (split : log = earlier ++ stay) (isStay : IsStay room stay)
    (kept : ∀ t ∈ stay, t.event ≠ .transportClosed (.room room))
    (connected : ∀ t ∈ firstInput? stay, t.before.switchboard.isLive (.room room) = true) :
    Talks room stay c := by
  induction run generalizing stay with
  | start =>
      obtain ⟨first, later, rfl, -⟩ := isStay
      simp at split
  | @turn log c c' r e actions run handled ih =>
      have hsound := run.sound sound
      have hne : stay ≠ [] := by
        obtain ⟨first, later, rfl, -⟩ := isStay
        exact List.cons_ne_nil _ _
      obtain ⟨stay, t, rfl⟩ : ∃ init last, stay = init ++ [last] :=
        ⟨_, _, (List.dropLast_concat_getLast hne).symm⟩
      rw [← List.append_assoc] at split
      obtain ⟨rfl, hlast⟩ := List.append_inj' split rfl
      obtain rfl := List.singleton_inj.1 hlast
      rcases isStay.of_snoc with ⟨rfl, rfl, away⟩ | ⟨goesOn, remains⟩
      · exact .begin (hsound.begins away handled)
      · have htalks : Talks room stay c := ih rfl goesOn
          (fun t ht => kept t (List.mem_append_left _ ht)) fun t ht => connected t ?_
        · exact htalks.snoc hsound handled remains (kept _ List.mem_concat_self) connected
        · rw [firstInput?_snoc, ht]
          rfl

/-- During a stay in a room whose channel is live when the user first writes there, and is not lost
after the room was entered, what is told of typing on that channel alternates from a beginning on,
and the user types exactly if it was a beginning that was told last. An event that ends the stay is
handled: it gives the channel up, nothing is told there of typing from then on, and if anything was
told there then last that the user has stopped. -/
theorem typing_bracketed (identity : Identity) (settings : Settings) (start : Instant)
    (entropy : Entropy) (earlier stay : List Turn) (c : Client) (room : Room)
    (run : Run (new identity settings start entropy) (earlier ++ stay) c)
    (isStay : IsStay room stay) (kept : ∀ t ∈ stay, t.event ≠ .transportClosed (.room room))
    (connected : ∀ t ∈ firstInput? stay, t.before.switchboard.isLive (.room room) = true) :
    Alternates (signalsDuring room stay) ∧
      (c.conversation.isTyping = true ↔ (signalsDuring room stay).getLast? = some .typing) ∧
      ∀ r e, e.Leaves room → ∃ c' before after,
        c.handle r e = .ok (c', before ++ .closeTransport (.room room) :: after) ∧
        .closeTransport (.room room) ∉ before ∧ signals room after = [] ∧
        Alternates (signalsDuring room stay ++ signals room before) ∧
        ∀ f ∈ (signalsDuring room stay ++ signals room before).getLast?, f = .stoppedTyping := by
  have sound := sound_new identity settings start entropy
  have talks := run.talks sound rfl isStay kept connected
  refine ⟨talks.bursts.alternates, talks.bursts.typing_iff, fun r e leaves => ?_⟩
  obtain ⟨c', actions, ok, before, after, rfl, first, hsignals, rest⟩ :=
    (run.sound sound).ends talks.active talks.busy (talks.live ∘ talks.written) r leaves
  have bursts := talks.bursts.append hsignals
  exact ⟨c', before, after, ok, first, rest, bursts.alternates, bursts.last_of_closed⟩

/-- The user writes, pauses and writes again, and goes on to another room in the middle of it. -/
theorem typing_ends_with_switch :
    let events : List (Reading × Event) := [(⟨.zero, none⟩, .enterRoom ⟨1, 2⟩),
      (⟨.zero, none⟩, .transportOpened (.room ⟨1, 2⟩)), (⟨.zero, none⟩, .input "h"),
      (⟨.ofSeconds 6, none⟩, .tick (.ofSeconds 6)), (⟨.ofSeconds 6, none⟩, .input "he")]
    ∃ log c c' before after, Run (new ⟨1, "ada"⟩ .standard .zero (.cycle [])) log c ∧
      log.map Turn.event = events.map Prod.snd ∧
      signalsDuring ⟨1, 2⟩ log = [.typing, .stoppedTyping, .typing] ∧
      c.handle ⟨.zero, none⟩ (.enterRoom ⟨1, 3⟩) =
        .ok (c', before ++ .closeTransport (.room ⟨1, 2⟩) :: after) ∧
      (signalsDuring ⟨1, 2⟩ log ++ signals ⟨1, 2⟩ before).getLast? = some .stoppedTyping := by
  intro events
  let room : Room := ⟨1, 2⟩
  obtain ⟨log, c, run, hevents, hends⟩ := Run.of_replay
    (new ⟨1, "ada"⟩ .standard .zero (.cycle [])) events
    (f := fun log _ => (log.head?.map (·.before.room?), signalsDuring room log,
      (firstInput? log).map (·.before.switchboard.isLive (.room room))))
    (a := (some none, [.typing, .stoppedTyping, .typing], some true)) (by decide +kernel)
  simp only [Prod.mk.injEq] at hends
  obtain ⟨houtside, htold, hlive⟩ := hends
  cases log with
  | nil => cases houtside
  | cons first later =>
      obtain ⟨henters, hlater⟩ := List.cons.inj hevents
      have haway : first.before.room? = none := Option.some.inj houtside
      have hstays : ∀ e ∈ later.map Turn.event, ¬ e.Leaves room := by
        rw [hlater]
        simp [Event.Leaves]
      have hkept : ∀ e ∈ (first :: later).map Turn.event, e ≠ .transportClosed (.room room) := by
        rw [hevents]
        simp [events]
      have isStay : IsStay room (first :: later) :=
        ⟨first, later, rfl, henters, by rw [haway]; nofun,
          fun t ht => hstays _ (List.mem_map_of_mem ht)⟩
      obtain ⟨-, -, ends⟩ := typing_bracketed _ _ _ _ [] _ c room run isStay
        (fun t ht => hkept _ (List.mem_map_of_mem ht)) fun t ht => by
          obtain ⟨t', ht', hup⟩ := Option.map_eq_some_iff.1 hlive
          obtain rfl := Option.some.inj (ht.symm.trans ht')
          exact hup
      have hleaves : Event.Leaves room (.enterRoom ⟨1, 3⟩) := by
        show (⟨1, 3⟩ : Room) ≠ ⟨1, 2⟩
        decide
      obtain ⟨c', before, after, ok, -, -, -, hlast⟩ := ends ⟨.zero, none⟩ _ hleaves
      refine ⟨_, c, c', before, after, run, hevents, htold, ok, ?_⟩
      cases hnow : (signalsDuring room (first :: later) ++ signals room before).getLast? with
      | none =>
          rw [htold] at hnow
          simp at hnow
      | some f => rw [hlast f hnow]

end Client

end LiveChat
