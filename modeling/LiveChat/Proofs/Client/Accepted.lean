import LiveChat.Proofs.Client.Loads
import Mathlib.Data.List.DropRight

/-!
# Messages that are accepted

A message is accepted in a room unless it is blank or comes too soon after the last one that was
accepted since the room was entered. What is dropped changes nothing. An accepted message is shown
at once and goes out once, under a number above all that were given before: the numbers outlive the
stay, and a clock that goes back does not take them back.
-/

namespace LiveChat

namespace Conversation

variable {c c' : Conversation} {op : Operation} {effects : List ChatEffect}

/-- Within a stay only sending counts as sending. -/
theorem perform_lastSend (h : c.perform op = .ok (c', effects)) (receives : op.isSend = false)
    (stays : op.switches = false) : c'.lastSend = c.lastSend := by
  cases op with
  | send => cases receives
  | enter | leave => cases stays
  | historyLoaded r result =>
      obtain ⟨rfl, -⟩ := eq_of_ok h
      by_cases awaits : c.Awaits r
      · rw [historyLoaded_of_awaits awaits]
        cases result <;> rfl
      · rw [historyLoaded_of_not_awaits awaits]
  | posted r result =>
      obtain ⟨rfl, -⟩ := eq_of_ok h
      obtain ⟨t, ht⟩ := posted_frame (c := c) r result
      rw [ht]
  | received m =>
      obtain ⟨rfl, -⟩ := eq_of_ok h
      obtain ⟨t, ht⟩ := received_frame (c := c) m
      rw [ht]
  | _ =>
      obtain ⟨load, loading, typists, signal, rfl⟩ := perform_frame h rfl
      rfl

theorem maySend_iff {text : String} {now : Instant} : c.maySend text now = true ↔
    (∃ ch ∈ text.toList, Text.isBlank ch = false) ∧
      ∀ last, c.lastSend = some last → c.settings.sendCooldown ≤ now - last := by
  unfold maySend
  cases c.lastSend <;> simp [Text.allBlank]

theorem Performs.settings {ops : List Operation} (h : c.Performs ops c') :
    c'.settings = c.settings := by
  induction h with
  | nil => rfl
  | cons op head tail ih => exact ih.trans (perform_settings head)

theorem Performs.lastRef {ops : List Operation} (h : c.Performs ops c')
    (receive : ∀ op ∈ ops, op.isSend = false) : c'.lastRef = c.lastRef := by
  induction h with
  | nil => rfl
  | cons op head tail ih =>
      have hrest := ih fun op hop => receive op (List.mem_cons_of_mem _ hop)
      exact hrest.trans ((perform_lastRef head).2.1 (receive op List.mem_cons_self))

end Conversation

namespace Client

variable {identity : Identity} {settings : LinkSettings} {chat : ChatSettings} {c c' : Client}
  {r : Reading} {e : Event} {actions : List Action} {log : List Turn} {room : Room}
  {text : String} {now : Instant}

/-! ## Messages among actions -/

/-- The message that an action carries out, on a channel or by a request, with its number. -/
def Action.message? : Action → Option (String × Option Ref)
  | .sendFrame _ text =>
    match ClientFrame.decode text with
    | some (.post body ref) => some (body, ref)
    | _ => none
  | .postMessage q => some (q.body, some q.ref)
  | _ => none

def transmissions (actions : List Action) : List Action := actions.filter (·.message?.isSome)

def refsIn (actions : List Action) : List Ref :=
  actions.filterMap fun x => x.message?.bind (·.2)

theorem Action.Modest.message? {asks : Bool} {x : Action} (h : x.Modest asks) :
    x.message? = none := by
  cases x with
  | sendFrame a text =>
      obtain ⟨f, hpost, rfl⟩ := h
      unfold Action.message?
      dsimp only
      rw [f.decode_encode]
      cases f with
      | post => cases hpost
      | _ => rfl
  | postMessage => cases h
  | _ => rfl

theorem carrier_message? (c : Client) (room : Room) (text : String) (ref : Ref) :
    (c.carrier room text ref).message? = some (text, some ref) := by
  unfold carrier
  split
  · unfold Action.message?
    dsimp only
    rw [ClientFrame.decode_encode]
  · rfl

theorem transmissions_of_modest {asks : Bool} (h : ∀ x ∈ actions, x.Modest asks) :
    transmissions actions = [] :=
  List.filter_eq_nil_iff.2 fun x hx => by simp [(h x hx).message?]

theorem refsIn_of_modest {asks : Bool} (h : ∀ x ∈ actions, x.Modest asks) :
    refsIn actions = [] :=
  List.filterMap_eq_nil_iff.2 fun x hx => by simp [(h x hx).message?]

/-! ## One message -/

/-- The message is accepted: it becomes a pending entry, and goes out when all else is done. -/
structure Accepts (c : Client) (r : Reading) (text : String) (room : Room) (wall : Int64)
    (ref : Ref) (c' : Client) (actions : List Action) : Prop where
  accepted : c.accepts? r.now text = some room
  number : Conversation.nextRef c.conversation.lastRef wall = .ok ref
  conversation : c'.conversation = c.conversation.afterSend room text r.now wall ref
  actions : ∃ quiet, actions = quiet ++ [c.carrier room text ref] ∧
    ∀ x ∈ quiet, x.Modest false

theorem send_decides (h : c.Sound identity settings)
    (ok : c.handle r (.send text) = .ok (c', actions)) :
    (c.accepts? r.now text = none ∧ c' = c ∧ actions = []) ∨
      ∃ room wall ref, r.wall = some wall ∧ Accepts c r text room wall ref c' actions := by
  obtain ⟨wall, ⟨after, effects⟩, hwall, hstep, rfl, rfl⟩ := send_eq_ok ok
  rcases Conversation.send_cases hstep with
    ⟨hdropped, rfl, rfl⟩ | ⟨room, ref, hroom, hmay, href, rfl, rfl⟩
  · exact .inl ⟨accepts?_eq_none hdropped, rfl, rfl⟩
  · refine .inr ⟨room, wall, ref, hwall, ?_, href, rfl, applyChat_transmission h _ hroom ref hroom⟩
    rw [accepts?, if_pos hmay]
    exact hroom

namespace Accepts

variable {wall : Int64} {ref : Ref}

theorem actions_ne_nil (h : Accepts c r text room wall ref c' actions) : actions ≠ [] := by
  obtain ⟨quiet, rfl, -⟩ := h.actions
  simp

theorem transmissions (h : Accepts c r text room wall ref c' actions) :
    transmissions actions = [c.carrier room text ref] := by
  obtain ⟨quiet, rfl, hquiet⟩ := h.actions
  have hone : Client.transmissions [c.carrier room text ref] = [c.carrier room text ref] :=
    List.filter_cons_of_pos (by rw [carrier_message?]; rfl)
  rw [Client.transmissions, List.filter_append]
  exact (congrArg₂ _ (transmissions_of_modest hquiet) hone).trans (List.nil_append _)

theorem refs (h : Accepts c r text room wall ref c' actions) : refsIn actions = [ref] := by
  obtain ⟨quiet, rfl, hquiet⟩ := h.actions
  have hone : refsIn [c.carrier room text ref] = [ref] :=
    List.filterMap_cons_some (by rw [carrier_message?]; rfl)
  rw [refsIn, List.filterMap_append]
  exact (congrArg₂ _ (refsIn_of_modest hquiet) hone).trans (List.nil_append _)

end Accepts

/-! ## Messages accepted so far -/

def Turn.accepted (t : Turn) : Bool := t.event.isSend && !t.actions.isEmpty

def Turn.enters (t : Turn) : Bool :=
  match t.event with
  | .enterRoom room => t.before.room? != some room
  | _ => false

/-- The turns since a room was entered last. -/
def sinceEntered (log : List Turn) : List Turn := log.rtakeWhile (!·.enters)

/-- The turn in which a message was accepted last in this stay. -/
def lastAccepted? (log : List Turn) : Option Turn :=
  ((sinceEntered log).filter Turn.accepted).getLast?

theorem lastAccepted?_snoc (log : List Turn) (t : Turn) :
    lastAccepted? (log ++ [t]) =
      if t.enters then none else if t.accepted then some t else lastAccepted? log := by
  unfold lastAccepted? sinceEntered
  rw [List.rtakeWhile_concat]
  cases t.enters with
  | true => rfl
  | false =>
      simp only [Bool.not_false, if_true, List.filter_append]
      cases haccepted : t.accepted <;> simp [haccepted]

def numbers (log : List Turn) : List Ref := log.flatMap fun t => refsIn t.actions

theorem numbers_snoc (log : List Turn) (t : Turn) :
    numbers (log ++ [t]) = numbers log ++ refsIn t.actions := by
  simp [numbers]

theorem enterRoom_room (ok : c.enterRoom room = .ok (c', actions)) : c'.room? = some room := by
  rcases enterRoom_cases ok with
    ⟨hroom, rfl, -⟩ | ⟨-, rfl, -⟩ | ⟨old, left, released, -, -, -, rfl, -⟩
  · exact hroom
  · rfl
  · rfl

/-- Where an event that sends nothing leads to a room, it begins a stay in which nothing was sent
yet, or the stay goes on and what was sent last is the same. -/
theorem lastSend_step (receives : e.isSend = false) (ok : c.handle r e = .ok (c', actions))
    (active : c'.room?.isSome = true) :
    (Turn.mk c r e actions).enters = true ∧ c'.conversation.lastSend = none ∨
      (Turn.mk c r e actions).enters = false ∧ c.room?.isSome = true ∧
        c'.conversation.lastSend = c.conversation.lastSend := by
  obtain ⟨effects, passes, -⟩ := handle_passes ok
  have begins : ∀ room, e = .enterRoom room → c.room? ≠ some room →
      (Turn.mk c r e actions).enters = true := by
    rintro room rfl other
    exact bne_iff_ne.2 other
  have goesOn : (∀ room, e = .enterRoom room → c.room? = some room) →
      (Turn.mk c r e actions).enters = false := by
    intro current
    cases e with
    | enterRoom room => simpa [Turn.enters] using current room rfl
    | _ => rfl
  unfold room? at active
  generalize hconversation : c'.conversation = conversation at passes active
  cases passes with
  | rests stays =>
      refine .inr ⟨goesOn ?_, active, rfl⟩
      rintro room rfl
      have hroom := enterRoom_room ok
      rwa [room?, hconversation] at hroom
  | @leaves room _ left =>
      have hroom : c.conversation.room = some room := left
      simp [Conversation.leave, hroom] at active
  | enters vacant => exact .inl ⟨begins _ rfl (by simp [vacant]), rfl⟩
  | switches left other =>
      refine .inl ⟨begins _ rfl ?_, rfl⟩
      rw [left]
      exact fun heq => other (Option.some.inj heq).symm
  | does does perform =>
      have hroom := (does.same_stay perform).1
      refine .inr ⟨?_, ?_, Conversation.perform_lastSend perform ?_ does.stays.1⟩
      · cases does <;> rfl
      · rwa [hroom] at active
      · cases does <;> first | rfl | cases receives

/-- What the conversation knows of the messages accepted so far. -/
structure Tally (chat : ChatSettings) (log : List Turn) (c : Client) : Prop where
  settings : c.conversation.settings = chat
  lastSend : c.room?.isSome = true →
    c.conversation.lastSend = (lastAccepted? log).map (·.reading.now)
  numbers : ∀ ref ∈ numbers log, ref.toNat ≤ c.conversation.lastRef.toNat
  /-- The wall clock shows less than `2 ^ 63`, and above it the numbers go up one by one. -/
  lastRef : c.conversation.lastRef.toNat < UInt64.size / 2 + (log.filter Turn.accepted).length

namespace Tally

theorem dropped (h : Tally chat log c) {t : Turn} (event : t.event = .send text)
    (silent : t.actions = []) : Tally chat (log ++ [t]) c := by
  have haccepted : t.accepted = false := by simp [Turn.accepted, silent]
  have henters : t.enters = false := by simp [Turn.enters, event]
  refine ⟨h.settings, fun active => ?_, fun ref hmem => ?_, ?_⟩
  · rw [lastAccepted?_snoc, henters, haccepted]
    exact h.lastSend active
  · rw [numbers_snoc, silent] at hmem
    exact h.numbers ref (by simpa [refsIn] using hmem)
  · rw [List.filter_append, List.filter_cons_of_neg (by simp [haccepted]), List.filter_nil,
      List.append_nil]
    exact h.lastRef

theorem accepted (h : Tally chat log c) {wall : Int64} {ref : Ref}
    (accepts : Accepts c r text room wall ref c' actions) :
    Tally chat (log ++ [⟨c, r, .send text, actions⟩]) c' := by
  have haccepted : (Turn.mk c r (.send text) actions).accepted = true := by
    simp [Turn.accepted, Event.isSend, accepts.actions_ne_nil]
  have hgt := Conversation.nextRef_gt accepts.number
  have hspec := Conversation.nextRef_spec accepts.number
  have hlast : c'.conversation.lastRef = ref := by
    rw [accepts.conversation]
    rfl
  have hwall := wall.toInt_lt
  have hbound := h.lastRef
  have hsize : UInt64.size = 18446744073709551616 := rfl
  refine ⟨?_, fun _ => ?_, fun ref' hmem => ?_, ?_⟩
  · rw [accepts.conversation]
    exact h.settings
  · rw [accepts.conversation, lastAccepted?_snoc, haccepted]
    rfl
  · rw [hlast]
    rw [numbers_snoc, accepts.refs] at hmem
    rcases List.mem_append.1 hmem with hmem | hmem
    · exact Nat.le_of_lt (Nat.lt_of_le_of_lt (h.numbers ref' hmem) hgt)
    · rw [List.mem_singleton.1 hmem]
  · rw [hlast, List.filter_append, List.filter_cons_of_pos haccepted, List.filter_nil,
      List.length_append, List.length_singleton]
    omega

theorem received (h : Tally chat log c) (receives : e.isSend = false)
    (handles : Handles identity settings c r e c' actions) :
    Tally chat (log ++ [⟨c, r, e, actions⟩]) c' := by
  have haccepted : (Turn.mk c r e actions).accepted = false := by simp [Turn.accepted, receives]
  have hlast := handles.performs.lastRef (operations_receive receives)
  refine ⟨?_, fun active => ?_, fun ref hmem => ?_, ?_⟩
  · rw [handles.performs.settings]
    exact h.settings
  · rw [lastAccepted?_snoc, haccepted]
    rcases lastSend_step receives handles.ok active with
      ⟨enters, none⟩ | ⟨stays, hactive, same⟩
    · rw [enters, none]
      rfl
    · rw [stays, same]
      exact h.lastSend hactive
  · rw [hlast]
    rw [numbers_snoc, refsIn_of_modest (handles.modest receives), List.append_nil] at hmem
    exact h.numbers ref hmem
  · rw [hlast, List.filter_append, List.filter_cons_of_neg (by simp [haccepted]), List.filter_nil,
      List.append_nil]
    exact h.lastRef

theorem turn (h : Tally chat log c) (sound : c.Sound identity settings)
    (ok : c.handle r e = .ok (c', actions)) : Tally chat (log ++ [⟨c, r, e, actions⟩]) c' := by
  cases hsend : e.isSend with
  | false => exact h.received hsend (sound.handles ok)
  | true =>
      obtain ⟨text, rfl⟩ : ∃ text, e = .send text := by
        cases e with
        | send text => exact ⟨text, rfl⟩
        | _ => cases hsend
      rcases send_decides sound ok with ⟨-, rfl, rfl⟩ | ⟨room, wall, ref, -, accepts⟩
      · exact h.dropped rfl rfl
      · exact h.accepted accepts

end Tally

theorem Run.tally {settings : Settings} {start : Instant} {entropy : Entropy}
    (run : Run (new identity settings start entropy) log c) : Tally settings.chat log c := by
  induction run with
  | start => exact ⟨rfl, fun _ => rfl, nofun, (by decide : 0 < UInt64.size / 2)⟩
  | turn run handled ih => exact ih.turn (run.sound (sound_new _ _ _ _)) handled

/-! ## What is accepted -/

/-- A message may be sent: the user is in a room, the text is not blank, and the last message of the
stay is long enough ago. -/
structure Due (cooldown : Duration) (log : List Turn) (c : Client) (now : Instant)
    (text : String) : Prop where
  active : c.room?.isSome = true
  written : ∃ ch ∈ text.toList, Text.isBlank ch = false
  rested : ∀ t, lastAccepted? log = some t → cooldown ≤ now - t.reading.now

theorem Tally.accepts_iff (h : Tally chat log c) :
    (c.accepts? now text).isSome = true ↔ Due chat.sendCooldown log c now text := by
  rw [accepts?_isSome_iff, Conversation.maySend_iff, h.settings]
  constructor
  · rintro ⟨active, written, rested⟩
    refine ⟨active, written, fun t ht => rested _ ?_⟩
    rw [h.lastSend active, ht]
    rfl
  · rintro ⟨active, written, rested⟩
    refine ⟨active, written, fun last hlast => ?_⟩
    rw [h.lastSend active] at hlast
    obtain ⟨t, ht, rfl⟩ := Option.map_eq_some_iff.1 hlast
    exact rested t ht

/-- Fewer than `2 ^ 63` messages leave a number for the next one. -/
theorem Tally.inRange (h : Tally chat log c)
    (few : (log.filter Turn.accepted).length < UInt64.size / 2) (now : Instant) (wall : Int64)
    (text : String) :
    ¬ c.OutOfRange ⟨now, some wall⟩ (.send text) := by
  have hsize : UInt64.size = 18446744073709551616 := rfl
  have hbound := h.lastRef
  rintro (hwall | ⟨-, hlast⟩)
  · cases hwall
  · omega

/-- After any run in which fewer than `2 ^ 63` messages were accepted, a message is accepted exactly
if the user is in a room, the text is not blank, and the last message accepted since the room was
entered is as long ago as the cooldown. A message that is not accepted does nothing. One that is
becomes one pending entry at the end of the timeline, its number is above all the numbers of the
run, whatever the wall clock shows, and it goes out once: on the channel of the room if that is live
and else by a request of this stay. -/
theorem messages_accepted_and_numbered (identity : Identity) (settings : Settings)
    (start : Instant) (entropy : Entropy) (log : List Turn) (c : Client)
    (run : Run (new identity settings start entropy) log c)
    (few : (log.filter Turn.accepted).length < UInt64.size / 2) (now : Instant) (wall : Int64)
    (text : String) :
    ∃ c' actions, c.handle ⟨now, some wall⟩ (.send text) = .ok (c', actions) ∧
      (actions ≠ [] ↔ Due settings.chat.sendCooldown log c now text) ∧
      (actions = [] → c' = c) ∧
      (actions ≠ [] → ∃ room ref, c.room? = some room ∧
        c'.conversation.timeline = c.conversation.timeline ++
          [c.conversation.pendingEntry room text wall ref] ∧
        (∀ earlier ∈ numbers log, earlier < ref) ∧
        transmissions actions = [
          if c.switchboard.isLive (.room room) then
            .sendFrame (.room room) (ClientFrame.post text (some ref)).encode
          else .postMessage ⟨room, c.conversation.stay, text, ref⟩]) := by
  have sound := run.sound (sound_new identity settings start entropy)
  have tally := run.tally
  obtain ⟨c', actions, ok⟩ := sound.handle_of_inRange (tally.inRange few now wall text)
  refine ⟨c', actions, ok, ?_⟩
  rw [← tally.accepts_iff]
  rcases send_decides sound ok with ⟨hdropped, rfl, rfl⟩ | ⟨room, wall', ref, hwall, accepts⟩
  · have hdropped : c'.accepts? now text = none := hdropped
    simp [hdropped]
  · cases hwall
    have haccepted : c.accepts? now text = some room := accepts.accepted
    have active : c.room? = some room := (accepts?_eq_some haccepted).2
    have hne := accepts.actions_ne_nil
    refine ⟨by simp [haccepted, hne], fun hnil => absurd hnil hne, fun _ => ?_⟩
    refine ⟨room, ref, active, by rw [accepts.conversation]; rfl, fun earlier hmem => ?_, ?_⟩
    · have hgt := Conversation.nextRef_gt accepts.number
      exact UInt64.lt_iff_toNat_lt.2 (Nat.lt_of_le_of_lt (tally.numbers earlier hmem) hgt)
    · have hlive : c.isRoomLive = c.switchboard.isLive (.room room) := by
        simp [isRoomLive, active]
      rw [accepts.transmissions, carrier, hlive]

/-- The user goes on to another room, where the cooldown of the first does not count, and the wall
clock has gone back to before 1970. -/
theorem number_outlives_stay :
    let events : List (Reading × Event) := [(⟨.zero, some 0⟩, .enterRoom ⟨1, 2⟩),
      (⟨.zero, some 100⟩, .send "a"), (⟨.zero, some 50⟩, .enterRoom ⟨1, 3⟩)]
    ∃ log c, Run (new ⟨1, "ada"⟩ .standard .zero (.cycle [])) log c ∧
      log.map Turn.event = events.map Prod.snd ∧
      (log.filter Turn.accepted).length < UInt64.size / 2 ∧ numbers log = [100] ∧
      ∃ c' actions ref, c.handle ⟨.zero, some (-5)⟩ (.send "b") = .ok (c', actions) ∧ 100 < ref ∧
        transmissions actions = [.postMessage ⟨⟨1, 3⟩, 2, "b", ref⟩] := by
  intro events
  obtain ⟨log, c, run, hevents, hends⟩ := Run.of_replay
    (new ⟨1, "ada"⟩ .standard .zero (.cycle [])) events
    (f := fun log c => (numbers log, c.room?, (log.filter Turn.accepted).length,
      (lastAccepted? log).isNone && !c.switchboard.isLive (.room ⟨1, 3⟩), c.conversation.stay))
    (a := ([100], some ⟨1, 3⟩, 1, true, 2)) (by decide +kernel)
  simp only [Prod.mk.injEq, Bool.and_eq_true, Bool.not_eq_true', Option.isNone_iff_eq_none] at hends
  obtain ⟨hnumbers, hroom, hone, ⟨hnone, hdown⟩, hstay⟩ := hends
  have hfew : (log.filter Turn.accepted).length < UInt64.size / 2 := by
    rw [hone]
    decide
  obtain ⟨c', actions, ok, hiff, -, haccepted⟩ :=
    messages_accepted_and_numbered _ _ _ _ log c run hfew .zero (-5) "b"
  have due : Due Settings.standard.chat.sendCooldown log c .zero "b" := by
    refine ⟨by rw [hroom]; rfl, ⟨'b', by simp, by decide⟩, fun t ht => ?_⟩
    rw [hnone] at ht
    cases ht
  obtain ⟨room, ref, hroom', -, hgreater, htransmissions⟩ := haccepted (hiff.2 due)
  obtain rfl := Option.some.inj (hroom.symm.trans hroom')
  refine ⟨log, c, run, hevents, hfew, hnumbers, c', actions, ref, ok, hgreater 100 ?_, ?_⟩
  · simp [hnumbers]
  · rw [htransmissions, hdown, hstay]
    rfl

end Client

end LiveChat
