import LiveChat.Proofs.Client.Send

/-!
# Runs of a client

A run lists the events that a client has handled with what it did. After any run the client holds
the global channel exactly while it is started and the channel of a room exactly while it is in
that room, each once. An event fails only when an amount that it needs is out of range, so what a
handler does first is never left without the rest.
-/

namespace LiveChat

/-- The wait after the next failure is beyond the longest duration. -/
def Link.WaitOutOfRange (l : Link) (e : Entropy) : Prop :=
  (l.phase = .opening ∨ l.isLive = true) ∧
    (l.settings.retry.delay (min (l.failures + 1) maxFailures) e).1 = .error .overflow

theorem Link.lost_eq_overflow_iff {l : Link} (now : Instant) {e : Entropy} :
    l.lost now e = .error .overflow ↔ l.WaitOutOfRange e := by
  unfold lost WaitOutOfRange isLive
  cases l.phase with
  | down | waiting => simp
  | opening | live =>
      dsimp only
      generalize l.settings.retry.delay (min (l.failures + 1) maxFailures) e = delay
      obtain ⟨_ | d, e'⟩ := delay <;> simp

theorem Switchboard.lost_eq_overflow_iff {b : Switchboard} {a : Address} {now : Instant}
    {e : Entropy} : b.lost a now e = .error .overflow ↔
      ∃ link, b.link? a = some link ∧ link.WaitOutOfRange e := by
  unfold lost link?
  cases b.lines.find? a with
  | none => simp
  | some line =>
      simp only [Option.map_some, Option.some.injEq, exists_eq_left',
        ← Link.lost_eq_overflow_iff now]
      cases line.link.lost now e <;> simp [bind, Except.bind]

namespace Conversation

theorem nextRef_eq_overflow_iff {last : Ref} (wall : Int64) :
    nextRef last wall = .error .overflow ↔ last.toNat + 1 = UInt64.size := by
  have hlast := last.toNat_lt_size
  constructor
  · intro h
    refine Nat.le_antisymm hlast (Nat.le_of_not_lt fun hlt => ?_)
    obtain ⟨ref, hok⟩ := nextRef_isOk hlt wall
    rw [h] at hok
    cases hok
  · intro h
    have hle : UInt64.size ≤ max wall.toInt.toNat (last.toNat + 1) := by omega
    rw [nextRef, Text.word?, if_neg (Nat.not_lt.2 hle)]

theorem send_eq_overflow_iff {c : Conversation} {text : String} (now : Instant) (wall : Int64)
    (live : Bool) : c.send text now wall live = .error .overflow ↔
      (c.room.isSome = true ∧ c.maySend text now = true) ∧
        c.lastRef.toNat + 1 = UInt64.size := by
  rw [← nextRef_eq_overflow_iff wall]
  unfold send
  cases c.room with
  | none => simp
  | some room =>
      cases hmay : c.maySend text now with
      | false => simp
      | true =>
          simp only [Bool.not_true, Bool.false_eq_true, if_false, Option.isSome_some,
            and_self, true_and]
          cases nextRef c.lastRef wall <;> simp [bind, Except.bind]

end Conversation

namespace Client

/-- An event that was handled. -/
structure Turn where
  /-- The client before the event. -/
  before : Client
  reading : Reading
  event : Event
  actions : List Action

inductive Run (start : Client) : List Turn → Client → Prop
  | start : Run start [] start
  | turn {log : List Turn} {c c' : Client} {r : Reading} {e : Event} {actions : List Action}
      (run : Run start log c) (handled : c.handle r e = .ok (c', actions)) :
      Run start (log ++ [⟨c, r, e, actions⟩]) c'

/-- Handles the events one after the other. -/
def replay (c : Client) : List (Reading × Event) → Except Error (List Turn × Client)
  | [] => .ok ([], c)
  | (r, e) :: rest => do
    let (next, actions) ← c.handle r e
    let (log, last) ← next.replay rest
    .ok (⟨c, r, e, actions⟩ :: log, last)

variable {identity : Identity} {settings : LinkSettings} {c c' : Client} {r : Reading} {e : Event}
  {actions : List Action} {log : List Turn}

theorem Run.replay {start : Client} {events : List (Reading × Event)} {later : List Turn}
    (run : Run start log c) (ok : c.replay events = .ok (later, c')) :
    Run start (log ++ later) c' ∧ later.map Turn.event = events.map Prod.snd := by
  induction events generalizing log later c with
  | nil =>
      cases ok
      rw [List.append_nil]
      exact ⟨run, rfl⟩
  | cons first rest ih =>
      obtain ⟨r, e⟩ := first
      cases handled : c.handle r e with
      | error f =>
          rw [Client.replay, handled] at ok
          cases ok
      | ok next =>
          cases hrest : next.1.replay rest with
          | error f =>
              simp only [Client.replay, handled, bind, Except.bind, hrest] at ok
              cases ok
          | ok last =>
              simp only [Client.replay, handled, bind, Except.bind, hrest] at ok
              cases ok
              obtain ⟨hrun, hevents⟩ := ih (run.turn handled) hrest
              rw [List.append_assoc] at hrun
              exact ⟨hrun, congrArg (e :: ·) hevents⟩

/-- A run over fixed events, with what holds of it. -/
theorem Run.of_replay (start : Client) (events : List (Reading × Event))
    {f : List Turn → Client → α} {a : α}
    (ends : (start.replay events).toOption.map (fun (log, c) => f log c) = some a) :
    ∃ log c, Run start log c ∧ log.map Turn.event = events.map Prod.snd ∧ f log c = a := by
  cases hsession : start.replay events with
  | error failure =>
      rw [hsession] at ends
      cases ends
  | ok session =>
      rw [hsession] at ends
      obtain ⟨run, hevents⟩ := Run.start.replay hsession
      exact ⟨_, _, run, hevents, Option.some.inj ends⟩

theorem Sound.handles (h : c.Sound identity settings) (ok : c.handle r e = .ok (c', actions)) :
    Handles identity settings c r e c' actions := by
  rcases h.handle r e with ⟨c'', actions', handles⟩ | ⟨herror, -⟩
  · obtain ⟨rfl, rfl⟩ := Prod.mk.inj (Except.ok.inj (handles.ok.symm.trans ok))
    exact handles
  · rw [herror] at ok
    cases ok

theorem Run.sound {start : Client} (run : Run start log c) (h : start.Sound identity settings) :
    c.Sound identity settings := by
  induction run with
  | start => exact h
  | turn run handled ih => exact (ih.handles handled).sound

/-! ## What is held -/

theorem Sound.mem_keys_iff (h : c.Sound identity settings) (a : Address) :
    a ∈ c.switchboard.lines.keys ↔
      a ∈ (if c.started then [Address.global] else []) ++ (c.room?.map Address.room).toList := by
  rw [Table.mem_keys_iff, ← Switchboard.link?_isSome, h.switchboard.link?_isSome_iff]
  cases a with
  | global =>
      rw [h.global]
      cases c.started <;> simp
  | room room =>
      rw [h.rooms]
      by_cases hroom : c.room? = some room
      · cases c.started <;> simp [hroom]
      · cases c.started <;> simp [hroom]

theorem Sound.keys_eq (h : c.Sound identity settings) : c.switchboard.lines.keys =
    (if c.started then [Address.global] else []) ++ (c.room?.map Address.room).toList := by
  refine Table.keys_eq_of_mem_iff ?_ h.mem_keys_iff
  have hfirst : ∀ room, compare Address.global (.room room) = .lt := fun _ => rfl
  cases c.started <;> cases c.room? <;> simp [hfirst]

theorem Sound.holders_eq_one (h : c.Sound identity settings) :
    ∀ a ∈ c.switchboard.lines.keys, c.switchboard.holders a = 1 := by
  intro a ha
  have hheld : 0 < c.switchboard.holders a := by
    rwa [← h.switchboard.link?_isSome_iff, Switchboard.link?_isSome, ← Table.mem_keys_iff]
  have hone : c.switchboard.holders a ≤ 1 := by
    cases a with
    | global => rw [h.global]; split <;> omega
    | room room => rw [h.rooms]; split <;> omega
  omega

/-! ## What can fail -/

/-- An amount that the event needs is out of range: the wall clock, the number of the next message,
or the wait of a channel that was lost. -/
def OutOfRange (c : Client) (r : Reading) : Event → Prop
  | .send text => r.wall = none ∨
      (c.accepts? r.now text).isSome ∧ c.conversation.lastRef.toNat + 1 = UInt64.size
  | .setNote _ _ => r.wall = none
  | .transportClosed a => ∃ link, c.switchboard.link? a = some link ∧ link.WaitOutOfRange c.entropy
  | _ => False

theorem transportClosed_eq_overflow_iff {a : Address} :
    c.transportClosed r a = .error (.fault .overflow) ↔ c.OutOfRange r (.transportClosed a) := by
  dsimp only [OutOfRange]
  rw [← Switchboard.lost_eq_overflow_iff]
  unfold transportClosed
  cases c.switchboard.lost a r.now c.entropy <;> simp

theorem accepts?_isSome_iff {now : Instant} {text : String} :
    (c.accepts? now text).isSome = true ↔
      c.conversation.room.isSome = true ∧ c.conversation.maySend text now = true := by
  unfold accepts? room?
  cases c.conversation.maySend text now <;> simp

theorem send_eq_overflow_iff {text : String} :
    c.send r text = .error (.fault .overflow) ↔ c.OutOfRange r (.send text) := by
  dsimp only [OutOfRange]
  cases hwall : r.wall with
  | none =>
      unfold Client.send readWall
      rw [hwall]
      simp [bind, Except.bind]
  | some wall =>
      rw [accepts?_isSome_iff, ← Conversation.send_eq_overflow_iff r.now wall c.isRoomLive]
      cases hstep : c.conversation.send text r.now wall c.isRoomLive with
      | ok step => simp [send_of_ok hwall hstep]
      | error f => simp [send_of_error hwall hstep]

theorem setNote_eq_overflow_iff {note emoji : Option String} :
    c.setNote r note emoji = .error (.fault .overflow) ↔ c.OutOfRange r (.setNote note emoji) := by
  dsimp only [OutOfRange]
  cases hwall : r.wall with
  | none =>
      unfold setNote readWall
      rw [hwall]
      simp [bind, Except.bind]
  | some wall => simp [setNote_of_wall hwall]

/-- An event that needs nothing out of range is handled. -/
theorem Sound.handle_of_inRange (h : c.Sound identity settings) (within : ¬ c.OutOfRange r e) :
    ∃ c' actions, c.handle r e = .ok (c', actions) := by
  have inRange : ∀ {step : Step}, c.handle r e = step →
      (step = .error (.fault .overflow) ↔ c.OutOfRange r e) →
      ∃ c' actions, c.handle r e = .ok (c', actions) := by
    intro step hstep hiff
    rcases h.handle r e with ⟨c', actions, handles⟩ | ⟨herror, -⟩
    · exact ⟨c', actions, handles.ok⟩
    · exact absurd (hiff.1 (hstep.symm.trans herror)) within
  cases e with
  | start =>
      obtain ⟨c', actions, hok, -⟩ := h.start
      exact ⟨c', actions, hok⟩
  | shutdown =>
      obtain ⟨c', actions, hok, -⟩ := h.shutdown
      exact ⟨c', actions, hok⟩
  | enterRoom room =>
      obtain ⟨c', actions, hok, -⟩ := h.enterRoom room
      exact ⟨c', actions, hok⟩
  | leaveRoom =>
      obtain ⟨c', actions, hok, -⟩ := h.leaveRoom
      exact ⟨c', actions, hok⟩
  | watch users =>
      obtain ⟨c', actions, hok, -⟩ := h.watch users
      exact ⟨c', actions, hok⟩
  | transportClosed a => exact inRange rfl transportClosed_eq_overflow_iff
  | send text => exact inRange rfl send_eq_overflow_iff
  | setNote note emoji => exact inRange rfl setNote_eq_overflow_iff
  | _ => exact ⟨_, _, rfl⟩

theorem handle_of_outOfRange (h : c.OutOfRange r e) :
    c.handle r e = .error (.fault .overflow) := by
  cases e with
  | transportClosed a => exact transportClosed_eq_overflow_iff.2 h
  | send text => exact send_eq_overflow_iff.2 h
  | setNote note emoji => exact setNote_eq_overflow_iff.2 h
  | _ => cases h

/-- After any run the client holds the global channel exactly if it is started and the channel of
the active room exactly if there is one, each once. The next event is handled, whatever it is,
unless an amount that it needs is out of range: no channel is ever missing that it is to let go of
or to keep a frame for. -/
theorem channels_held_and_events_handled (identity : Identity) (settings : Settings)
    (start : Instant) (entropy : Entropy) (log : List Turn) (c : Client)
    (run : Run (new identity settings start entropy) log c) :
    c.switchboard.lines.keys =
        (if c.started then [Address.global] else []) ++ (c.room?.map Address.room).toList ∧
      (∀ a ∈ c.switchboard.lines.keys, c.switchboard.holders a = 1) ∧
      ∀ r e, (¬ c.OutOfRange r e → ∃ c' actions, c.handle r e = .ok (c', actions)) ∧
        (c.OutOfRange r e → c.handle r e = .error (.fault .overflow)) := by
  have sound := run.sound (sound_new identity settings start entropy)
  exact ⟨sound.keys_eq, sound.holders_eq_one,
    fun _ _ => ⟨sound.handle_of_inRange, handle_of_outOfRange⟩⟩

/-- A room is entered before the start, and its channel is live when the client shuts down. -/
theorem room_entered_before_start :
    ∃ log c, Run (new ⟨1, "ada"⟩ .standard .zero (.cycle [])) log c ∧
      log.map Turn.event =
        [.enterRoom ⟨1, 2⟩, .watch [3], .start, .transportOpened (.room ⟨1, 2⟩)] ∧
      c.switchboard.lines.keys = [.global, .room ⟨1, 2⟩] ∧
      c.switchboard.holders .global = 1 ∧
      ∀ r, ∃ c' actions, c.handle r .shutdown = .ok (c', actions) := by
  have fresh : Run (new ⟨1, "ada"⟩ .standard .zero (.cycle [])) [] _ := .start
  have entered := Run.turn (r := ⟨.zero, none⟩) (e := .enterRoom ⟨1, 2⟩) fresh rfl
  have watching := Run.turn (r := ⟨.zero, none⟩) (e := .watch [3]) entered rfl
  have started := Run.turn (r := ⟨.zero, none⟩) (e := .start) watching rfl
  have run := Run.turn (r := ⟨.zero, none⟩) (e := .transportOpened (.room ⟨1, 2⟩)) started rfl
  obtain ⟨hkeys, hone, hnext⟩ := channels_held_and_events_handled _ _ _ _ _ _ run
  refine ⟨_, _, run, rfl, hkeys, hone _ ?_, fun r => (hnext r .shutdown).1 id⟩
  rw [hkeys]
  exact List.mem_cons_self

end Client

end LiveChat
