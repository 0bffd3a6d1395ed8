import LiveChat.Proofs.Client.Leads

/-!
# Transport discipline

A client asks for a transport only while it is idle, sends on it only while it is up, and gives it
up only while it is not idle, but for the answer to a transport that comes up and that nobody holds.
Of the rooms only one has a transport that is not idle, at every point of the stream of events and
actions. What a handler does leads from the transports that the links had before the event to those
that they have after it.
-/

namespace LiveChat.Client

variable {identity : Identity} {settings : LinkSettings} {room : Option Room} {c c' : Client}
  {r : Reading} {e : Event} {actions : List Action} {log : List Turn}

/-! ## Parts of a client -/

theorem keepGlobal_transports {frame : Option ClientFrame} (ok : c.keepGlobal frame = .ok c') :
    c'.switchboard.transports = c.switchboard.transports := by
  rcases keepGlobal_cases ok with ⟨-, rfl⟩ | ⟨f, b, -, hkeep, rfl⟩
  · rfl
  · exact Switchboard.transports_keep hkeep

theorem Action.still_of_inward {x : Action} (h : x.isRequest = false) (w : Transports) :
    x.Still w := by
  cases x with
  | openTransport | closeTransport | sendFrame | fetchHistory | postMessage => cases h
  | _ => exact ⟨trivial, rfl⟩

namespace SoundIn

theorem allowed (h : c.SoundIn identity settings room) :
    ∀ a ∈ c.switchboard.lines.keys, a.Allowed room := by
  rintro a ha r rfl
  rw [Table.mem_keys_iff, ← Switchboard.link?_isSome, h.switchboard.link?_isSome_iff, h.rooms] at ha
  by_contra hne
  rw [if_neg hne] at ha
  cases ha

theorem within (h : c.SoundIn identity settings room) :
    c.switchboard.transports.Within room := by
  intro r hr
  refine h.allowed (.room r) ?_ r rfl
  rw [Table.mem_keys_iff]
  by_contra hnone
  exact hr (Switchboard.transports_of_none (Option.not_isSome_iff_eq_none.1 hnone))

theorem single (h : c.SoundIn identity settings room) : c.switchboard.transports.Single :=
  h.within.single

theorem applyChat_still (h : c.SoundIn identity settings room)
    (step : Conversation × List ChatEffect) :
    ∀ x ∈ (c.applyChat step).2, x.Still c.switchboard.transports := by
  intro x hx
  obtain ⟨effect, -, hx⟩ := List.mem_flatMap.1 hx
  cases effect with
  | transmit f =>
      unfold effectActions at hx
      dsimp only at hx
      split at hx
      · cases hx
      · exact h.switchboard.send_still f x hx
  | _ =>
      obtain rfl := List.mem_singleton.1 hx
      exact ⟨trivial, rfl⟩

theorem applyChat_leads (h : c.SoundIn identity settings room)
    (step : Conversation × List ChatEffect) :
    Leads c.switchboard.transports (c.applyChat step).2 c.switchboard.transports :=
  .of_still h.single (h.applyChat_still step)

theorem sendGlobal_still (h : c.SoundIn identity settings room) (frame : Option ClientFrame) :
    ∀ x ∈ c.sendGlobal frame, x.Still c.switchboard.transports := by
  cases frame with
  | none => simp [sendGlobal]
  | some f => exact h.switchboard.send_still f

theorem sendGlobal_leads (h : c.SoundIn identity settings room) (frame : Option ClientFrame) :
    Leads c.switchboard.transports (c.sendGlobal frame) c.switchboard.transports :=
  .of_still h.single (h.sendGlobal_still frame)

theorem releaseRoom_leads {room : Room} (h : c.SoundIn identity settings (some room))
    (ok : c.releaseRoom room = .ok (c', actions)) :
    Leads c.switchboard.transports actions c'.switchboard.transports := by
  obtain ⟨b, closing, hrelease, rfl, rfl⟩ := releaseRoom_eq_ok ok
  exact (h.applyChat_leads _).append
    (h.switchboard.release_leads hrelease h.within (Address.allowed_room room))

theorem join_leads {w : Transports} {released : List Action} (h : c.SoundIn identity settings none)
    (before : Leads w released c.switchboard.transports) (room : Room) :
    Leads w (c.join released room).2 (c.join released room).1.switchboard.transports := by
  have hacquired := Switchboard.acquire_leads h.within.of_none (Address.allowed_room room)
  have hentered := (h.acquireRoom room).applyChat_leads (c.conversation.enter room)
  exact (before.append hacquired).append hentered

end SoundIn

/-! ## Handlers -/

namespace Sound

theorem start_leads (h : c.Sound identity settings) (ok : c.start = .ok (c', actions)) :
    Leads c.switchboard.transports actions c'.switchboard.transports := by
  rcases start_cases ok with ⟨-, rfl, rfl⟩ | ⟨-, hkeep, rfl⟩
  · exact .nil h.single
  · rw [keepGlobal_transports hkeep]
    exact Switchboard.acquire_leads h.within (Address.allowed_global _)

theorem leaveRoom_leads (h : c.Sound identity settings) (ok : c.leaveRoom = .ok (c', actions)) :
    Leads c.switchboard.transports actions c'.switchboard.transports := by
  rcases leaveRoom_cases ok with ⟨-, rfl, rfl⟩ | ⟨room, left, released, hroom, hrelease, rfl, rfl⟩
  · exact .nil h.single
  · rw [Sound, hroom] at h
    exact (h.releaseRoom_leads hrelease).append ((h.released hrelease).applyChat_leads _)

theorem enterRoom_leads (h : c.Sound identity settings) {room : Room}
    (ok : c.enterRoom room = .ok (c', actions)) :
    Leads c.switchboard.transports actions c'.switchboard.transports := by
  rcases enterRoom_cases ok with
    ⟨-, rfl, rfl⟩ | ⟨hroom, rfl, rfl⟩ | ⟨old, left, released, hroom, -, hrelease, rfl, rfl⟩
  · exact .nil h.single
  · rw [Sound, hroom] at h
    exact h.join_leads (.nil h.single) room
  · rw [Sound, hroom] at h
    exact (h.released hrelease).join_leads (h.releaseRoom_leads hrelease) room

theorem shutdown_leads (h : c.Sound identity settings) (ok : c.shutdown = .ok (c', actions)) :
    Leads c.switchboard.transports actions c'.switchboard.transports := by
  obtain ⟨left, leaving, hleave, rfl, rfl⟩ := shutdown_eq_ok ok
  have hsound := (h.handles (r := ⟨.zero, none⟩) (e := .leaveRoom) hleave).sound
  exact (h.leaveRoom_leads hleave).append
    (hsound.switchboard.closeAll_leads hsound.within hsound.allowed)

theorem tick_leads (h : c.Sound identity settings) (now : Instant) :
    Leads c.switchboard.transports (c.tick now).2 (c.tick now).1.switchboard.transports := by
  have hlinks := h.switchboard.tick_leads now h.within h.allowed
  have hticked := h.ticked now
  exact (hlinks.append (hticked.sendGlobal_leads _)).append (hticked.applyChat_leads _)

theorem watch_leads (h : c.Sound identity settings) {users : List UserId}
    (ok : c.watch users = .ok (c', actions)) :
    Leads c.switchboard.transports actions c'.switchboard.transports := by
  have hsound := (h.handles (r := ⟨.zero, none⟩) (e := .watch users) ok).sound
  rcases watch_cases ok with ⟨roster, -, rfl, rfl⟩ | ⟨roster, frame, -, rfl, hkept⟩
  · exact .nil h.single
  · have hsame : c'.switchboard.transports = c.switchboard.transports := by
      rcases hkept with ⟨-, hkeep⟩ | ⟨-, rfl⟩
      · exact keepGlobal_transports (c := { c with roster }) hkeep
      · rfl
    rw [← hsame]
    exact hsound.sendGlobal_leads _

/-- Frames that come in leave the channels as they are. -/
theorem frameReceived_leads (h : c.Sound identity settings) (r : Reading) (a : Address)
    (text : String) : Leads c.switchboard.transports (c.frameReceived r a text).2
      (c.frameReceived r a text).1.switchboard.transports := by
  rw [frameReceived_footprint.switchboard]
  exact .of_still h.single fun x hx => Action.still_of_inward (frameReceived_inward x hx) _

theorem transportOpened_leads (h : c.Sound identity settings) (r : Reading) {a : Address}
    (held : (c.switchboard.link? a).isSome) :
    Leads (Happening.next c.switchboard.transports (.heard (.transportOpened a)))
      (c.transportOpened r a).2 (c.transportOpened r a).1.switchboard.transports := by
  refine h.switchboard.opened_leads held r.now h.within (h.allowed a ?_)
  rwa [Table.mem_keys_iff, ← Switchboard.link?_isSome]

theorem transportClosed_leads (h : c.Sound identity settings) {a : Address}
    (ok : c.transportClosed r a = .ok (c', actions)) :
    Leads (Happening.next c.switchboard.transports (.heard (.transportClosed a)))
      actions c'.switchboard.transports := by
  have hsound := (h.handles (e := .transportClosed a) ok).sound
  obtain ⟨b, entropy, hlost, rfl, rfl⟩ := transportClosed_eq_ok ok
  show Leads (Function.update _ a .idle) [] b.transports
  rw [← Switchboard.lost_transports hlost]
  exact .nil hsound.single

end Sound

/-! ## Events -/

/-- A transport has come up that nobody holds; it is given up at once, and all else stays. -/
structure Unheld (c : Client) (e : Event) (a : Address) : Prop where
  event : e = .transportOpened a
  unheld : c.switchboard.link? a = none

theorem transportOpened_of_unheld {a : Address} (unheld : c.switchboard.link? a = none) :
    c.transportOpened r a = (c, [.closeTransport a]) := by
  unfold transportOpened
  rw [Switchboard.opened_of_unheld unheld]
  rfl

/-- What an event is answered with is permitted, action by action. -/
theorem Sound.leads (h : c.Sound identity settings) (ok : c.handle r e = .ok (c', actions)) :
    Leads (Happening.next c.switchboard.transports (.heard e)) actions c'.switchboard.transports ∨
      ∃ a, c.Unheld e a ∧ c' = c ∧ actions = [.closeTransport a] := by
  cases e with
  | start => exact .inl (h.start_leads ok)
  | shutdown => exact .inl (h.shutdown_leads ok)
  | transportOpened a =>
      cases ok
      cases hlink : c.switchboard.link? a with
      | none =>
          have hopened := transportOpened_of_unheld (r := r) hlink
          exact .inr ⟨a, ⟨rfl, hlink⟩, congrArg Prod.fst hopened, congrArg Prod.snd hopened⟩
      | some link => exact .inl (h.transportOpened_leads r (by simp [hlink]))
  | transportClosed a => exact .inl (h.transportClosed_leads ok)
  | frameReceived a text =>
      have hframe : c.frameReceived r a text = (c', actions) := Except.ok.inj ok
      have hleads := h.frameReceived_leads r a text
      rw [hframe] at hleads
      exact .inl hleads
  | tick now =>
      cases ok
      exact .inl (h.tick_leads now)
  | enterRoom room => exact .inl (h.enterRoom_leads ok)
  | leaveRoom => exact .inl (h.leaveRoom_leads ok)
  | loadOlder | reloadHistory | input | historyLoaded | posted =>
      cases ok
      exact .inl (h.applyChat_leads _)
  | send text =>
      obtain ⟨wall, step, -, -, rfl, rfl⟩ := send_eq_ok ok
      exact .inl (h.applyChat_leads step)
  | activity =>
      cases ok
      exact .inl (h.sendGlobal_leads _)
  | setAvailability availability =>
      cases ok
      exact .inl (h.sendGlobal_leads _)
  | setNote note emoji =>
      obtain ⟨wall, -, rfl, rfl⟩ := setNote_eq_ok ok
      exact .inl ((h.sendGlobal_leads _).append (.cons h.single trivial (.nil h.single)))
  | watch users => exact .inl (h.watch_leads ok)

/-! ## Runs -/

/-- At every point of a turn the next action is permitted, or it is the answer to a transport that
came up and that nobody holds; and no two rooms have a transport. -/
structure Turn.Disciplined (t : Turn) (after : Transports) : Prop where
  permitted : ∀ done x todo, t.actions = done ++ x :: todo →
    x.Permitted ((Happening.heard t.event :: done.map .done).foldl Happening.next
      t.before.switchboard.transports) ∨
    done = [] ∧ ∃ a, x = .closeTransport a ∧ t.before.Unheld t.event a
  single : ∀ done todo, t.actions = done ++ todo →
    Transports.Single ((Happening.heard t.event :: done.map .done).foldl Happening.next
      t.before.switchboard.transports)
  ends : t.happenings.foldl Happening.next t.before.switchboard.transports = after

theorem Sound.disciplined (h : c.Sound identity settings)
    (ok : c.handle r e = .ok (c', actions)) :
    Turn.Disciplined ⟨c, r, e, actions⟩ c'.switchboard.transports := by
  rcases h.leads ok with hleads | ⟨a, hunheld, rfl, rfl⟩
  · refine ⟨fun done x todo heq => .inl ?_, fun done todo heq => ?_, hleads.end_eq⟩
    · cases hleads.split done (x :: todo) heq with
      | cons _ permitted _ => exact permitted
    · exact (hleads.split done todo heq).single
  · obtain ⟨rfl, hnone⟩ := hunheld
    have hidle : c'.switchboard.transports a = .idle :=
      Switchboard.transports_of_none (Option.map_eq_none_iff.1 hnone)
    have hstays : Function.update c'.switchboard.transports a .idle =
        c'.switchboard.transports := by
      rw [← hidle, Function.update_eq_self]
    have hheard : Happening.next c'.switchboard.transports (.heard (.transportOpened a)) =
        c'.switchboard.transports := by
      show Function.update _ a _ = _
      rw [hidle]
      exact hstays
    refine ⟨fun done x todo heq => .inr ?_, fun done todo heq => ?_, ?_⟩
    · cases done with
      | nil => exact ⟨rfl, a, (List.cons.inj heq).1.symm, rfl, hnone⟩
      | cons y done => simp at heq
    · rw [List.foldl_cons, hheard]
      rcases List.singleton_eq_append_iff.1 heq with ⟨rfl, -⟩ | ⟨rfl, -⟩
      · exact h.single
      · show Transports.Single (Function.update _ a .idle)
        rw [hstays]
        exact h.single
    · show Function.update (Happening.next _ _) a .idle = _
      rw [hheard, hstays]

/-- The last that has happened is that a transport came up that nobody held. -/
def CameUpUnheld (log : List Turn) (past : Trace) (a : Address) : Prop :=
  ∃ earlier t later, log = earlier ++ t :: later ∧
    past = trace earlier ++ [.heard t.event] ∧ t.before.Unheld t.event a

theorem CameUpUnheld.snoc {past : Trace} {a : Address} (h : CameUpUnheld log past a) (t : Turn) :
    CameUpUnheld (log ++ [t]) past a := by
  obtain ⟨earlier, t', later, rfl, hpast, hunheld⟩ := h
  exact ⟨earlier, t', later ++ [t], by simp, hpast, hunheld⟩

/-- What holds at every point of the stream of a run. -/
structure Follows (log : List Turn) (c : Client) : Prop where
  transports : (trace log).transports = c.switchboard.transports
  permitted : ∀ past x future, trace log = past ++ .done x :: future →
    x.Permitted past.transports ∨ ∃ a, x = .closeTransport a ∧ CameUpUnheld log past a
  single : ∀ past future, trace log = past ++ future → past.transports.Single

theorem follows_start (h : c.Sound identity settings)
    (idle : c.switchboard.transports = fun _ => .idle) : Follows [] c := by
  refine ⟨idle.symm, fun past x future heq => ?_, fun past future heq => ?_⟩
  · simp [trace] at heq
  · obtain ⟨rfl, -⟩ := List.nil_eq_append_iff.1 heq
    rw [show Trace.transports [] = c.switchboard.transports from idle.symm]
    exact h.single

/-- The points of the stream after one more turn are those before it and those within it. -/
theorem trace_snoc_split {t : Turn} {past future : Trace}
    (heq : trace (log ++ [t]) = past ++ future) :
    (∃ future', trace log = past ++ future' ∧ future = future' ++ t.happenings) ∨
      ∃ done todo, t.actions = done ++ todo ∧ future = todo.map .done ∧
        past = trace log ++ .heard t.event :: done.map .done := by
  rw [trace_snoc] at heq
  rcases List.append_eq_append_iff.1 heq with ⟨within, rfl, hwithin⟩ | ⟨future', hlog, hfuture⟩
  · cases within with
    | nil => exact .inl ⟨[], by simp, hwithin.symm⟩
    | cons first within =>
        obtain ⟨rfl, hactions⟩ := List.cons.inj hwithin
        obtain ⟨done, todo, hsplit, rfl, rfl⟩ := List.map_eq_append_iff.1 hactions
        exact .inr ⟨done, todo, hsplit, rfl, rfl⟩
  · exact .inl ⟨future', hlog, hfuture⟩

theorem Follows.turn (h : Follows log c) (sound : c.Sound identity settings)
    (ok : c.handle r e = .ok (c', actions)) : Follows (log ++ [⟨c, r, e, actions⟩]) c' := by
  have disciplined := sound.disciplined ok
  refine ⟨?_, fun past x future heq => ?_, fun past future heq => ?_⟩
  · rw [trace_snoc, Trace.transports_append, h.transports]
    exact disciplined.ends
  · rcases trace_snoc_split heq with ⟨future', hlog, hfuture⟩ | ⟨done, todo, hsplit, hmap, rfl⟩
    · cases future' with
      -- What comes next after the earlier turns is an event and no action.
      | nil => simp [Turn.happenings] at hfuture
      | cons first future' =>
          obtain ⟨rfl, -⟩ := List.cons.inj hfuture
          exact (h.permitted past x future' hlog).imp id fun ⟨a, hx, hup⟩ => ⟨a, hx, hup.snoc _⟩
    · obtain ⟨x', todo', rfl, hx, -⟩ := List.map_eq_cons_iff.1 hmap.symm
      obtain rfl : x' = x := Happening.done.inj hx
      rw [Trace.transports_append, h.transports]
      refine (disciplined.permitted done x' todo' hsplit).imp id ?_
      rintro ⟨rfl, a, rfl, hunheld⟩
      exact ⟨a, rfl, log, _, [], rfl, rfl, hunheld⟩
  · rcases trace_snoc_split heq with ⟨future', hlog, -⟩ | ⟨done, todo, hsplit, -, rfl⟩
    · exact h.single past future' hlog
    · rw [Trace.transports_append, h.transports]
      exact disciplined.single done todo hsplit

theorem Run.follows {start : Client} (run : Run start log c) (sound : start.Sound identity settings)
    (idle : start.switchboard.transports = fun _ => .idle) : Follows log c := by
  induction run with
  | start => exact follows_start sound idle
  | turn run handled ih => exact ih.turn (run.sound sound) handled

/-- At every point of the stream of events and actions of a run: a transport is asked for only while
it is not live, a frame is sent only on one that has opened since it was asked for, and a transport
is given up only while it is live or as the answer to one that came up and that nobody held. The
transports of no two rooms are ever live. Between events a transport is live exactly if it is that
of a link that is being opened or live. -/
theorem transports_disciplined (identity : Identity) (settings : Settings) (start : Instant)
    (entropy : Entropy) (log : List Turn) (c : Client)
    (run : Run (new identity settings start entropy) log c) :
    (∀ (past : Trace) a future, trace log = past ++ .done (.openTransport a) :: future →
        ¬ past.Live a) ∧
      (∀ (past : Trace) a text future,
        trace log = past ++ .done (.sendFrame a text) :: future → past.Live a ∧ past.Up a) ∧
      (∀ (past : Trace) a future, trace log = past ++ .done (.closeTransport a) :: future →
        past.Live a ∨ CameUpUnheld log past a) ∧
      (∀ (past : Trace) future, trace log = past ++ future →
        ∀ r r', past.Live (.room r) → past.Live (.room r') → r = r') ∧
      ∀ a, (trace log).Live a ↔ ∃ link, c.switchboard.link? a = some link ∧
        (link.phase = .opening ∨ link.isLive = true) := by
  have follows := run.follows (sound_new identity settings start entropy) rfl
  refine ⟨fun past a future heq => ?_, fun past a text future heq => ?_,
    fun past a future heq => ?_, fun past future heq r r' hr hr' => ?_, fun a => ?_⟩
  · rcases follows.permitted past _ future heq with hidle | ⟨_, hx, -⟩
    · rw [← (past.transports_spec a).1, not_not]
      exact hidle
    · cases hx
  · rcases follows.permitted past _ future heq with hup | ⟨_, hx, -⟩
    · have hup' : past.Up a := (past.transports_spec a).2.1 hup
      exact ⟨hup'.live, hup'⟩
    · cases hx
  · refine (follows.permitted past _ future heq).imp (past.transports_spec a).1.1 ?_
    rintro ⟨_, ⟨⟩, hup⟩
    exact hup
  · exact follows.single past future heq r r' ((past.transports_spec _).1.2 hr)
      ((past.transports_spec _).1.2 hr')
  · rw [← ((trace log).transports_spec a).1, follows.transports]
    unfold Switchboard.transports
    cases hlink : c.switchboard.link? a with
    | none => simp
    | some link => simpa using Link.transport_ne_idle_iff (l := link)

/-- The transport of a room comes up after the user has gone on to another room: it is given up, and
only that of the other room stays live. -/
theorem late_transport_given_up :
    ∃ log c, Run (new ⟨1, "ada"⟩ .standard .zero (.cycle [])) log c ∧
      log.map Turn.event = [.start, .enterRoom ⟨1, 2⟩, .enterRoom ⟨1, 3⟩,
        .transportOpened (.room ⟨1, 3⟩), .transportOpened (.room ⟨1, 2⟩)] ∧
      trace log = (trace log).dropLast ++ [.done (.closeTransport (.room ⟨1, 2⟩))] ∧
      CameUpUnheld log (trace log).dropLast (.room ⟨1, 2⟩) ∧
      (∀ r, (trace log).Live (.room r) ↔ r = ⟨1, 3⟩) := by
  have fresh : Run (new ⟨1, "ada"⟩ .standard .zero (.cycle [])) [] _ := .start
  have started := Run.turn (r := ⟨.zero, none⟩) (e := .start) fresh rfl
  have entered := Run.turn (r := ⟨.zero, none⟩) (e := .enterRoom ⟨1, 2⟩) started rfl
  have left := Run.turn (r := ⟨.zero, none⟩) (e := .enterRoom ⟨1, 3⟩) entered rfl
  have opened := Run.turn (r := ⟨.zero, none⟩) (e := .transportOpened (.room ⟨1, 3⟩)) left rfl
  have run := Run.turn (r := ⟨.zero, none⟩) (e := .transportOpened (.room ⟨1, 2⟩)) opened rfl
  obtain ⟨-, -, hclosed, hsingle, hlive⟩ := transports_disciplined _ _ _ _ _ _ run
  refine ⟨_, _, run, rfl, rfl, ?_, fun r => ⟨fun hr => ?_, ?_⟩⟩
  · refine (hclosed _ (.room ⟨1, 2⟩) [] rfl).resolve_left fun h => ?_
    exact ((Trace.transports_spec _ _).1.2 h) rfl
  · refine hsingle _ [] (List.append_nil _).symm r ⟨1, 3⟩ hr ?_
    exact (hlive _).2 ⟨_, rfl, .inr rfl⟩
  · rintro rfl
    exact (hlive _).2 ⟨_, rfl, .inr rfl⟩

end LiveChat.Client
