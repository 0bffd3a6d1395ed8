import LiveChat.Proofs.Simulation.Settle

/-!
# Calls

A run is a list of calls to a session. While the service answers at once, each call leaves nothing
pending and nothing queued, and what it leaves in the logs is known before it is made.
-/

namespace LiveChat.Simulation

open Client (Event)

inductive Call where
  | dispatch (e : Event)
  | advance (span : Duration)
  | drop (a : Address)
  | openTransport (a : Address)
  | deliver (a : Address) (f : ServerFrame)
  | failPosts (on : Bool)
  | failHistory (on : Bool)
  | autoOpen (on : Bool)

def call (s : Simulation) : Call → Step
  | .dispatch e => s.dispatch e
  | .advance span => s.advance span
  | .drop a => s.drop a
  | .openTransport a => s.openTransport a
  | .deliver a f => s.deliver a f
  | .failPosts on => .ok { s with server := { s.server with failPosts := on } }
  | .failHistory on => .ok { s with server := { s.server with failHistory := on } }
  | .autoOpen on => .ok { s with options := { s.options with autoOpen := on } }

def callAll (s : Simulation) (calls : List Call) : Step := calls.foldlM call s

/-- The message that a call gets accepted, with the room that it goes to. -/
def accepted? (s : Simulation) : Call → Option (Room × String)
  | .dispatch (.send text) => (s.client.accepts? s.clock.now text).map fun room => (room, text)
  | _ => none

/-- What a call leaves in the logs of the service: an accepted message under the next number, if it
can be stored, and nothing else. -/
def Accounts (s : Simulation) (call : Call) (s' : Simulation) : Prop :=
  match s.accepted? call with
  | none => ∀ room, s'.server.log room = s.server.log room
  | some (room, text) => ∃ wall ref, s.clock.wall = some wall ∧
      Conversation.nextRef s.client.conversation.lastRef wall = .ok ref ∧
      Server.Grows s.stores room (s.server.record room s.client.identity.user text (some ref))
        s.server s'.server

variable {identity : Identity} {settings : LinkSettings} {s s' : Simulation} {e : Event}

structure Calm (identity : Identity) (settings : LinkSettings) (s : Simulation) : Prop where
  steady : Steady identity settings [] s
  queue : s.queue = []

theorem calm_new (identity : Identity) (settings : Settings) (epoch : Int64) (entropy : Entropy)
    (autoOpen audited : Bool) :
    Calm identity settings.link
      (new identity settings epoch entropy ⟨autoOpen, true, true, false⟩ audited) :=
  ⟨⟨Client.sound_new _ _ _ _, rfl, ⟨rfl, rfl, rfl, rfl⟩⟩, rfl⟩

/-! ## Emptying the queue -/

theorem drain_succ (s : Simulation) (rounds : Nat) :
    s.drain (rounds + 1) = s.queue.foldlM process { s with queue := [] } >>= drain rounds := rfl

theorem drain_of_empty (h : s.queue = []) (rounds : Nat) : s.drain rounds = .ok s := by
  induction rounds with
  | zero => rfl
  | succ rounds ih =>
      have hsame : { s with queue := [] } = s := by rw [← h]
      rw [drain_succ, h, List.foldlM_nil, hsame]
      exact ih

/-- The only event in the queue is handled first. -/
theorem drain_of_one {s t : Simulation} (h : s.queue = [e]) (ht : t = { s with queue := [] })
    (rounds : Nat) : s.drain (rounds + 1) = t.process e >>= drain rounds := by
  rw [drain_succ, h, ← ht, List.foldlM_cons]
  cases t.process e <;> rfl

theorem dispatch_of_empty (h : s.queue = []) (e : Event) :
    s.dispatch e = s.process e >>= drain 2 := by
  refine drain_of_one ?_ ?_ 2
  · show s.queue ++ [e] = [e]
    rw [h]
    rfl
  · show s = { s with queue := [] }
    rw [← h]

theorem Steady.with_queue {refs : List Ref} (h : Steady identity settings refs s)
    (queue : List Event) : Steady identity settings refs { s with queue := queue } :=
  ⟨h.client, h.pending, h.responsive.of_same rfl rfl⟩

theorem Steady.drain_answers (h : Steady identity settings [] s)
    (answers : ∀ e ∈ s.queue, e.isAnswer = true) (rounds : Nat) :
    Yields (s.drain (rounds + 1)) fun s' =>
      Calm identity settings s' ∧ s.server.Same s'.server := by
  rw [drain_succ]
  refine Yields.bind (Yields.foldlM (p := fun t =>
    Calm identity settings t ∧ s.server.Same t.server) ?_ fun t e he ht => ?_) fun t ht => ?_
  · exact ⟨⟨h.with_queue [], rfl⟩, .refl _⟩
  · obtain ⟨calm, hsame⟩ := ht
    have hanswer := answers e he
    have hsend : e.isSend = false := by cases e <;> first | rfl | cases hanswer
    refine (calm.steady.receives hsend).mono fun t' ⟨hsteady, hqueue, hserver⟩ => ?_
    rw [hanswer] at hqueue
    exact ⟨⟨hsteady, hqueue.eq.trans calm.queue⟩, hsame.trans hserver⟩
  · exact .of_eq (drain_of_empty ht.1.queue rounds) ht

/-! ## One call -/

theorem Calm.receives (h : Calm identity settings s) (receives : e.isSend = false) :
    Yields (s.dispatch e) fun s' => Calm identity settings s' ∧ s.server.Same s'.server := by
  rw [dispatch_of_empty h.queue]
  refine (h.steady.receives receives).bind fun t ⟨hsteady, hqueue, hserver⟩ => ?_
  obtain ⟨new, hnew, hanswers, -⟩ := hqueue
  rw [h.queue, List.nil_append] at hnew
  refine (hsteady.drain_answers (by rwa [hnew]) 1).mono fun s' ⟨calm, hsame⟩ => ?_
  exact ⟨calm, hserver.trans hsame⟩

/-- What is posted is settled in the next round. -/
theorem Posted.drain {room : Room} {text : String} {ref : Ref} {t : Simulation}
    (posted : Posted identity settings s room text ref t) (empty : s.queue = []) :
    Yields (t.drain 2) fun s' => Calm identity settings s' ∧ t.server.Same s'.server := by
  obtain ⟨e, hqueue, settles⟩ := posted.queue
  rw [empty, List.nil_append] at hqueue
  rw [drain_of_one hqueue rfl]
  have hsteady := posted.steady.with_queue []
  refine (hsteady.settles posted.active settles).bind fun s' ⟨hsettled, hempty, hserver⟩ => ?_
  exact .of_eq (drain_of_empty hempty 1) ⟨⟨hsettled, hempty⟩, hserver⟩

theorem Calm.sends (h : Calm identity settings s) (text : String) :
    Yields (s.dispatch (.send text)) fun s' =>
      Calm identity settings s' ∧ s.Accounts (.dispatch (.send text)) s' := by
  rw [dispatch_of_empty h.queue]
  refine (h.steady.sends text).bind fun t ht => ?_
  unfold Accounts accepted?
  rcases ht with ⟨hdropped, rfl⟩ | ⟨room, ref, haccepted, posted⟩
  · refine .of_eq (drain_of_empty h.queue 2) ⟨h, ?_⟩
    simp [hdropped]
  · refine (posted.drain h.queue).mono fun s' ⟨calm, hserver⟩ => ⟨calm, ?_⟩
    obtain ⟨wall, hwall, hnumber⟩ := posted.number
    have hgrows := posted.log.after hserver
    rw [← h.steady.client.self] at hgrows
    simp only [haccepted, Option.map_some]
    exact ⟨wall, ref, hwall, hnumber, hgrows⟩

/-- The clock, the transports and the switches do not matter to a calm session. -/
theorem Calm.altered (h : Calm identity settings s) (clock : Clock)
    (transports : Table Address Unit) (autoOpen failPosts failHistory : Bool) :
    Calm identity settings { s with
      clock := clock
      transports := transports
      options := { s.options with autoOpen := autoOpen }
      server := { s.server with failPosts := failPosts, failHistory := failHistory } } :=
  have responsive := h.steady.responsive
  ⟨⟨h.steady.client, h.steady.pending,
    ⟨responsive.user, responsive.echoMessages, responsive.echoRefs, responsive.answers⟩⟩, h.queue⟩

theorem Accounts.of_none {call : Call} (none : s.accepted? call = none)
    (log : ∀ room, s'.server.log room = s.server.log room) : s.Accounts call s' := by
  unfold Accounts
  rw [none]
  exact log

/-- The call comes to an event in a session with the same logs. -/
theorem Calm.hears {t : Simulation} {call : Call} (h : Calm identity settings t)
    (server : t.server = s.server) (receives : e.isSend = false)
    (none : s.accepted? call = none) :
    Yields (t.dispatch e) fun s' => Calm identity settings s' ∧ s.Accounts call s' := by
  refine (h.receives receives).mono fun s' ⟨calm, hsame⟩ => ⟨calm, .of_none none fun room => ?_⟩
  rw [hsame.log, server]

theorem Clock.advance_error {c : Clock} {span : Duration} {f : Fault}
    (h : c.advance span = .error f) : f = .overflow := by
  unfold advance at h
  cases hadd : c.elapsed.add span with
  | ok elapsed =>
      rw [hadd] at h
      cases h
  | error g =>
      rw [hadd] at h
      cases h
      exact Duration.add_error hadd

theorem Calm.call (h : Calm identity settings s) (call : Call) :
    Yields (s.call call) fun s' => Calm identity settings s' ∧ s.Accounts call s' := by
  have moved := fun clock transports =>
    h.altered clock transports s.options.autoOpen s.server.failPosts s.server.failHistory
  have switched := h.altered s.clock s.transports
  cases call with
  | dispatch e =>
      cases e with
      | send text => exact h.sends text
      | _ => exact h.hears rfl rfl rfl
  | advance span =>
      refine (Yields.liftFault fun f => ?_).bind fun clock _ => ?_
      · exact Clock.advance_error
      · exact (moved clock s.transports).hears rfl rfl rfl
  | drop a => exact (moved s.clock (s.transports.erase a)).hears rfl rfl rfl
  | openTransport a => exact (moved s.clock (s.transports.insert a ())).hears rfl rfl rfl
  | deliver a f => exact h.hears rfl rfl rfl
  | failPosts on =>
      exact .of_eq rfl ⟨switched s.options.autoOpen on s.server.failHistory,
        .of_none rfl fun _ => rfl⟩
  | failHistory on =>
      exact .of_eq rfl ⟨switched s.options.autoOpen s.server.failPosts on,
        .of_none rfl fun _ => rfl⟩
  | autoOpen on =>
      exact .of_eq rfl ⟨switched on s.server.failPosts s.server.failHistory,
        .of_none rfl fun _ => rfl⟩

/-! ## Runs -/

theorem Calm.callAll (h : Calm identity settings s) (calls : List Call) :
    Yields (s.callAll calls) (Calm identity settings) :=
  Yields.foldlM h fun _ call _ hb => (hb.call call).mono fun _ hcall => hcall.1

/-- Whatever is done with a new session whose service sends messages back under their numbers and
answers requests at once, nothing is pending after any call unless an amount is out of range, and
the next call stores the message that it gets accepted, once and under its number, or nothing if it
gets none accepted or the room's channel is down and posting fails. -/
theorem sends_settle (identity : Identity) (settings : Settings) (epoch : Int64)
    (entropy : Entropy) (autoOpen audited : Bool) (calls : List Call) :
    Yields
      ((new identity settings epoch entropy ⟨autoOpen, true, true, false⟩ audited).callAll calls)
      fun s => s.client.conversation.timeline.pending = [] ∧
        ∀ call, Yields (s.call call) (s.Accounts call) := by
  refine ((calm_new identity settings epoch entropy autoOpen audited).callAll calls).mono
    fun s calm => ⟨?_, fun call => (calm.call call).mono fun _ hcall => hcall.2⟩
  exact (Timeline.refs_eq_nil_iff _).1 calm.steady.pending

/-- A message is sent by a request, as the channel of the room is not open yet. -/
example :
    let calls : List Call := [.dispatch (.enterRoom ⟨1, 2⟩), .dispatch (.send "hi")]
    let s := (new ⟨1, "ada"⟩ .standard 0 (.cycle []) ⟨false, true, true, false⟩ true).callAll calls
    s.toOption.map (fun s => (s.client.conversation.timeline.length, s.server.log ⟨1, 2⟩)) =
      some (1, [⟨1, some 2, some 1, some "user1", none, "hi", .text, 1, some 1⟩]) := by
  rfl

end LiveChat.Simulation
