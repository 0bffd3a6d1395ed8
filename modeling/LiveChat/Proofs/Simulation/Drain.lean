import LiveChat.Proofs.Simulation.Session
import Mathlib.Logic.Relation

/-!
# Emptying the queue

The queue is emptied by a loop that takes the first event, has the client handle it, and queues what
follows behind the others. Going through the queue in rounds is that loop. It ends from wherever a
session can come to: whatever is queued leads to answers only, and an answer leads to nothing, so
after two rounds nothing is left. What can stop it earlier is an amount that is out of range.
-/

namespace LiveChat

theorem Client.Sound.with_entropy {c : Client} {identity : Identity} {settings : LinkSettings}
    (h : c.Sound identity settings) (entropy : Entropy) :
    { c with entropy := entropy }.Sound identity settings :=
  { h with }

namespace Simulation

open Client (Event Action Error Handles)
open Relation (ReflTransGen)

/-! ## The loop -/

/-- One turn of the loop: the first event of the queue has been handled. -/
def Turned (s s' : Simulation) : Prop :=
  ∃ e rest, s.queue = e :: rest ∧ { s with queue := rest }.process e = .ok s'

/-- The first event of the queue cannot be handled. -/
def Stuck (s : Simulation) (error : Error) : Prop :=
  ∃ e rest, s.queue = e :: rest ∧ { s with queue := rest }.process e = .error error

/-- The last number for a message is taken. -/
def Server.Full (s : Server) : Prop := s.nextId.toNat + 1 = UInt64.size

/-- An amount that the event needs is out of range, for the client or for the service. -/
def Exceeds (s : Simulation) (e : Event) : Prop :=
  s.client.OutOfRange s.reading e ∨ e.isSend = true ∧ s.server.Full

/-- The first event of the queue needs an amount that is out of range. -/
def Overruns (s : Simulation) : Prop := ∃ e rest, s.queue = e :: rest ∧ s.Exceeds e

/-- The loop ends: with an empty queue, or where an amount is out of range. -/
def Drains (s : Simulation) (result : Step) : Prop :=
  ∃ t, ReflTransGen Turned s t ∧ (∀ u, ¬ Turned t u) ∧
    (t.queue = [] ∧ result = .ok t ∨ t.Overruns ∧ result = .error (.fault .overflow))

variable {s s' t : Simulation} {e : Event} {x : Action} {actions : List Action} {error : Error}
  {identity : Identity} {settings : LinkSettings}

/-- The loop has no choice. -/
theorem Turned.unique {u : Simulation} (h : s.Turned t) (h' : s.Turned u) : t = u := by
  obtain ⟨e, rest, hqueue, ok⟩ := h
  obtain ⟨e', rest', hqueue', ok'⟩ := h'
  obtain ⟨rfl, rfl⟩ := List.cons.inj (hqueue.symm.trans hqueue')
  exact Except.ok.inj (ok.symm.trans ok')

theorem not_turned_of_empty (h : s.queue = []) : ¬ s.Turned t := by
  rintro ⟨e, rest, hqueue, -⟩
  rw [h] at hqueue
  cases hqueue

theorem Stuck.not_turned (h : s.Stuck error) : ¬ s.Turned t := by
  obtain ⟨e, rest, hqueue, herror⟩ := h
  rintro ⟨e', rest', hqueue', ok⟩
  obtain ⟨rfl, rfl⟩ := List.cons.inj (hqueue.symm.trans hqueue')
  rw [herror] at ok
  cases ok

/-! ## Rounds are turns -/

/-- Events are queued before all others. -/
def ahead (events : List Event) (s : Simulation) : Simulation :=
  { s with queue := events ++ s.queue }

theorem ahead_queue (s : Simulation) : ahead s.queue { s with queue := [] } = s := by
  unfold ahead
  rw [List.append_nil]

theorem enqueue_ahead (events : List Event) (s : Simulation) (e : Event) :
    (ahead events s).enqueue e = ahead events (s.enqueue e) := by
  unfold enqueue ahead
  rw [List.append_assoc]

theorem answer_ahead (events : List Event) (s : Simulation) (e : Event) :
    (ahead events s).answer e = ahead events (s.answer e) := by
  have hoptions : (ahead events s).options = s.options := rfl
  unfold answer
  rw [hoptions, enqueue_ahead]
  cases s.options.holdAnswers <;> rfl

theorem echo_ahead (events : List Event) (s : Simulation) (room : Room) (body : String)
    (ref : Option Ref) :
    (ahead events s).echo room body ref = (s.echo room body ref).map (ahead events) := by
  have hoptions : (ahead events s).options = s.options := rfl
  have hpost : (ahead events s).server.post room (ahead events s).client.identity.user body ref =
      s.server.post room s.client.identity.user body ref := rfl
  unfold echo
  rw [hoptions, hpost]
  cases s.options.echoMessages with
  | false => rfl
  | true =>
      cases s.server.post room s.client.identity.user body ref with
      | error f => rfl
      | ok stored => exact congrArg Except.ok (enqueue_ahead events { s with server := stored.1 } _)

theorem transmit_ahead (events : List Event) (s : Simulation) (a : Address) (text : String) :
    (ahead events s).transmit a text = (s.transmit a text).map (ahead events) := by
  unfold transmit
  cases ClientFrame.decode text with
  | none => rfl
  | some f =>
      dsimp only
      split
      · next body ref room =>
        rw [echo_ahead]
        cases s.echo room body ref <;> rfl
      · rfl

theorem execute_openTransport (s : Simulation) (a : Address) :
    s.execute (.openTransport a) = .ok (if s.options.autoOpen then
        { s with
          openRequests := s.openRequests ++ [a]
          transports := s.transports.insert a () }.enqueue (.transportOpened a)
      else { s with openRequests := s.openRequests ++ [a] }) := rfl

/-- What is queued first does not matter to what an action does. -/
theorem execute_ahead (events : List Event) (s : Simulation) (x : Action) :
    (ahead events s).execute x = (s.execute x).map (ahead events) := by
  cases x with
  | openTransport a =>
      have hoptions : (ahead events s).options = s.options := rfl
      rw [execute_openTransport, execute_openTransport, hoptions]
      refine congrArg Except.ok ?_
      cases s.options.autoOpen with
      | false => rfl
      | true => exact enqueue_ahead events { s with
          openRequests := s.openRequests ++ [a], transports := s.transports.insert a () } _
  | sendFrame a text => exact transmit_ahead events s a text
  | fetchHistory q => exact congrArg Except.ok (answer_ahead events { s with server := _ } _)
  | postMessage q =>
      show liftFault (s.server.requestPost q.room q.body q.ref) >>= _ =
        Except.map _ (liftFault (s.server.requestPost q.room q.body q.ref) >>= _)
      cases s.server.requestPost q.room q.body q.ref with
      | error f => rfl
      | ok stored =>
          exact congrArg Except.ok (answer_ahead events { s with server := stored.1 } _)
  | _ => rfl

theorem executeAll_ahead (events : List Event) (s : Simulation) (actions : List Action) :
    actions.foldlM execute (ahead events s) =
      (actions.foldlM execute s).map (ahead events) := by
  induction actions generalizing s with
  | nil => rfl
  | cons x rest ih =>
      rw [List.foldlM_cons, List.foldlM_cons, execute_ahead]
      cases s.execute x with
      | error f => rfl
      | ok next => exact ih next

theorem audit_ahead (events : List Event) (s : Simulation) (context : String) :
    (ahead events s).audit context = (s.audit context).map (ahead events) := by
  have haudited : (ahead events s).audited = s.audited := rfl
  have hsnapshot : (ahead events s).snapshot = s.snapshot := rfl
  unfold audit
  rw [haudited, hsnapshot]
  cases s.audited with
  | false => rfl
  | true => cases Audit.report? s.snapshot context <;> rfl

theorem process_ahead (events : List Event) (s : Simulation) (e : Event) :
    (ahead events s).process e = (s.process e).map (ahead events) := by
  have hhandle : (ahead events s).client.handle (ahead events s).reading e =
      s.client.handle s.reading e := rfl
  unfold process
  rw [hhandle]
  cases s.client.handle s.reading e with
  | error f => rfl
  | ok handled =>
      obtain ⟨client, actions⟩ := handled
      have hrun := executeAll_ahead events { s with client := client } actions
      show actions.foldlM execute (ahead events { s with client := client }) >>= _ =
        Except.map _ (actions.foldlM execute { s with client := client } >>= _)
      rw [hrun]
      cases actions.foldlM execute { s with client := client } with
      | error f => rfl
      | ok done => exact audit_ahead events done _

/-- Handling the first event of a session with others behind it is a turn. -/
theorem turned_of_process {rest : List Event} (ok : s.process e = .ok s') :
    (ahead (e :: rest) s).Turned (ahead rest s') := by
  refine ⟨e, rest ++ s.queue, rfl, ?_⟩
  show (ahead rest s).process e = _
  rw [process_ahead, ok]
  rfl

theorem stuck_of_process {rest : List Event} (failed : s.process e = .error error) :
    (ahead (e :: rest) s).Stuck error := by
  refine ⟨e, rest ++ s.queue, rfl, ?_⟩
  show (ahead rest s).process e = _
  rw [process_ahead, failed]
  rfl

theorem round_turned {events : List Event} (ok : events.foldlM process s = .ok t) :
    ReflTransGen Turned (ahead events s) t := by
  induction events generalizing s with
  | nil =>
      cases ok
      exact .refl
  | cons e rest ih =>
      rw [List.foldlM_cons] at ok
      obtain ⟨next, hfirst, hrest⟩ := bind_eq_ok.1 ok
      exact .head (turned_of_process hfirst) (ih hrest)

theorem round_stuck {events : List Event} (failed : events.foldlM process s = .error error) :
    ∃ t, ReflTransGen Turned (ahead events s) t ∧ t.Stuck error := by
  induction events generalizing s with
  | nil => cases failed
  | cons e rest ih =>
      rw [List.foldlM_cons] at failed
      cases hfirst : s.process e with
      | error f =>
          rw [hfirst] at failed
          cases failed
          exact ⟨_, .refl, stuck_of_process hfirst⟩
      | ok next =>
          rw [hfirst] at failed
          obtain ⟨t, turns, stuck⟩ := ih failed
          exact ⟨t, .head (turned_of_process hfirst) turns, stuck⟩

theorem drain_turned {rounds : Nat} (ok : s.drain rounds = .ok t) : ReflTransGen Turned s t := by
  induction rounds generalizing s with
  | zero =>
      cases ok
      exact .refl
  | succ rounds ih =>
      rw [drain_succ] at ok
      obtain ⟨next, hround, hrest⟩ := bind_eq_ok.1 ok
      have hturns := round_turned hround
      rw [ahead_queue] at hturns
      exact hturns.trans (ih hrest)

theorem drain_stuck {rounds : Nat} (failed : s.drain rounds = .error error) :
    ∃ t, ReflTransGen Turned s t ∧ t.Stuck error := by
  induction rounds generalizing s with
  | zero => cases failed
  | succ rounds ih =>
      rw [drain_succ] at failed
      cases hround : s.queue.foldlM process { s with queue := [] } with
      | error f =>
          rw [hround] at failed
          cases failed
          have hstuck := round_stuck hround
          rwa [ahead_queue] at hstuck
      | ok next =>
          rw [hround] at failed
          have hturns := round_turned hround
          rw [ahead_queue] at hturns
          obtain ⟨t, turns, stuck⟩ := ih failed
          exact ⟨t, hturns.trans turns, stuck⟩

/-! ## What an action adds -/

/-- The client is the same, and what is queued or held besides are answers. -/
structure Adds (s s' : Simulation) : Prop where
  client : s'.client = s.client
  options : s'.options = s.options
  queue : Answered true s.queue s'.queue
  held : ∀ e ∈ s'.held, e ∈ s.held ∨ e.isAnswer = true

theorem Adds.trans {s'' : Simulation} (h : s.Adds s') (h' : s'.Adds s'') : s.Adds s'' :=
  ⟨h'.client.trans h.client, h'.options.trans h.options, h.queue.trans h'.queue,
    fun e he => (h'.held e he).elim (h.held e) .inr⟩

/-- The transports are the same besides. -/
structure Serves (s s' : Simulation) : Prop extends Adds s s' where
  transports : s'.transports = s.transports

namespace Serves

theorem quiet (client : s'.client = s.client) (options : s'.options = s.options)
    (transports : s'.transports = s.transports) (queue : s'.queue = s.queue)
    (held : s'.held = s.held) : s.Serves s' :=
  ⟨⟨client, options, queue ▸ .refl _ _, fun _ he => .inl (held ▸ he)⟩, transports⟩

theorem trans {s'' : Simulation} (h : s.Serves s') (h' : s'.Serves s'') : s.Serves s'' :=
  ⟨h.toAdds.trans h'.toAdds, h'.transports.trans h.transports⟩

theorem enqueue (s : Simulation) (answer : e.isAnswer = true) : s.Serves (s.enqueue e) :=
  ⟨⟨rfl, rfl, .one answer _, fun _ => .inl⟩, rfl⟩

theorem answer (s : Simulation) (answer : e.isAnswer = true) : s.Serves (s.answer e) := by
  unfold Simulation.answer
  split
  · refine ⟨⟨rfl, rfl, .refl _ _, fun e' he' => (List.mem_append.1 he').imp id fun he' => ?_⟩, rfl⟩
    rw [List.mem_singleton.1 he']
    exact answer
  · exact .enqueue s answer

end Serves

theorem echo_serves {room : Room} {body : String} {ref : Option Ref}
    (ok : s.echo room body ref = .ok s') : s.Serves s' := by
  unfold echo at ok
  split at ok
  · cases ok
    exact .quiet rfl rfl rfl rfl rfl
  · obtain ⟨stored, -, hdone⟩ := bind_eq_ok.1 ok
    cases hdone
    refine .trans ?_ (.enqueue _ rfl)
    exact .quiet rfl rfl rfl rfl rfl

theorem transmit_serves {a : Address} {text : String} (ok : s.transmit a text = .ok s') :
    s.Serves s' := by
  unfold transmit at ok
  cases hdecode : ClientFrame.decode text with
  | none =>
      rw [hdecode] at ok
      cases ok
  | some f =>
      rw [hdecode] at ok
      dsimp only at ok
      split at ok
      · obtain ⟨t, hecho, hsent⟩ := bind_eq_ok.1 ok
        cases hsent
        refine (echo_serves hecho).trans ?_
        exact .quiet rfl rfl rfl rfl rfl
      · cases ok
        exact .quiet rfl rfl rfl rfl rfl

/-- What an action comes to: a transport is opened at once, or only asked for, or given up; all else
leaves the transports as they are. -/
inductive Executes (s : Simulation) : Action → Simulation → Prop
  | opens (a : Address) (auto : s.options.autoOpen = true) :
      Executes s (.openTransport a)
        ({ s with
          openRequests := s.openRequests ++ [a]
          transports := s.transports.insert a () }.enqueue (.transportOpened a))
  | asks (a : Address) (manual : s.options.autoOpen = false) :
      Executes s (.openTransport a) { s with openRequests := s.openRequests ++ [a] }
  | closes (a : Address) :
      Executes s (.closeTransport a) { s with
        closeRequests := s.closeRequests ++ [a]
        transports := s.transports.erase a }
  | serves {x : Action} {s' : Simulation} (still : ∀ w, Client.Happening.next w (.done x) = w)
      (serves : s.Serves s') : Executes s x s'

theorem execute_executes (ok : s.execute x = .ok s') : s.Executes x s' := by
  cases x with
  | openTransport a =>
      rw [execute_openTransport] at ok
      cases ok
      split
      · next auto => exact .opens a auto
      · next manual => exact .asks a (Bool.not_eq_true _ ▸ manual)
  | closeTransport a =>
      cases ok
      exact .closes a
  | sendFrame a text => exact .serves (fun _ => rfl) (transmit_serves ok)
  | fetchHistory q =>
      cases ok
      refine .serves (fun _ => rfl) (.trans ?_ (.answer _ rfl))
      exact .quiet rfl rfl rfl rfl rfl
  | postMessage q =>
      obtain ⟨stored, -, hanswer⟩ := bind_eq_ok.1 ok
      cases hanswer
      refine .serves (fun _ => rfl) (.trans ?_ (.answer _ rfl))
      exact .quiet rfl rfl rfl rfl rfl
  | _ =>
      cases ok
      exact .serves (fun _ => rfl) (.quiet rfl rfl rfl rfl rfl)

theorem Executes.adds (h : s.Executes x s') : s.Adds s' := by
  cases h with
  | opens a auto => exact ⟨rfl, rfl, .one rfl _, fun _ => .inl⟩
  | asks | closes => exact ⟨rfl, rfl, .refl _ _, fun _ => .inl⟩
  | serves still serves => exact serves.toAdds

theorem executeAll_adds (ok : actions.foldlM execute s = .ok s') : s.Adds s' := by
  induction actions generalizing s with
  | nil =>
      cases ok
      exact ⟨rfl, rfl, .refl _ _, fun _ => .inl⟩
  | cons x rest ih =>
      rw [List.foldlM_cons] at ok
      obtain ⟨next, hfirst, hrest⟩ := bind_eq_ok.1 ok
      exact (execute_executes hfirst).adds.trans (ih hrest)

/-- What is queued behind an event are answers, and behind an answer nothing is queued. -/
theorem process_adds (h : s.client.Sound identity settings) (ok : s.process e = .ok s') :
    s'.client.Sound identity settings ∧ { s with client := s'.client }.Adds s' ∧
      (e.isAnswer = true → s'.queue = s.queue) := by
  obtain ⟨client, actions, hhandle, hrun⟩ := process_eq_ok ok
  have handles := h.handles hhandle
  have adds := executeAll_adds hrun
  obtain rfl : s'.client = client := adds.client
  refine ⟨handles.sound, adds, fun answers => ?_⟩
  have receives : e.isSend = false := by cases e <;> first | rfl | cases answers
  obtain ⟨actions, -, -, hqueue⟩ := process_carries h receives ok
  exact hqueue answers

/-! ## What stops an event -/

theorem bind_eq_error {ε α β : Type} {x : Except ε α} {f : α → Except ε β} {failure : ε} :
    x >>= f = .error failure ↔
      x = .error failure ∨ ∃ a, x = .ok a ∧ f a = .error failure := by
  cases x with
  | error g =>
      refine ⟨fun h => .inl (congrArg _ (Except.error.inj h)), ?_⟩
      rintro (⟨⟨⟩⟩ | ⟨a, ⟨⟩, -⟩)
      rfl
  | ok a =>
      refine ⟨fun h => .inr ⟨a, rfl, h⟩, ?_⟩
      rintro (⟨⟨⟩⟩ | ⟨_, ⟨⟩, h⟩)
      exact h

theorem liftFault_eq_error {α : Type} {x : Except Fault α} (failed : liftFault x = .error error) :
    ∃ f, x = .error f ∧ error = .fault f := by
  cases x with
  | ok a => cases failed
  | error f =>
      cases failed
      exact ⟨f, rfl, rfl⟩

theorem Server.post_full {server : Server} {room : Room} {sender : UserId} {body : String}
    {ref : Option Ref} {f : Fault} (failed : server.post room sender body ref = .error f) :
    f = .overflow ∧ server.Full := by
  refine ⟨post_error failed, ?_⟩
  unfold post at failed
  split at failed
  · cases failed
  · next full => exact Nat.le_antisymm server.nextId.toNat_lt_size (Nat.le_of_not_lt full)

theorem Server.requestPost_full {server : Server} {room : Room} {body : String} {ref : Ref}
    {f : Fault} (failed : server.requestPost room body ref = .error f) :
    f = .overflow ∧ server.Full := by
  unfold requestPost at failed
  split at failed
  · cases failed
  · rcases bind_eq_error.1 failed with hpost | ⟨stored, -, hdone⟩
    · exact post_full hpost
    · cases hdone

theorem echo_error {room : Room} {body : String} {ref : Option Ref}
    (failed : s.echo room body ref = .error error) :
    error = .fault .overflow ∧ s.server.Full := by
  unfold echo at failed
  split at failed
  · cases failed
  · rcases bind_eq_error.1 failed with hpost | ⟨stored, -, hdone⟩
    · obtain ⟨fault, hfault, rfl⟩ := liftFault_eq_error hpost
      obtain ⟨rfl, full⟩ := Server.post_full hfault
      exact ⟨rfl, full⟩
    · cases hdone

theorem transmit_error {a : Address} {f : ClientFrame}
    (failed : s.transmit a f.encode = .error error) :
    error = .fault .overflow ∧ s.server.Full := by
  unfold transmit at failed
  rw [f.decode_encode] at failed
  dsimp only at failed
  split at failed
  · rcases bind_eq_error.1 failed with hecho | ⟨next, -, hsent⟩
    · exact echo_error hecho
    · cases hsent
  · cases failed

theorem execute_carrier_error {c : Client} {room : Room} {text : String} {ref : Ref}
    (failed : s.execute (c.carrier room text ref) = .error error) :
    error = .fault .overflow ∧ s.server.Full := by
  unfold Client.carrier at failed
  split at failed
  · have hsent : s.transmit (.room room) (ClientFrame.post text (some ref)).encode =
        .error error := failed
    exact transmit_error hsent
  · rcases bind_eq_error.1 failed with hpost | ⟨stored, -, hdone⟩
    · obtain ⟨fault, hfault, rfl⟩ := liftFault_eq_error hpost
      obtain ⟨rfl, full⟩ := Server.requestPost_full hfault
      exact ⟨rfl, full⟩
    · cases hdone

/-- Only an amount that is out of range keeps an event from being handled. -/
theorem process_error (h : s.client.Sound identity settings)
    (failed : s.process e = .error error) : error = .fault .overflow ∧ s.Exceeds e := by
  unfold process at failed
  rcases bind_eq_error.1 failed with hhandle | ⟨⟨client, actions⟩, hhandle, hrest⟩
  · rcases h.handle s.reading e with ⟨c', actions, handles⟩ | ⟨herror, -⟩
    · rw [handles.ok] at hhandle
      cases hhandle
    · have hout : s.client.OutOfRange s.reading e := by
        by_contra within
        obtain ⟨c', actions, ok⟩ := h.handle_of_inRange within
        rw [ok] at herror
        cases herror
      exact ⟨Except.error.inj (hhandle.symm.trans herror), .inl hout⟩
  · have handles := h.handles hhandle
    have hrun : actions.foldlM execute { s with client := client } = .error error := by
      rcases bind_eq_error.1 hrest with hrun | ⟨t, hrun, haudit⟩
      · exact hrun
      · have hclient : t.client = client := (executeAll_adds hrun).client
        rw [audit_of_sound (hclient ▸ handles.sound)] at haudit
        cases haudit
    cases hsend : e.isSend with
    | false =>
        obtain ⟨t, hok, -⟩ := executeAll_modest (handles.modest hsend) { s with client := client }
        rw [hok] at hrun
        cases hrun
    | true =>
        obtain ⟨text, rfl⟩ : ∃ text, e = .send text := by
          cases e with
          | send text => exact ⟨text, rfl⟩
          | _ => cases hsend
        rcases Client.send_cases h hhandle with
          ⟨-, rfl⟩ | ⟨room, wall, ref, quiet, -, -, rfl, hquiet⟩
        · cases hrun
        · obtain ⟨t, hquietly, hcarried⟩ := executeAll_modest hquiet { s with client := client }
          rw [List.foldlM_append, hquietly] at hrun
          have hcarrier : t.execute (s.client.carrier room text ref) >>= pure = .error error := hrun
          rw [bind_pure] at hcarrier
          obtain ⟨rfl, full⟩ := execute_carrier_error hcarrier
          have hfull : s.server.Full := by
            unfold Server.Full
            rw [← hcarried.server.nextId]
            exact full
          exact ⟨rfl, .inr ⟨rfl, hfull⟩⟩

/-! ## The loop ends -/

theorem round_adds {events : List Event} (h : s.client.Sound identity settings)
    (ok : events.foldlM process s = .ok t) :
    t.client.Sound identity settings ∧ Answered true s.queue t.queue ∧
      ((∀ e ∈ events, e.isAnswer = true) → t.queue = s.queue) := by
  induction events generalizing s with
  | nil =>
      cases ok
      exact ⟨h, .refl _ _, fun _ => rfl⟩
  | cons e rest ih =>
      rw [List.foldlM_cons] at ok
      obtain ⟨next, hfirst, hrest⟩ := bind_eq_ok.1 ok
      obtain ⟨hsound, adds, hsame⟩ := process_adds h hfirst
      obtain ⟨hlast, hqueue, hstill⟩ := ih hsound hrest
      refine ⟨hlast, adds.queue.trans hqueue, fun answers => ?_⟩
      rw [hstill fun e' he' => answers e' (List.mem_cons_of_mem _ he')]
      exact hsame (answers e List.mem_cons_self)

/-- The first round leaves answers, and the second leaves nothing. -/
theorem drain_empties (h : s.client.Sound identity settings) {rounds : Nat}
    (ok : s.drain (rounds + 2) = .ok t) : t.client.Sound identity settings ∧ t.queue = [] := by
  rw [drain_succ] at ok
  obtain ⟨first, hfirst, hrest⟩ := bind_eq_ok.1 ok
  obtain ⟨hsound, ⟨new, hnew, hanswers, -⟩, -⟩ := round_adds (s := { s with queue := [] }) h hfirst
  have answers : ∀ e ∈ first.queue, e.isAnswer = true := hnew ▸ hanswers
  rw [drain_succ] at hrest
  obtain ⟨second, hsecond, hdone⟩ := bind_eq_ok.1 hrest
  obtain ⟨hsound', -, hempty⟩ := round_adds (s := { first with queue := [] }) hsound hsecond
  have empty : second.queue = [] := hempty answers
  rw [drain_of_empty empty] at hdone
  cases hdone
  exact ⟨hsound', empty⟩

theorem turns_sound (turns : ReflTransGen Turned s t) (h : s.client.Sound identity settings) :
    t.client.Sound identity settings := by
  induction turns with
  | refl => exact h
  | @tail t u _ turned ih =>
      obtain ⟨e, rest, -, ok⟩ := turned
      exact (process_adds (s := { t with queue := rest }) ih ok).1

/-- Whatever is queued, the loop ends. -/
theorem settle_drains (h : s.client.Sound identity settings) : s.Drains s.settle := by
  cases hsettle : s.settle with
  | ok t =>
      obtain ⟨-, empty⟩ := drain_empties h hsettle
      exact ⟨t, drain_turned hsettle, fun _ => not_turned_of_empty empty, .inl ⟨empty, rfl⟩⟩
  | error f =>
      obtain ⟨t, turns, stuck⟩ := drain_stuck hsettle
      obtain ⟨e, rest, hqueue, failed⟩ := id stuck
      have sound := turns_sound turns h
      obtain ⟨rfl, exceeds⟩ := process_error (s := { t with queue := rest }) sound failed
      exact ⟨t, turns, fun _ => stuck.not_turned, .inr ⟨⟨e, rest, hqueue, exceeds⟩, rfl⟩⟩

/-! ## Where a session can come to -/

/-- The client has the same state, and the same transports are open and the same events are queued
and held. The clock, the random source, the service and what has been noted may be others. -/
structure Alike (s s' : Simulation) : Prop where
  client : ∃ entropy, s'.client = { s.client with entropy := entropy }
  options : s'.options = s.options
  transports : s'.transports = s.transports
  queue : s'.queue = s.queue
  held : s'.held = s.held

/-- The states that a session comes to by moves that are allowed where they are made, and by what is
done to the surroundings between them. -/
inductive Reached (allowed : Simulation → Move → Prop) (start : Simulation) : Simulation → Prop
  | start : Reached allowed start start
  | move {s s' : Simulation} {m : Move} (reached : Reached allowed start s)
      (permitted : allowed s m) (made : s.move m = .ok s') : Reached allowed start s'
  | elsewhere {s s' : Simulation} (reached : Reached allowed start s) (alike : s.Alike s') :
      Reached allowed start s'

variable {allowed : Simulation → Move → Prop} {start : Simulation}

theorem Plays.reached (plays : Plays allowed start s) : Reached allowed start s := by
  induction plays with
  | start => exact .start
  | move _ permitted made ih => exact .move ih permitted made

/-- What a move changes first, with what it queues. -/
def arrange (s : Simulation) : Move → Step
  | .call (.dispatch e) => .ok (s.enqueue e)
  | .call (.advance span) => do
    let clock ← liftFault (s.clock.advance span)
    .ok ({ s with clock }.enqueue (.tick clock.now))
  | .call (.drop a) =>
    .ok ({ s with transports := s.transports.erase a }.enqueue (.transportClosed a))
  | .call (.openTransport a) =>
    .ok ({ s with transports := s.transports.insert a () }.enqueue (.transportOpened a))
  | .call (.deliver a f) => .ok (s.enqueue (.frameReceived a f.encode))
  | .call (.failPosts on) => .ok { s with server := { s.server with failPosts := on } }
  | .call (.failHistory on) => .ok { s with server := { s.server with failHistory := on } }
  | .call (.autoOpen on) => .ok { s with options := { s.options with autoOpen := on } }
  | .set options => .ok { s with options }
  | .store room sender body ref => do
    let (server, _) ← liftFault (s.server.post room sender body ref)
    .ok { s with server }
  | .bring room sender body ref => do
    let (server, m) ← liftFault (s.server.post room sender body ref)
    .ok ({ s with server }.enqueue (.frameReceived (.room room) (ServerFrame.message m).encode))
  | .release => .ok { s with held := [], queue := s.queue ++ s.held }
  | .releaseReversed => .ok { s with held := [], queue := s.queue ++ s.held.reverse }

theorem settle_of_empty (h : s.queue = []) : s.settle = .ok s := drain_of_empty h maxRounds

/-- A move sets its events up and has them handled. -/
theorem move_eq (empty : s.queue = []) (m : Move) : s.move m = s.arrange m >>= settle := by
  cases m with
  | call call =>
      cases call with
      | advance span =>
          show liftFault (s.clock.advance span) >>= _ =
            (liftFault (s.clock.advance span) >>= _) >>= _
          cases s.clock.advance span <;> rfl
      | failPosts on => exact (settle_of_empty
          (s := { s with server := { s.server with failPosts := on } }) empty).symm
      | failHistory on => exact (settle_of_empty
          (s := { s with server := { s.server with failHistory := on } }) empty).symm
      | autoOpen on => exact (settle_of_empty
          (s := { s with options := { s.options with autoOpen := on } }) empty).symm
      | _ => rfl
  | set options => exact (settle_of_empty (s := { s with options := options }) empty).symm
  | store room sender body ref =>
      show liftFault (s.server.post room sender body ref) >>= _ =
        (liftFault (s.server.post room sender body ref) >>= _) >>= _
      cases s.server.post room sender body ref with
      | error f => rfl
      | ok stored => exact (settle_of_empty (s := { s with server := stored.1 }) empty).symm
  | bring room sender body ref =>
      show liftFault (s.server.post room sender body ref) >>= _ =
        (liftFault (s.server.post room sender body ref) >>= _) >>= _
      cases s.server.post room sender body ref <;> rfl
  | _ => rfl

theorem arrange_client {m : Move} (ok : s.arrange m = .ok t) : t.client = s.client := by
  cases m with
  | call call =>
      cases call with
      | advance span =>
          obtain ⟨clock, -, hdone⟩ := bind_eq_ok.1 ok
          cases hdone
          rfl
      | _ =>
          cases ok
          rfl
  | store room sender body ref =>
      obtain ⟨stored, -, hdone⟩ := bind_eq_ok.1 ok
      cases hdone
      rfl
  | bring room sender body ref =>
      obtain ⟨stored, -, hdone⟩ := bind_eq_ok.1 ok
      cases hdone
      rfl
  | _ =>
      cases ok
      rfl

/-- Between moves the client is sound and nothing is queued. -/
theorem Reached.rests (reached : Reached allowed start s)
    (sound : start.client.Sound identity settings) (empty : start.queue = []) :
    s.client.Sound identity settings ∧ s.queue = [] := by
  induction reached with
  | start => exact ⟨sound, empty⟩
  | move _ _ made ih =>
      obtain ⟨hsound, hempty⟩ := ih
      rw [move_eq hempty] at made
      obtain ⟨t, harranged, hsettled⟩ := bind_eq_ok.1 made
      exact drain_empties (arrange_client harranged ▸ hsound) hsettled
  | elsewhere _ alike ih =>
      obtain ⟨hsound, hempty⟩ := ih
      obtain ⟨entropy, hclient⟩ := alike.client
      exact ⟨hclient ▸ hsound.with_entropy entropy, alike.queue.trans hempty⟩

/-- Wherever a session has come to by whatever moves, the loop ends that handles an event, or the
answers that were held back in either order, and it leaves nothing queued unless it comes to an
event that needs an amount out of range. -/
theorem queue_drains (identity : Identity) (settings : Settings) (epoch : Int64)
    (entropy : Entropy) (options : Options) (audited : Bool) (s : Simulation)
    (reached : Reached (fun _ _ => True)
      (new identity settings epoch entropy options audited) s) :
    (∀ e, (s.enqueue e).Drains (s.dispatch e)) ∧
      { s with held := [], queue := s.queue ++ s.held }.Drains s.release ∧
      { s with held := [], queue := s.queue ++ s.held.reverse }.Drains s.releaseReversed := by
  obtain ⟨sound, -⟩ := reached.rests (Client.sound_new identity settings .zero entropy) rfl
  exact ⟨fun e => settle_drains sound, settle_drains sound, settle_drains sound⟩

/-- A page and a stored message are held back, and the newer answer is released first. -/
theorem answers_released_reversed :
    let start := new ⟨1, "me"⟩ .standard 0 (.cycle [0]) ⟨true, true, true, true⟩ true
    ∃ s t, Reached (fun _ _ => True) start s ∧ s.held.length = 2 ∧
      s.releaseReversed = .ok t ∧ t.queue = [] ∧
      { s with held := [], queue := s.queue ++ s.held.reverse }.Drains (.ok t) ∧
      (s.enqueue (.send "again")).Drains (s.dispatch (.send "again")) := by
  intro start
  let room : Room := ⟨1, 2⟩
  let moves : List Move := [.call (.dispatch (.enterRoom room)), .call (.drop (.room room)),
    .call (.dispatch (.send "hi"))]
  have hends : ((start.play (fun _ _ => True) moves).bind fun s =>
      s.releaseReversed.toOption.map fun t => (s.held.length, t.queue.isEmpty)) =
      some (2, true) := by decide +kernel
  obtain ⟨s, hplay, hs⟩ := Option.bind_eq_some_iff.1 hends
  have reached := (Plays.start.play hplay).reached
  obtain ⟨hdispatch, -, hreleased⟩ := queue_drains _ _ _ _ _ _ s reached
  cases ok : s.releaseReversed with
  | error f =>
      rw [ok] at hs
      cases hs
  | ok t =>
      rw [ok] at hs hreleased
      obtain ⟨hheld, hempty⟩ := Prod.mk.inj (Option.some.inj hs)
      exact ⟨s, t, reached, hheld, ok, List.isEmpty_iff.1 hempty, hreleased, hdispatch _⟩

end Simulation

end LiveChat
