import LiveChat.Proofs.Client.Checks
import LiveChat.Proofs.Wire.RoundTrip
import LiveChat.Simulation.Basic

/-!
# What follows from an event

Apart from messages that are sent, what the client asks for leaves the logs of the service alone and
queues nothing but answers, and what it asks for on hearing an answer queues nothing. The check
after an event never fails.
-/

namespace LiveChat

open Client (Event Action Error Handles)

/-- There is a result with a property, or an amount is beyond what its type can hold. -/
def Yields (x : Except Error α) (p : α → Prop) : Prop :=
  (∃ a, x = .ok a ∧ p a) ∨ x = .error (.fault .overflow)

namespace Yields

variable {x : Except Error α} {p q : α → Prop}

theorem of_eq {a : α} (h : x = .ok a) (ha : p a) : Yields x p := .inl ⟨a, h, ha⟩

theorem mono (h : Yields x p) (weaker : ∀ a, p a → q a) : Yields x q := by
  rcases h with ⟨a, hx, ha⟩ | hx
  · exact .inl ⟨a, hx, weaker a ha⟩
  · exact .inr hx

theorem bind {f : α → Except Error β} {q : β → Prop} (h : Yields x p)
    (next : ∀ a, p a → Yields (f a) q) : Yields (x >>= f) q := by
  rcases h with ⟨a, rfl, ha⟩ | rfl
  · exact next a ha
  · exact .inr rfl

theorem liftFault {x : Except Fault α} (h : ∀ f, x = .error f → f = .overflow) :
    Yields (Simulation.liftFault x) fun a => x = .ok a := by
  cases x with
  | ok a => exact .inl ⟨a, rfl, rfl⟩
  | error f =>
      rw [h f rfl]
      exact .inr rfl

/-- What every step keeps, a run keeps. -/
theorem foldlM {f : β → α → Except Error β} {p : β → Prop} {l : List α} {b : β}
    (start : p b) (step : ∀ b, ∀ a ∈ l, p b → Yields (f b a) p) :
    Yields (l.foldlM f b) p := by
  induction l generalizing b with
  | nil => exact of_eq rfl start
  | cons a l ih =>
      rw [List.foldlM_cons]
      refine (step b a List.mem_cons_self start).bind fun b' hb' => ?_
      exact ih hb' fun b a ha => step b a (List.mem_cons_of_mem _ ha)

end Yields

namespace Simulation

/-- Nothing has been stored, and posting fares as before. -/
structure Server.Same (s s' : Server) : Prop where
  rooms : s'.rooms = s.rooms
  nextId : s'.nextId = s.nextId
  failPosts : s'.failPosts = s.failPosts
  user : s'.user = s.user

theorem Server.Same.refl (s : Server) : s.Same s := ⟨rfl, rfl, rfl, rfl⟩

theorem Server.Same.trans {s s' s'' : Server} (h : s.Same s') (h' : s'.Same s'') : s.Same s'' :=
  ⟨h'.rooms.trans h.rooms, h'.nextId.trans h.nextId, h'.failPosts.trans h.failPosts,
    h'.user.trans h.user⟩

theorem Server.Same.log {s s' : Server} (h : s.Same s') (room : Room) :
    s'.log room = s.log room := by
  unfold Server.log
  rw [h.rooms]

theorem Server.requestHistory_same (s : Server) (room : Room) (limit offset : Nat) :
    s.Same (s.requestHistory room limit offset).1 := by
  unfold requestHistory
  split <;> exact ⟨rfl, rfl, rfl, rfl⟩

/-- The queue has grown by answers, and if nothing that is answered was asked for not at all. -/
def Answered (asks : Bool) (queue queue' : List Event) : Prop :=
  ∃ new, queue' = queue ++ new ∧ (∀ e ∈ new, e.isAnswer = true) ∧ (asks = false → new = [])

theorem Answered.refl (asks : Bool) (queue : List Event) : Answered asks queue queue :=
  ⟨[], by simp, by simp, fun _ => rfl⟩

theorem Answered.one {e : Event} (h : e.isAnswer = true) (queue : List Event) :
    Answered true queue (queue ++ [e]) :=
  ⟨[e], rfl, by simpa using h, nofun⟩

theorem Answered.trans {asks : Bool} {q q' q'' : List Event} (h : Answered asks q q')
    (h' : Answered asks q' q'') : Answered asks q q'' := by
  obtain ⟨new, rfl, answers, none⟩ := h
  obtain ⟨new', rfl, answers', none'⟩ := h'
  refine ⟨new ++ new', by simp, fun e he => ?_, fun ha => by rw [none ha, none' ha]; rfl⟩
  rcases List.mem_append.1 he with he | he
  · exact answers e he
  · exact answers' e he

theorem Answered.eq {queue queue' : List Event} (h : Answered false queue queue') :
    queue' = queue := by
  obtain ⟨new, hqueue, -, none⟩ := h
  rw [hqueue, none rfl]
  exact List.append_nil _

/-- What an action that sends no message leaves of a session. -/
structure Carried (asks : Bool) (s s' : Simulation) : Prop where
  client : s'.client = s.client
  options : s'.options = s.options
  audited : s'.audited = s.audited
  server : s.server.Same s'.server
  queue : Answered asks s.queue s'.queue

variable {s s' : Simulation} {asks : Bool} {x : Action} {actions : List Action}

theorem Carried.refl (asks : Bool) (s : Simulation) : Carried asks s s :=
  ⟨rfl, rfl, rfl, .refl _, .refl _ _⟩

theorem Carried.trans {s'' : Simulation} (h : Carried asks s s') (h' : Carried asks s' s'') :
    Carried asks s s'' :=
  ⟨h'.client.trans h.client, h'.options.trans h.options, h'.audited.trans h.audited,
    h.server.trans h'.server, h.queue.trans h'.queue⟩

theorem answer_carried (s : Simulation) {e : Event} (h : e.isAnswer = true) :
    Carried true s (s.answer e) := by
  unfold answer
  split
  · exact ⟨rfl, rfl, rfl, .refl _, .refl _ _⟩
  · exact ⟨rfl, rfl, rfl, .refl _, .one h _⟩

theorem execute_modest (h : x.Modest asks) (s : Simulation) :
    ∃ s', s.execute x = .ok s' ∧ Carried asks s s' := by
  cases x with
  | openTransport a =>
      obtain rfl : asks = true := h
      refine ⟨_, rfl, ?_⟩
      dsimp only
      split
      · exact ⟨rfl, rfl, rfl, .refl _, .one rfl _⟩
      · exact ⟨rfl, rfl, rfl, .refl _, .refl _ _⟩
  | fetchHistory r =>
      obtain rfl : asks = true := h
      have hserver := s.server.requestHistory_same r.room r.limit r.offset
      refine ⟨_, rfl, .trans ?_ (answer_carried _ rfl)⟩
      exact ⟨rfl, rfl, rfl, hserver, .refl _ _⟩
  | sendFrame a text =>
      obtain ⟨f, hpost, rfl⟩ := h
      have hsent : Carried asks s { s with sent := s.sent ++ [(a, f)] } :=
        ⟨rfl, rfl, rfl, .refl _, .refl _ _⟩
      refine ⟨_, ?_, hsent⟩
      show s.transmit a f.encode = _
      unfold transmit
      rw [f.decode_encode]
      cases f with
      | post => cases hpost
      | _ => rfl
  | postMessage r => cases h
  | markRead room => exact ⟨_, rfl, rfl, rfl, rfl, ⟨rfl, rfl, rfl, rfl⟩, .refl _ _⟩
  | _ => exact ⟨_, rfl, rfl, rfl, rfl, .refl _, .refl _ _⟩

theorem executeAll_modest (h : ∀ x ∈ actions, x.Modest asks) (s : Simulation) :
    ∃ s', actions.foldlM execute s = .ok s' ∧ Carried asks s s' := by
  induction actions generalizing s with
  | nil => exact ⟨s, rfl, .refl _ _⟩
  | cons x rest ih =>
      obtain ⟨s₁, hfirst, hcarried⟩ := execute_modest (h x List.mem_cons_self) s
      obtain ⟨s₂, hrest, hcarried'⟩ := ih (fun y hy => h y (List.mem_cons_of_mem _ hy)) s₁
      refine ⟨s₂, ?_, hcarried.trans hcarried'⟩
      rw [List.foldlM_cons, hfirst]
      exact hrest

variable {identity : Identity} {settings : LinkSettings} {e : Event}

theorem audit_of_sound (h : s.client.Sound identity settings) (context : String) :
    s.audit context = .ok s := by
  have hnone : Audit.violations s.snapshot = [] := by
    refine Audit.violations_eq_nil_iff.2 fun check v hv => ?_
    rw [List.mem_singleton.1 hv]
    exact h.check check
  unfold audit Audit.report?
  rw [hnone]
  cases s.audited <;> rfl

/-- An event that brings no message to be sent is handled, and what it asks for is carried out. -/
structure Heard (identity : Identity) (settings : LinkSettings) (s : Simulation) (e : Event)
    (s' : Simulation) : Prop where
  handles : ∃ actions, Handles identity settings s.client s.reading e s'.client actions
  carried : Carried (!e.isAnswer) { s with client := s'.client } s'

theorem process_receives (h : s.client.Sound identity settings) (receives : e.isSend = false) :
    Yields (s.process e) (Heard identity settings s e) := by
  unfold process
  rcases h.handle s.reading e with ⟨c', actions, handles⟩ | ⟨herror, -⟩
  · have hmodest := handles.modest receives
    obtain ⟨s', hrun, hcarried⟩ := executeAll_modest hmodest { s with client := c' }
    have hclient : s'.client = c' := hcarried.client
    subst hclient
    rw [handles.ok]
    show Yields (actions.foldlM execute { s with client := s'.client } >>= fun s => s.audit _) _
    rw [hrun]
    exact .of_eq (audit_of_sound handles.sound _) ⟨⟨actions, handles⟩, hcarried⟩
  · rw [herror]
    exact .inr rfl

end Simulation

end LiveChat
