import LiveChat.Proofs.Client.Loads
import LiveChat.Proofs.Simulation.Calls
import LiveChat.Proofs.Simulation.Server

/-!
# Sessions

A session is a list of moves: calls, answers that are held back and released in either order, and
messages that others store, which the channel of the room brings at once or never. What holds
between moves is shown move by move from what one event makes of the client and the service, and of
the answers that are still to come.
-/

namespace LiveChat.Simulation

open Client (Event Action Handles fetches)

theorem liftFault_eq_ok {α : Type} {x : Except Fault α} {a : α} :
    liftFault x = .ok a ↔ x = .ok a := by
  cases x with
  | error f => exact ⟨nofun, nofun⟩
  | ok b => exact ⟨fun h => by cases h; rfl, fun h => by cases h; rfl⟩

/-! ## What arises from an event -/

/-- An event that follows from actions: a transport comes up, or one of the loads is answered, and
if it succeeds then with the page as the service has it. -/
inductive Arises (s : Server) (loads : List HistoryRequest) : Event → Prop
  | opened (a : Address) : Arises s loads (.transportOpened a)
  | served {q : HistoryRequest} {result : Except RequestError Page} (asked : q ∈ loads)
      (page : ∀ page, result = .ok page → page = s.page q.room q.limit q.offset) :
      Arises s loads (.historyLoaded q result)

theorem Server.Same.page {s s' : Server} (h : s.Same s') (room : Room) (limit offset : Nat) :
    s'.page room limit offset = s.page room limit offset := by
  unfold Server.page
  rw [h.log]

variable {s s' s'' : Simulation} {loads loads' : List HistoryRequest} {e : Event} {x : Action}
  {actions : List Action} {asks : Bool}

theorem Arises.mono {server : Server} (h : Arises server loads e) (more : loads ⊆ loads') :
    Arises server loads' e := by
  cases h with
  | opened a => exact .opened a
  | served asked page => exact .served (more asked) page

theorem Arises.of_same {server server' : Server} (same : server.Same server')
    (h : Arises server' loads e) : Arises server loads e := by
  cases h with
  | opened a => exact .opened a
  | served asked page =>
      refine .served asked fun p hp => ?_
      rw [page p hp, same.page]

/-- What carrying out actions that ask for these loads, and that send no message, leaves of a
session. -/
structure Carries (loads : List HistoryRequest) (s s' : Simulation) : Prop where
  client : s'.client = s.client
  options : s'.options = s.options
  server : s.server.Same s'.server
  reachable : ∀ user, s.server.Reachable user → s'.server.Reachable user
  queue : ∀ e ∈ s'.queue, e ∈ s.queue ∨ Arises s.server loads e
  held : ∀ e ∈ s'.held, e ∈ s.held ∨ Arises s.server loads e

theorem Carries.quiet (client : s'.client = s.client) (options : s'.options = s.options)
    (server : s'.server = s.server) (queue : s'.queue = s.queue) (held : s'.held = s.held) :
    Carries loads s s' :=
  ⟨client, options, server ▸ .refl _, fun _ h => server ▸ h, fun _ he => .inl (queue ▸ he),
    fun _ he => .inl (held ▸ he)⟩

theorem Carries.refl (s : Simulation) : Carries [] s s := .quiet rfl rfl rfl rfl rfl

theorem Carries.trans (h : Carries loads s s') (h' : Carries loads' s' s'') :
    Carries (loads ++ loads') s s'' := by
  have earlier : ∀ e, Arises s.server loads e → Arises s.server (loads ++ loads') e :=
    fun _ he => he.mono (List.subset_append_left _ _)
  have later : ∀ e, Arises s'.server loads' e → Arises s.server (loads ++ loads') e :=
    fun _ he => (he.of_same h.server).mono (List.subset_append_right _ _)
  refine ⟨h'.client.trans h.client, h'.options.trans h.options, h.server.trans h'.server,
    fun user reachable => h'.reachable user (h.reachable user reachable), fun e he => ?_,
    fun e he => ?_⟩
  · rcases h'.queue e he with he | he
    · exact (h.queue e he).imp id (earlier e)
    · exact .inr (later e he)
  · rcases h'.held e he with he | he
    · exact (h.held e he).imp id (earlier e)
    · exact .inr (later e he)

theorem answer_carries (s : Simulation) (h : Arises s.server loads e) :
    Carries loads s (s.answer e) := by
  have hone : ∀ events : List Event, ∀ e' ∈ events ++ [e],
      e' ∈ events ∨ Arises s.server loads e' := by
    intro events e' he'
    rcases List.mem_append.1 he' with he' | he'
    · exact .inl he'
    · exact .inr (List.mem_singleton.1 he' ▸ h)
  unfold answer
  split
  · exact ⟨rfl, rfl, .refl _, fun _ => id, fun _ => .inl, hone _⟩
  · exact ⟨rfl, rfl, .refl _, fun _ => id, hone _, fun _ => .inl⟩

theorem requestHistory_reachable {server : Server} {user : UserId} (h : server.Reachable user)
    (room : Room) (limit offset : Nat) :
    (server.requestHistory room limit offset).1.Reachable user := by
  unfold Server.requestHistory
  split
  · exact h
  · exact h.history room limit offset

theorem requestHistory_page {server : Server} {room : Room} {limit offset : Nat} {page : Page}
    (h : (server.requestHistory room limit offset).2 = .ok page) :
    page = server.page room limit offset := by
  unfold Server.requestHistory at h
  split at h
  · cases h
  · cases h
    rfl

theorem execute_carries (h : x.Modest asks) (ok : s.execute x = .ok s') :
    Carries x.fetch?.toList s s' := by
  cases x with
  | openTransport a =>
      cases ok
      dsimp only
      split
      · refine ⟨rfl, rfl, .refl _, fun _ => id, fun e he => ?_, fun _ => .inl⟩
        refine (List.mem_append.1 he).imp id fun he => ?_
        exact List.mem_singleton.1 he ▸ .opened a
      · exact .quiet rfl rfl rfl rfl rfl
  | fetchHistory q =>
      cases ok
      have hsame := s.server.requestHistory_same q.room q.limit q.offset
      have hserved : Carries [] s
          { s with server := (s.server.requestHistory q.room q.limit q.offset).1 } :=
        ⟨rfl, rfl, hsame, fun _ h => requestHistory_reachable h _ _ _, fun _ => .inl,
          fun _ => .inl⟩
      refine hserved.trans (answer_carries _ (.served List.mem_cons_self fun page hpage => ?_))
      exact (requestHistory_page hpage).trans (hsame.page _ _ _).symm
  | sendFrame a text =>
      obtain ⟨f, hpost, rfl⟩ := h
      have hsent : s.execute (.sendFrame a f.encode) =
          .ok { s with sent := s.sent ++ [(a, f)] } := by
        show s.transmit a f.encode = _
        unfold transmit
        rw [f.decode_encode]
        cases f with
        | post => cases hpost
        | _ => rfl
      rw [hsent] at ok
      cases ok
      exact .quiet rfl rfl rfl rfl rfl
  | postMessage r => cases h
  | markRead room =>
      cases ok
      exact ⟨rfl, rfl, ⟨rfl, rfl, rfl, rfl⟩, fun _ => .markRead room, fun _ => .inl, fun _ => .inl⟩
  | _ =>
      cases ok
      exact .quiet rfl rfl rfl rfl rfl

theorem executeAll_carries (h : ∀ x ∈ actions, x.Modest asks)
    (ok : actions.foldlM execute s = .ok s') : Carries (fetches actions) s s' := by
  induction actions generalizing s with
  | nil =>
      cases ok
      exact .refl _
  | cons x rest ih =>
      rw [List.foldlM_cons] at ok
      obtain ⟨next, hfirst, hrest⟩ := bind_eq_ok.1 ok
      have hhead := execute_carries (h x List.mem_cons_self) hfirst
      have htail := ih (fun y hy => h y (List.mem_cons_of_mem _ hy)) hrest
      have hfetches : fetches (x :: rest) = x.fetch?.toList ++ fetches rest := by
        unfold fetches
        rw [List.filterMap_cons]
        cases x.fetch? <;> rfl
      rw [hfetches]
      exact hhead.trans htail

theorem process_eq_ok (ok : s.process e = .ok s') :
    ∃ client actions, s.client.handle s.reading e = .ok (client, actions) ∧
      actions.foldlM execute { s with client := client } = .ok s' := by
  unfold process at ok
  obtain ⟨⟨client, actions⟩, hhandle, hrest⟩ := bind_eq_ok.1 ok
  obtain ⟨t, hrun, haudit⟩ := bind_eq_ok.1 hrest
  refine ⟨client, actions, hhandle, hrun.trans ?_⟩
  unfold audit at haudit
  split at haudit
  · exact haudit
  · split at haudit
    · exact haudit
    · cases haudit

variable {identity : Identity} {settings : LinkSettings}

/-- An event that brings no message to be sent is handled, and what it asks for is carried out; an
answer asks for nothing that would be answered. -/
theorem process_carries (h : s.client.Sound identity settings) (receives : e.isSend = false)
    (ok : s.process e = .ok s') :
    ∃ actions, Handles identity settings s.client s.reading e s'.client actions ∧
      Carries (fetches actions) { s with client := s'.client } s' ∧
      (e.isAnswer = true → s'.queue = s.queue) := by
  obtain ⟨client, actions, hhandle, hrun⟩ := process_eq_ok ok
  have handles := h.handles hhandle
  have hmodest := handles.modest receives
  have hcarries := executeAll_carries hmodest hrun
  have hclient : s'.client = client := hcarries.client
  subst hclient
  refine ⟨actions, handles, hcarries, fun answers => ?_⟩
  obtain ⟨t, hrun', hcarried⟩ := executeAll_modest hmodest { s with client := s'.client }
  obtain rfl : t = s' := Except.ok.inj (hrun'.symm.trans hrun)
  have hqueue := hcarried.queue
  rw [answers] at hqueue
  exact hqueue.eq

/-- How a message that was sent reaches the service: not at all, by the channel, which brings it
back under its number or under none, or by a request. -/
inductive Conveyed (c : Client) (room : Room) (text : String) (ref : Ref) (s : Simulation) :
    Simulation → Prop
  | lost (live : c.isRoomLive = true) (mute : s.options.echoMessages = false)
      (sent : List (Address × ClientFrame)) : Conveyed c room text ref s { s with sent := sent }
  | echoed {server : Server} {m m' : Message} (live : c.isRoomLive = true)
      (stored : s.server.post room s.client.identity.user text (some ref) = .ok (server, m))
      (number : m' = m ∨ m' = { m with ref := none }) (sent : List (Address × ClientFrame)) :
      Conveyed c room text ref s { s with
        server := server
        queue := s.queue ++ [.frameReceived (.room room) (ServerFrame.message m').encode]
        sent := sent }
  | requested {server : Server} {result : Except RequestError Message}
      (down : c.isRoomLive = false)
      (stored : s.server.requestPost room text ref = .ok (server, result)) :
      Conveyed c room text ref s
        ({ s with server := server }.answer (.posted ⟨room, c.conversation.stay, text, ref⟩ result))

theorem execute_carrier {c : Client} {room : Room} {text : String} {ref : Ref}
    (ok : s.execute (c.carrier room text ref) = .ok s') : Conveyed c room text ref s s' := by
  unfold Client.carrier at ok
  cases hlive : c.isRoomLive with
  | false =>
      rw [hlive] at ok
      have hrequest : s.execute (.postMessage ⟨room, c.conversation.stay, text, ref⟩) = .ok s' := ok
      unfold execute at hrequest
      obtain ⟨stored, hpost, hanswer⟩ := bind_eq_ok.1 hrequest
      cases hanswer
      exact .requested hlive (liftFault_eq_ok.1 hpost)
  | true =>
      rw [hlive] at ok
      have hsend : s.transmit (.room room) (ClientFrame.post text (some ref)).encode = .ok s' := ok
      unfold transmit at hsend
      rw [ClientFrame.decode_encode] at hsend
      dsimp only at hsend
      unfold echo at hsend
      obtain ⟨t, hecho, hsent⟩ := bind_eq_ok.1 hsend
      cases hsent
      split at hecho
      · next mute =>
        cases hecho
        exact .lost hlive (Bool.not_eq_true' _ ▸ mute) _
      · obtain ⟨stored, hpost, hback⟩ := bind_eq_ok.1 hecho
        cases hback
        refine .echoed hlive (liftFault_eq_ok.1 hpost) ?_ _
        split
        · exact .inl rfl
        · exact .inr rfl

theorem requestPost_reachable {server server' : Server} {user : UserId} {room : Room}
    {text : String} {ref : Ref} {result : Except RequestError Message} (h : server.Reachable user)
    (stored : server.requestPost room text ref = .ok (server', result)) :
    server'.Reachable user := by
  unfold Server.requestPost at stored
  split at stored
  · cases stored
    exact h
  · obtain ⟨posted, hpost, hresult⟩ := bind_eq_ok.1 stored
    cases hresult
    exact .post h hpost

theorem Conveyed.leaves {c : Client} {room : Room} {text : String} {ref : Ref}
    (h : Conveyed c room text ref s s') : s'.client = s.client ∧
      (∀ user, s.server.Reachable user → s'.server.Reachable user) ∧
      (∀ e ∈ s'.queue, e ∈ s.queue ∨ e.isAnswer = true) ∧
      ∀ e ∈ s'.held, e ∈ s.held ∨
        ∃ result, e = .posted ⟨room, c.conversation.stay, text, ref⟩ result := by
  cases h with
  | lost => exact ⟨rfl, fun _ => id, fun _ => .inl, fun _ => .inl⟩
  | echoed _ stored =>
      refine ⟨rfl, fun _ h => .post h stored, fun e he => ?_, fun _ => .inl⟩
      refine (List.mem_append.1 he).imp id fun he => ?_
      rw [List.mem_singleton.1 he]
      rfl
  | @requested server result down stored =>
      have reachable := fun user (h : s.server.Reachable user) => requestPost_reachable h stored
      unfold answer
      split
      · refine ⟨rfl, reachable, fun _ => .inl, fun e he => ?_⟩
        exact (List.mem_append.1 he).imp id fun he => ⟨result, List.mem_singleton.1 he⟩
      · refine ⟨rfl, reachable, fun e he => ?_, fun _ => .inl⟩
        refine (List.mem_append.1 he).imp id fun he => ?_
        rw [List.mem_singleton.1 he]
        rfl

/-- A message is dropped, or it is conveyed when all else is done. -/
theorem process_sends (h : s.client.Sound identity settings) {text : String}
    (ok : s.process (.send text) = .ok s') :
    s' = s ∨ ∃ room wall ref client t, s.client.accepts? s.clock.now text = some room ∧
      client.Sound identity settings ∧
      client.conversation = s.client.conversation.afterSend room text s.clock.now wall ref ∧
      Carries [] { s with client := client } t ∧ t.queue = s.queue ∧
      Conveyed s.client room text ref t s' := by
  obtain ⟨client, actions, hhandle, hrun⟩ := process_eq_ok ok
  have handles := h.handles hhandle
  rcases Client.send_cases h hhandle with
    ⟨rfl, rfl⟩ | ⟨room, wall, ref, quiet, haccepted, hsent, rfl, hquiet⟩
  · cases hrun
    exact .inl rfl
  · obtain ⟨t, hquietly, hcarried⟩ := executeAll_modest hquiet { s with client := client }
    have hcarries := executeAll_carries hquiet hquietly
    rw [Client.fetches_of_modest hquiet] at hcarries
    rw [List.foldlM_append, hquietly] at hrun
    have hcarrier : t.execute (s.client.carrier room text ref) >>= pure = .ok s' := hrun
    rw [bind_pure] at hcarrier
    exact .inr ⟨room, wall, ref, client, t, haccepted, handles.sound, hsent, hcarries,
      hcarried.queue.eq, execute_carrier hcarrier⟩

/-! ## What holds between moves -/

/-- What is to hold of the client and the service, of the events in the queue, and of the answers
that are held back. -/
structure Accord where
  holds : Client → Server → Prop
  queued : Client → Server → Event → Prop
  held : Client → Server → Event → Prop

variable {accord : Accord}

structure Accord.Kept (accord : Accord) (s s' : Simulation) : Prop where
  holds : accord.holds s'.client s'.server
  stillHeld : ∀ e, accord.held s.client s.server e → accord.held s'.client s'.server e
  queue : ∀ e ∈ s'.queue, e ∈ s.queue ∨ accord.queued s'.client s'.server e
  held : ∀ e ∈ s'.held, e ∈ s.held ∨ accord.held s'.client s'.server e

/-- Answers in order leave all in order, one another too, and ask for nothing more. -/
def Accord.Lasts (accord : Accord) : Prop :=
  ∀ s e s', accord.holds s.client s.server → accord.queued s.client s.server e →
    s.process e = .ok s' → accord.Kept s s' ∧ s'.queue = s.queue ∧
      ∀ e', accord.queued s.client s.server e' → accord.queued s'.client s'.server e'

structure Accord.Rests (accord : Accord) (s : Simulation) : Prop where
  holds : accord.holds s.client s.server
  queue : s.queue = []
  held : ∀ e ∈ s.held, accord.held s.client s.server e

/-- A round of answers in order empties the queue for good. -/
theorem Accord.Lasts.drain (lasts : accord.Lasts) (holds : accord.holds s.client s.server)
    (queue : ∀ e ∈ s.queue, accord.queued s.client s.server e)
    (held : ∀ e ∈ s.held, accord.held s.client s.server e) {rounds : Nat}
    (ok : s.drain (rounds + 1) = .ok s') : accord.Rests s' := by
  -- Over the rest of the round: it is in order as well, and nothing is queued behind it.
  have round : ∀ (events : List Event) (t t' : Simulation), t.queue = [] →
      accord.holds t.client t.server → (∀ e ∈ events, accord.queued t.client t.server e) →
      (∀ e ∈ t.held, accord.held t.client t.server e) → events.foldlM process t = .ok t' →
      accord.Rests t' := by
    intro events
    induction events with
    | nil =>
        intro t t' empty holds _ held ok
        cases ok
        exact ⟨holds, empty, held⟩
    | cons e rest ih =>
        intro t t' empty holds queued held ok
        rw [List.foldlM_cons] at ok
        obtain ⟨next, hfirst, hrest⟩ := bind_eq_ok.1 ok
        obtain ⟨kept, hqueue, hstill⟩ :=
          lasts t e next holds (queued e List.mem_cons_self) hfirst
        refine ih next t' (hqueue.trans empty) kept.holds (fun e' he' => ?_)
          (fun e' he' => ?_) hrest
        · exact hstill e' (queued e' (List.mem_cons_of_mem _ he'))
        · exact (kept.held e' he').elim (fun he' => kept.stillHeld e' (held e' he')) id
  rw [drain_succ] at ok
  obtain ⟨t, hround, hdrain⟩ := bind_eq_ok.1 ok
  have rests := round s.queue { s with queue := [] } t rfl holds queue held hround
  obtain rfl : t = s' := Except.ok.inj ((drain_of_empty rests.queue rounds).symm.trans hdrain)
  exact rests

namespace Accord.Rests

theorem drain (rests : accord.Rests s) (lasts : accord.Lasts) {t : Simulation}
    (kept : accord.Kept s t) {rounds : Nat} (ok : t.drain (rounds + 1) = .ok s') :
    accord.Rests s' := by
  refine lasts.drain kept.holds (fun e he => ?_) (fun e he => ?_) ok
  · refine (kept.queue e he).resolve_left ?_
    rw [rests.queue]
    exact List.not_mem_nil
  · exact (kept.held e he).elim (fun he => kept.stillHeld e (rests.held e he)) id

theorem dispatch (rests : accord.Rests s) (lasts : accord.Lasts) {t : Simulation}
    (empty : t.queue = []) (step : ∀ t', t.process e = .ok t' → accord.Kept s t')
    (ok : t.dispatch e = .ok s') : accord.Rests s' := by
  rw [dispatch_of_empty empty] at ok
  obtain ⟨t', hfirst, hdrain⟩ := bind_eq_ok.1 ok
  exact rests.drain lasts (step t' hfirst) hdrain

/-- Two events, the second of which follows at once from the first, settle as one. -/
theorem dispatch_two (rests : accord.Rests s) (lasts : accord.Lasts) {e' : Event} {t : Simulation}
    (first : s.process e = .ok t) (follows : t.queue = [e'])
    (step : ∀ t', { t with queue := [] }.process e' = .ok t' → accord.Kept s t')
    (ok : s.dispatch e = .ok s') : accord.Rests s' := by
  rw [dispatch_of_empty rests.queue, first] at ok
  have hdrain : t.drain 2 = .ok s' := ok
  rw [drain_of_one follows rfl] at hdrain
  obtain ⟨t', hsecond, hdrain'⟩ := bind_eq_ok.1 hdrain
  exact rests.drain lasts (step t' hsecond) hdrain'

theorem release (rests : accord.Rests s) (lasts : accord.Lasts)
    (ready : ∀ e ∈ s.held, accord.queued s.client s.server e) {events : List Event}
    (among : ∀ e ∈ events, e ∈ s.held)
    (ok : { s with held := [], queue := s.queue ++ events }.settle = .ok s') :
    accord.Rests s' := by
  refine lasts.drain (s := { s with held := [], queue := s.queue ++ events }) rests.holds
    (fun e he => ?_) nofun ok
  have he : e ∈ s.queue ++ events := he
  rw [rests.queue, List.nil_append] at he
  exact ready e (among e he)

theorem same (rests : accord.Rests s) (client : s'.client = s.client)
    (server : s'.server = s.server) (queue : s'.queue = s.queue) (held : s'.held = s.held) :
    accord.Rests s' := by
  refine ⟨?_, queue.trans rests.queue, fun e he => ?_⟩
  · rw [client, server]
    exact rests.holds
  · rw [client, server]
    exact rests.held e (held ▸ he)

theorem served (rests : accord.Rests s) {server : Server} (holds : accord.holds s.client server)
    (held : ∀ e, accord.held s.client s.server e → accord.held s.client server e) :
    accord.Rests { s with server := server } :=
  ⟨holds, rests.queue, fun e he => held e (rests.held e he)⟩

end Accord.Rests

/-! ## Calls -/

inductive Call.Hands : Call → Event → Prop
  | dispatch (e : Event) : Hands (.dispatch e) e
  | advance (span : Duration) (now : Instant) : Hands (.advance span) (.tick now)
  | drop (a : Address) : Hands (.drop a) (.transportClosed a)
  | openTransport (a : Address) : Hands (.openTransport a) (.transportOpened a)
  | deliver (a : Address) (f : ServerFrame) : Hands (.deliver a f) (.frameReceived a f.encode)

/-- A call leaves all in order if the event does that it hands to the client, and if it does not
matter whether requests fail. -/
theorem Accord.Rests.call (rests : accord.Rests s) (lasts : accord.Lasts) {call : Call}
    (hands : ∀ e t t', call.Hands e → t.client = s.client → t.server = s.server →
      t.process e = .ok t' → accord.Kept t t')
    (switched : ∀ failPosts failHistory, accord.Rests
      { s with server := { s.server with failPosts := failPosts, failHistory := failHistory } })
    (ok : s.call call = .ok s') : accord.Rests s' := by
  cases call with
  | dispatch e =>
      exact rests.dispatch lasts rests.queue (fun t => hands e s t (.dispatch e) rfl rfl) ok
  | advance span =>
      unfold Simulation.call advance at ok
      obtain ⟨clock, -, hdispatch⟩ := bind_eq_ok.1 ok
      have moved : accord.Rests { s with clock := clock } := rests.same rfl rfl rfl rfl
      exact moved.dispatch lasts moved.queue (fun t => hands _ _ t (.advance span _) rfl rfl)
        hdispatch
  | drop a =>
      have dropped : accord.Rests { s with transports := s.transports.erase a } :=
        rests.same rfl rfl rfl rfl
      exact dropped.dispatch lasts dropped.queue (fun t => hands _ _ t (.drop a) rfl rfl) ok
  | openTransport a =>
      have opened : accord.Rests { s with transports := s.transports.insert a () } :=
        rests.same rfl rfl rfl rfl
      exact opened.dispatch lasts opened.queue (fun t => hands _ _ t (.openTransport a) rfl rfl) ok
  | deliver a f =>
      exact rests.dispatch lasts rests.queue (fun t => hands _ _ t (.deliver a f) rfl rfl) ok
  | failPosts on =>
      cases ok
      exact switched on s.server.failHistory
  | failHistory on =>
      cases ok
      exact switched s.server.failPosts on
  | autoOpen on =>
      cases ok
      exact rests.same rfl rfl rfl rfl

/-! ## Moves -/

inductive Move where
  | call (call : Call)
  | set (options : Options)
  /-- A message is stored, and no channel brings it. -/
  | store (room : Room) (sender : UserId) (body : String) (ref : Option Ref)
  /-- A message is stored, and the channel of its room brings it at once. -/
  | bring (room : Room) (sender : UserId) (body : String) (ref : Option Ref)
  | release
  | releaseReversed

def move (s : Simulation) : Move → Step
  | .call call => s.call call
  | .set options => .ok { s with options }
  | .store room sender body ref => do
    let (server, _) ← liftFault (s.server.post room sender body ref)
    .ok { s with server }
  | .bring room sender body ref => do
    let (server, m) ← liftFault (s.server.post room sender body ref)
    { s with server }.deliver (.room room) (.message m)
  | .release => s.release
  | .releaseReversed => s.releaseReversed

/-- The states that a session comes to by moves that are allowed where they are made. -/
inductive Plays (allowed : Simulation → Move → Prop) (start : Simulation) : Simulation → Prop
  | start : Plays allowed start start
  | move {s s' : Simulation} {m : Move} (plays : Plays allowed start s) (permitted : allowed s m)
      (made : s.move m = .ok s') : Plays allowed start s'

def play (allowed : Simulation → Move → Prop) [∀ s, DecidablePred (allowed s)] (s : Simulation) :
    List Move → Option Simulation
  | [] => some s
  | m :: rest =>
    if allowed s m then
      match s.move m with
      | .ok s' => s'.play allowed rest
      | .error _ => none
    else none

variable {allowed : Simulation → Move → Prop} {start : Simulation}

theorem Plays.play [∀ s, DecidablePred (allowed s)] (plays : Plays allowed start s)
    {moves : List Move} (made : s.play allowed moves = some s') : Plays allowed start s' := by
  induction moves generalizing s with
  | nil =>
      cases made
      exact plays
  | cons m rest ih =>
      unfold Simulation.play at made
      split at made
      · next permitted =>
        cases hmove : s.move m with
        | error f =>
            rw [hmove] at made
            cases made
        | ok next =>
            rw [hmove] at made
            exact ih (plays.move permitted hmove) made
      · cases made

theorem Plays.rests (plays : Plays allowed start s) (rests : accord.Rests start)
    (step : ∀ s m s', accord.Rests s → allowed s m → s.move m = .ok s' → accord.Rests s') :
    accord.Rests s := by
  induction plays with
  | start => exact rests
  | move _ permitted made ih => exact step _ _ _ ih permitted made

end LiveChat.Simulation
