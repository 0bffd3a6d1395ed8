import LiveChat.Proofs.Client.Send
import LiveChat.Proofs.Simulation.Process

/-!
# Messages settle within a call

While the service sends messages back under their numbers and answers requests at once, nothing is
pending between calls. A message that is accepted is stored once, or not at all when its room's
channel is down and posting fails; no other call stores anything.
-/

namespace LiveChat.Simulation

open Client (Event Action Error Handles Settles)

/-! ## Storing -/

namespace Server

/-- The log of a room has grown by a message if that is stored, and the other logs are the same. -/
structure Grows (stored : Bool) (room : Room) (m : Message) (s s' : Server) : Prop where
  log : s'.log room = s.log room ++ if stored then [m] else []
  others : ∀ other, other ≠ room → s'.log other = s.log other

variable {s s' : Server} {room : Room} {sender : UserId} {body : String} {ref : Option Ref}
  {m : Message}

theorem Grows.of_same (same : s.Same s') : Grows false room m s s' where
  log := by rw [same.log]; simp
  others := fun other _ => same.log other

theorem Grows.before {stored : Bool} {s'' : Server} (h : Grows stored room m s' s'')
    (same : s.Same s') : Grows stored room m s s'' where
  log := same.log room ▸ h.log
  others := fun other hother => (h.others other hother).trans (same.log other)

theorem Grows.after {stored : Bool} {s'' : Server} (h : Grows stored room m s s')
    (same : s'.Same s'') : Grows stored room m s s'' where
  log := (same.log room).trans h.log
  others := fun other hother => (same.log other).trans (h.others other hother)

theorem record_same (same : s.Same s') : s'.record = s.record := by
  funext room sender body ref
  unfold record
  rw [same.nextId]

theorem post_error {f : Fault} (h : s.post room sender body ref = .error f) : f = .overflow := by
  unfold post at h
  split at h
  · cases h
  · cases h
    rfl

theorem post_spec (h : s.post room sender body ref = .ok (s', m)) :
    m = s.record room sender body ref ∧ Grows true room m s s' ∧ s'.user = s.user := by
  unfold post at h
  split at h
  · cases h
    refine ⟨rfl, ⟨?_, fun other hother => ?_⟩, rfl⟩
    · show ((s.rooms.insert room _).find? room).getD [] = _
      rw [Table.find?_insert, if_pos rfl]
      rfl
    · show ((s.rooms.insert room _).find? other).getD [] = _
      rw [Table.find?_insert, if_neg hother]
      rfl
  · cases h

theorem requestPost_error {ref : Ref} {f : Fault} (h : s.requestPost room body ref = .error f) :
    f = .overflow := by
  unfold requestPost at h
  split at h
  · cases h
  · cases hpost : s.post room s.user body (some ref) with
    | ok stored =>
        rw [hpost] at h
        cases h
    | error g =>
        rw [hpost] at h
        cases h
        exact post_error hpost

theorem requestPost_spec {ref : Ref} {result : Except RequestError Message}
    (h : s.requestPost room body ref = .ok (s', result)) :
    (∀ m, result = .ok m → m = s.record room s.user body (some ref)) ∧
      Grows (!s.failPosts) room (s.record room s.user body (some ref)) s s' ∧ s'.user = s.user := by
  unfold requestPost at h
  cases hfail : s.failPosts with
  | true =>
      rw [if_pos hfail] at h
      cases h
      exact ⟨nofun, .of_same (.refl s), rfl⟩
  | false =>
      rw [if_neg (by simp [hfail])] at h
      cases hpost : s.post room s.user body (some ref) with
      | error g =>
          rw [hpost] at h
          cases h
      | ok stored =>
          rw [hpost] at h
          cases h
          obtain ⟨hm, hgrows, huser⟩ := post_spec hpost
          refine ⟨?_, hm ▸ hgrows, huser⟩
          rintro m ⟨⟩
          exact hm

end Server

/-! ## States between events -/

/-- The service knows the user, sends messages back under their numbers, and answers at once. -/
structure Responsive (identity : Identity) (s : Simulation) : Prop where
  user : s.server.user = identity.user
  echoMessages : s.options.echoMessages = true
  echoRefs : s.options.echoRefs = true
  answers : s.options.holdAnswers = false

/-- A sound client with what is pending, and a service that will settle it. -/
structure Steady (identity : Identity) (settings : LinkSettings) (refs : List Ref)
    (s : Simulation) : Prop where
  client : s.client.Sound identity settings
  pending : s.client.conversation.timeline.refs = refs
  responsive : Responsive identity s

variable {identity : Identity} {settings : LinkSettings} {s s' : Simulation} {room : Room}
  {text : String} {ref : Ref} {e : Event}

theorem Responsive.of_same (h : Responsive identity s) (options : s'.options = s.options)
    (user : s'.server.user = s.server.user) : Responsive identity s' where
  user := user.trans h.user
  echoMessages := by rw [options]; exact h.echoMessages
  echoRefs := by rw [options]; exact h.echoRefs
  answers := by rw [options]; exact h.answers

/-- What carrying out a message leaves of a session. -/
structure Delivered (identity : Identity) (c : Client) (room : Room) (text : String) (ref : Ref)
    (s s' : Simulation) : Prop where
  client : s'.client = s.client
  options : s'.options = s.options
  user : s'.server.user = s.server.user
  queue : ∃ e, s'.queue = s.queue ++ [e] ∧ Settles identity room c.conversation.stay ref e
  log : Server.Grows (c.isRoomLive || !s.server.failPosts) room
    (s.server.record room identity.user text (some ref)) s.server s'.server

theorem Responsive.echo (h : Responsive identity s) {c : Client} (live : c.isRoomLive = true)
    (self : s.client.identity = identity) :
    Yields (s.execute (.sendFrame (.room room) (ClientFrame.post text (some ref)).encode))
      (Delivered identity c room text ref s) := by
  show Yields (s.transmit (.room room) (ClientFrame.post text (some ref)).encode) _
  unfold transmit
  rw [ClientFrame.decode_encode]
  dsimp only
  refine Yields.bind (p := Delivered identity c room text ref s) ?_ fun t ht => ?_
  · unfold Simulation.echo
    rw [h.echoMessages, h.echoRefs]
    refine (Yields.liftFault fun f => Server.post_error).bind fun stored hstored => ?_
    obtain ⟨server, m⟩ := stored
    obtain ⟨hm, hgrows, huser⟩ := Server.post_spec hstored
    rw [self] at hm
    have hsettles : Settles identity room c.conversation.stay ref
        (.frameReceived (.room room) (ServerFrame.message m).encode) :=
      .returned (by rw [hm]; rfl) (by rw [hm]; rfl)
    refine .of_eq rfl ⟨rfl, rfl, huser, ⟨_, rfl, hsettles⟩, ?_⟩
    rw [live, ← hm]
    exact hgrows
  · exact .of_eq rfl ⟨ht.client, ht.options, ht.user, ht.queue, ht.log⟩

theorem Responsive.request (h : Responsive identity s) {c : Client} (down : c.isRoomLive = false) :
    Yields (s.execute (.postMessage ⟨room, c.conversation.stay, text, ref⟩))
      (Delivered identity c room text ref s) := by
  refine (Yields.liftFault fun f => Server.requestPost_error).bind fun stored hstored => ?_
  obtain ⟨server, result⟩ := stored
  obtain ⟨hresult, hgrows, huser⟩ := Server.requestPost_spec hstored
  rw [h.user] at hresult hgrows
  have hsettles : Settles identity room c.conversation.stay ref
      (.posted ⟨room, c.conversation.stay, text, ref⟩ result) :=
    .answered fun m hm => by rw [hresult m hm]; rfl
  have hnow : ∀ e, { s with server := server }.answer e = { s with server := server }.enqueue e :=
    fun e => if_neg (by rw [h.answers]; exact nofun)
  refine .of_eq rfl ?_
  rw [hnow]
  refine ⟨rfl, rfl, huser, ⟨_, rfl, hsettles⟩, ?_⟩
  rw [down]
  exact hgrows

theorem Responsive.carrier (h : Responsive identity s) (c : Client)
    (self : s.client.identity = identity) :
    Yields (s.execute (c.carrier room text ref)) (Delivered identity c room text ref s) := by
  unfold Client.carrier
  cases hlive : c.isRoomLive with
  | true => exact h.echo hlive self
  | false => exact h.request hlive

/-! ## Events -/

theorem Steady.of_carried {refs refs' : List Ref} {asks : Bool} {c : Client}
    (h : Steady identity settings refs s) (carried : Carried asks { s with client := c } s')
    (client : c.Sound identity settings) (pending : c.conversation.timeline.refs = refs') :
    Steady identity settings refs' s' where
  client := carried.client ▸ client
  pending := carried.client ▸ pending
  responsive := h.responsive.of_same carried.options carried.server.user

/-- An event that brings no message to be sent leaves nothing pending where nothing was. -/
theorem Steady.receives (h : Steady identity settings [] s) (receives : e.isSend = false) :
    Yields (s.process e) fun s' => Steady identity settings [] s' ∧
      Answered (!e.isAnswer) s.queue s'.queue ∧ s.server.Same s'.server := by
  refine (process_receives h.client receives).mono fun s' heard => ?_
  obtain ⟨actions, handles⟩ := heard.handles
  refine ⟨h.of_carried heard.carried handles.sound ?_, heard.carried.queue, heard.carried.server⟩
  have hrefs := Client.performs_refs handles.performs (Client.operations_receive receives)
  rw [h.pending] at hrefs
  exact List.sublist_nil.1 hrefs

/-- What was sent is settled by the event that followed from it. -/
theorem Steady.settles (h : Steady identity settings [ref] s) (active : s.client.room? = some room)
    (settles : Settles identity room s.client.conversation.stay ref e) :
    Yields (s.process e) fun s' => Steady identity settings [] s' ∧ s'.queue = s.queue ∧
      s.server.Same s'.server := by
  have hsend : e.isSend = false := by cases settles <;> rfl
  refine (process_receives h.client hsend).mono fun s' heard => ?_
  obtain ⟨actions, handles⟩ := heard.handles
  have hrefs := settles.refs handles h.client active h.pending
  have hqueue := heard.carried.queue
  rw [settles.isAnswer] at hqueue
  exact ⟨h.of_carried heard.carried handles.sound hrefs, hqueue.eq, heard.carried.server⟩

/-- Whether a message that is accepted now is stored. -/
def stores (s : Simulation) : Bool := s.client.isRoomLive || !s.server.failPosts

/-- An accepted message is pending under its number, and the event that settles it is queued. -/
structure Posted (identity : Identity) (settings : LinkSettings) (s : Simulation) (room : Room)
    (text : String) (ref : Ref) (s' : Simulation) : Prop where
  steady : Steady identity settings [ref] s'
  active : s'.client.room? = some room
  queue : ∃ e, s'.queue = s.queue ++ [e] ∧
    Settles identity room s'.client.conversation.stay ref e
  number : ∃ wall, s.clock.wall = some wall ∧
    Conversation.nextRef s.client.conversation.lastRef wall = .ok ref
  log : Server.Grows s.stores room (s.server.record room identity.user text (some ref)) s.server
    s'.server

/-- What comes before the message is carried out, and carrying it out. -/
theorem Steady.posted {c' : Client} {quiet : List Action} {t : Simulation}
    (h : Steady identity settings [] s) (sound : c'.Sound identity settings)
    (sends : s.client.Sends s.reading text room ref c'
      (quiet ++ [s.client.carrier room text ref]))
    (carried : Carried false { s with client := c' } t)
    (delivered : Delivered identity s.client room text ref t s') :
    Posted identity settings s room text ref s' := by
  have hclient : s'.client = c' := delivered.client.trans carried.client
  have hpending : c'.conversation.timeline.refs = [ref] := by
    rw [sends.refs, h.pending]
    rfl
  have ht := h.of_carried carried sound hpending
  have hsame : s.server.Same t.server := carried.server
  refine ⟨⟨hclient ▸ sound, hclient ▸ hpending,
    ht.responsive.of_same delivered.options delivered.user⟩, hclient ▸ sends.active, ?_,
    sends.number, ?_⟩
  · obtain ⟨e, hqueue, hsettles⟩ := delivered.queue
    have hquiet : t.queue = s.queue := carried.queue.eq
    rw [hquiet] at hqueue
    rw [hclient, sends.stay]
    exact ⟨e, hqueue, hsettles⟩
  · have hgrows := delivered.log
    rw [Server.record_same hsame, hsame.failPosts] at hgrows
    exact hgrows.before hsame

theorem Steady.sends (h : Steady identity settings [] s) (text : String) :
    Yields (s.process (.send text)) fun s' =>
      (s.client.accepts? s.clock.now text = none ∧ s' = s) ∨
        ∃ room ref, s.client.accepts? s.clock.now text = some room ∧
          Posted identity settings s room text ref s' := by
  unfold process
  rcases h.client.handle s.reading (.send text) with ⟨c', actions, handles⟩ | ⟨herror, -⟩
  · rw [handles.ok]
    show Yields (actions.foldlM execute { s with client := c' } >>= fun s => s.audit _) _
    rcases Client.send_spec h.client handles.ok with
      ⟨hdropped, rfl, rfl⟩ | ⟨room, ref, haccepted, sends⟩
    · exact .of_eq (audit_of_sound h.client _) (.inl ⟨hdropped, rfl⟩)
    · obtain ⟨quiet, rfl, hquiet⟩ := sends.actions
      obtain ⟨t, hrun, carried⟩ := executeAll_modest hquiet { s with client := c' }
      have ht := h.of_carried carried handles.sound rfl
      have hcarrier : Yields (t.execute (s.client.carrier room text ref))
          (Delivered identity s.client room text ref t) :=
        ht.responsive.carrier s.client ht.client.self
      rw [List.foldlM_append, hrun]
      refine Yields.bind (p := Posted identity settings s room text ref) ?_ fun s' posted => ?_
      · show Yields (t.execute (s.client.carrier room text ref) >>= fun t => .ok t) _
        refine hcarrier.bind fun s' delivered => .of_eq rfl ?_
        exact h.posted handles.sound sends carried delivered
      · exact .of_eq (audit_of_sound posted.steady.client _) (.inr ⟨room, ref, haccepted, posted⟩)
  · rw [herror]
    exact .inr rfl

end LiveChat.Simulation
