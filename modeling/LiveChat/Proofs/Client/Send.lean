import LiveChat.Proofs.Chat.Settlement
import LiveChat.Proofs.Client.Sound
import LiveChat.Proofs.Wire.RoundTrip

/-!
# Sending a message

A message is dropped, and then nothing changes, or it becomes a pending entry and is carried out in
one of two ways: on the channel of the room while that is live, and else by a request. The pending
entry goes when the message comes back on the channel, and when the request is answered.
-/

namespace LiveChat

namespace Client

variable {identity : Identity} {settings : LinkSettings} {c c' : Client} {r : Reading}
  {actions : List Action} {room : Room} {text : String}

def carrier (c : Client) (room : Room) (text : String) (ref : Ref) : Action :=
  if c.isRoomLive then .sendFrame (.room room) (ClientFrame.post text (some ref)).encode
  else .postMessage ⟨room, c.conversation.stay, text, ref⟩

/-- Whether a message would be accepted now, and the room that it would go to. -/
def accepts? (c : Client) (now : Instant) (text : String) : Option Room :=
  if c.conversation.maySend text now then c.room? else none

theorem accepts?_eq_none (h : c.room? = none ∨ c.conversation.maySend text r.now = false) :
    c.accepts? r.now text = none := by
  unfold accepts?
  rcases h with hroom | hmay
  · simp [hroom]
  · simp [hmay]

/-- The message is accepted: it is pending, and asked to be carried out after all else. -/
structure Sends (c : Client) (r : Reading) (text : String) (room : Room) (ref : Ref) (c' : Client)
    (actions : List Action) : Prop where
  number : ∃ wall, r.wall = some wall ∧
    Conversation.nextRef c.conversation.lastRef wall = .ok ref
  active : c'.room? = some room
  stay : c'.conversation.stay = c.conversation.stay
  refs : c'.conversation.timeline.refs = c.conversation.timeline.refs ++ [ref]
  lastRef : c'.conversation.lastRef = ref
  actions : ∃ quiet, actions = quiet ++ [c.carrier room text ref] ∧
    ∀ x ∈ quiet, x.Modest false

theorem effectActions_transmission (h : c.Sound identity settings)
    (conversation : Conversation) (hroom : conversation.room = some room) (text : String)
    (ref : Ref) (active : c.room? = some room) :
    { c with conversation := conversation }.effectActions
      (c.conversation.transmission room text ref c.isRoomLive) = [c.carrier room text ref] := by
  unfold Conversation.transmission carrier
  cases hlive : c.isRoomLive with
  | false => rfl
  | true =>
      have hline : c.switchboard.isLive (.room room) = true := by
        simpa [isRoomLive, active] using hlive
      have hsend := h.switchboard.send_of_live hline (.post text (some ref))
      simp only [if_true, effectActions, room?, hroom, hsend]
      rfl

theorem applyChat_transmission (h : c.Sound identity settings) (conversation : Conversation)
    (hroom : conversation.room = some room) (ref : Ref) (active : c.room? = some room) :
    ∃ quiet, (c.applyChat (conversation,
        (c.conversation.signal.stop.2.map ChatEffect.transmit).toList ++
          [.timelineChanged, .scrollToNewest,
            c.conversation.transmission room text ref c.isRoomLive])).2 =
        quiet ++ [c.carrier room text ref] ∧ ∀ x ∈ quiet, x.Modest false := by
  let shown : List ChatEffect := (c.conversation.signal.stop.2.map ChatEffect.transmit).toList ++
    [.timelineChanged, .scrollToNewest]
  have hshown : ∀ e ∈ shown, e.Modest false := by
    intro e he
    rcases List.mem_append.1 he with he | he
    · exact Conversation.frame_modest (fun _ => TypingSignal.stop_isPost) false e he
    · have hquiet : e.isQuiet = true := by
        rcases List.mem_cons.1 he with rfl | he
        · rfl
        · rw [List.mem_singleton.1 he]
          rfl
      exact ChatEffect.modest_of_isQuiet hquiet false
  refine ⟨shown.flatMap ({ c with conversation := conversation }.effectActions), ?_, fun x hx => ?_⟩
  · have hlast := effectActions_transmission h conversation hroom text ref active
    rw [← hlast, List.flatMap_append]
    unfold applyChat
    simp only [List.flatMap_append, List.flatMap_cons, List.flatMap_nil, List.append_nil,
      List.append_assoc]
  · obtain ⟨e, he, hx⟩ := List.mem_flatMap.1 hx
    exact effectActions_modest (hshown e he) x hx

theorem send_spec (h : c.Sound identity settings)
    (ok : c.handle r (.send text) = .ok (c', actions)) :
    (c.accepts? r.now text = none ∧ c' = c ∧ actions = []) ∨
      ∃ room ref, c.accepts? r.now text = some room ∧ Sends c r text room ref c' actions := by
  obtain ⟨wall, ⟨after, effects⟩, hwall, hstep, rfl, rfl⟩ := send_eq_ok ok
  rcases Conversation.send_cases hstep with
    ⟨hdropped, rfl, rfl⟩ | ⟨room, ref, hroom, hmay, href, rfl, rfl⟩
  · exact .inl ⟨accepts?_eq_none hdropped, rfl, rfl⟩
  · refine .inr ⟨room, ref, ?_, ⟨wall, hwall, href⟩, hroom, rfl, Timeline.refs_append _ _, rfl, ?_⟩
    · rw [accepts?, if_pos hmay]
      exact hroom
    · exact applyChat_transmission h _ hroom ref hroom

/-! ## What is pending -/

/-- Nothing is pending that was not before, unless a message is sent. -/
theorem performs_refs {before after : Conversation} {ops : List Conversation.Operation}
    (h : before.Performs ops after) (receive : ∀ op ∈ ops, op.isSend = false) :
    after.timeline.refs.Sublist before.timeline.refs := by
  induction h with
  | nil => exact .refl _
  | cons op head tail ih =>
      have hfirst := Conversation.perform_refs head (receive op List.mem_cons_self)
      have hrest := ih fun op hop => receive op (List.mem_cons_of_mem _ hop)
      exact hrest.trans hfirst

/-- What settles a message: its return on the channel of the room, or the answer to its request. -/
inductive Settles (identity : Identity) (room : Room) (stay : Nat) (ref : Ref) : Event → Prop
  | returned {m : Message} (sender : m.sender = some identity.user) (number : m.ref = some ref) :
      Settles identity room stay ref (.frameReceived (.room room) (ServerFrame.message m).encode)
  | answered {text : String} {result : Except RequestError Message}
      (number : ∀ m, result = .ok m → m.ref = some ref) :
      Settles identity room stay ref (.posted ⟨room, stay, text, ref⟩ result)

theorem Settles.isAnswer {stay : Nat} {ref : Ref} {e : Event}
    (h : Settles identity room stay ref e) : e.isAnswer = true := by
  cases h <;> rfl

theorem frameOperations_message (h : c.Sound identity settings) (active : c.room? = some room)
    (r : Reading) (m : Message) :
    c.frameOperations r (.room room) (ServerFrame.message m).encode = [.received m] := by
  have hheld : (c.switchboard.link? (.room room)).isSome := by
    rw [h.switchboard.link?_isSome_iff, h.rooms, if_pos active]
    exact Nat.one_pos
  have htaken : ¬ ((c.switchboard.link? (.room room)).isNone = true ∨
      c.room?.map Address.room ≠ some (.room room)) := by
    rw [active, Option.isNone_eq_false_iff.2 hheld]
    simp
  unfold frameOperations
  rw [if_neg htaken, ServerFrame.decode_encode_message]

theorem Settles.refs {ref : Ref} {e : Event}
    (settles : Settles identity room c.conversation.stay ref e)
    (handles : Handles identity settings c r e c' actions) (h : c.Sound identity settings)
    (active : c.room? = some room) (only : c.conversation.timeline.refs = [ref]) :
    c'.conversation.timeline.refs = [] := by
  have hmem : ref ∈ c.conversation.timeline.refs := by simp [only]
  have hperforms := handles.performs
  refine Conversation.Settled.refs_eq_nil ?_ only
  cases settles with
  | @returned m sender number =>
      have hreceived : c.conversation.Performs [.received m] c'.conversation := by
        rw [← frameOperations_message h active r m]
        exact hperforms
      obtain ⟨effects, hstep⟩ := hreceived.of_one
      rw [(Conversation.eq_of_ok hstep).1]
      exact Conversation.received_settled active (by rw [sender, h.owner]) number hmem
  | @answered text result number =>
      have hposted : c.conversation.Performs [.posted ⟨room, c.conversation.stay, text, ref⟩ result]
          c'.conversation := hperforms
      obtain ⟨effects, hstep⟩ := hposted.of_one
      rw [(Conversation.eq_of_ok hstep).1]
      have hcurrent : c.conversation.isCurrent room c.conversation.stay = true :=
        Conversation.isCurrent_iff.2 ⟨active, rfl⟩
      exact Conversation.posted_settled
        (r := ⟨room, c.conversation.stay, text, ref⟩) hcurrent number hmem

end Client

end LiveChat
