import LiveChat.Proofs.Client.Effects
import LiveChat.Proofs.Client.Send
import LiveChat.Proofs.Client.Transport

/-!
# What an event does to what is loaded

An event leaves what is loaded of the history as it is, writes into the timeline what the user has
sent, ends the stay, begins one in another room with a load of the newest page, issues a load within
the stay, or brings what was waited for: the answer to the load in flight or a message of the active
room. Nothing else is asked of the history.
-/

namespace LiveChat

namespace Conversation

variable {c c' : Conversation}

/-- The same is shown of the same room. -/
structure SameView (c c' : Conversation) : Prop where
  room : c'.room = c.room
  timeline : c'.timeline = c.timeline
  total : c'.total = c.total
  hasOlder : c'.hasOlder = c.hasOlder
  settings : c'.settings = c.settings

/-- The same is loaded in the same stay, and the same load is in flight. -/
structure SameHistory (c c' : Conversation) : Prop extends SameView c c' where
  stay : c'.stay = c.stay
  load : c'.load = c.load
  loading : c'.loading = c.loading

theorem SameHistory.refl (c : Conversation) : c.SameHistory c :=
  ⟨⟨rfl, rfl, rfl, rfl, rfl⟩, rfl, rfl, rfl⟩

theorem SameHistory.awaits (h : c.SameHistory c') {q : HistoryRequest} (awaits : c'.Awaits q) :
    c.Awaits q :=
  ⟨h.room ▸ awaits.room, h.stay ▸ awaits.stay, h.load ▸ awaits.load, h.loading ▸ awaits.loading⟩

theorem input_sameHistory (text : String) (now : Instant) :
    c.SameHistory (c.input text now).1 := by
  unfold input
  split <;> exact ⟨⟨rfl, rfl, rfl, rfl, rfl⟩, rfl, rfl, rfl⟩

theorem otherTyping_sameHistory (user : UserId) (nickname : String) (now : Instant) :
    c.SameHistory (c.otherTyping user nickname now).1 := by
  unfold otherTyping
  split <;> exact ⟨⟨rfl, rfl, rfl, rfl, rfl⟩, rfl, rfl, rfl⟩

/-- Nothing has come since the stay began. -/
structure Blank (c : Conversation) : Prop where
  timeline : c.timeline = []
  total : c.total = none
  hasOlder : c.hasOlder = false

/-- The load has just been issued. -/
structure Issues (c : Conversation) (q : HistoryRequest) : Prop where
  awaits : c.Awaits q
  limit : q.limit = c.settings.pageSize
  offset : q.offset = match q.kind with
    | .newest => 0
    | .older => c.timeline.confirmedCount

theorem beginLoad_issues {room : Room} (active : c.room = some room) (kind : LoadKind) :
    ∃ q, (c.beginLoad room kind).2 = [.fetch q] ∧ q.kind = kind ∧ q.load = c.load + 1 ∧
      (c.beginLoad room kind).1.Issues q :=
  ⟨_, rfl, rfl, rfl, ⟨⟨active, rfl, rfl, rfl⟩, rfl, rfl⟩⟩

end Conversation

namespace Client

variable {identity : Identity} {settings : LinkSettings} {room : Option Room} {c c' : Client}
  {r : Reading} {e : Event} {actions actions' : List Action}

/-! ## Loads among actions -/

def Action.fetch? : Action → Option HistoryRequest
  | .fetchHistory q => some q
  | _ => none

/-- The loads that are asked for. -/
def fetches (actions : List Action) : List HistoryRequest := actions.filterMap Action.fetch?

theorem fetch?_of_effect? (x : Action) : x.effect?.bind ChatEffect.fetch? = x.fetch? := by
  cases x <;> rfl

theorem fetch?_of_carried (effect : ChatEffect) :
    (Option.guard (!·.isTransmit) effect).bind ChatEffect.fetch? = effect.fetch? := by
  cases effect <;> rfl

/-- The loads are those of the effects that the actions carry out. -/
theorem fetches_of_effectsIn {effects : List ChatEffect}
    (hin : effectsIn actions = effects.filter (!·.isTransmit)) :
    fetches actions = effects.filterMap ChatEffect.fetch? := by
  have hactions : (effectsIn actions).filterMap ChatEffect.fetch? = fetches actions := by
    unfold effectsIn fetches
    rw [List.filterMap_filterMap]
    simp only [fetch?_of_effect?]
  rw [← hactions, hin, ← List.filterMap_eq_filter, List.filterMap_filterMap]
  simp only [fetch?_of_carried]

theorem fetches_of_modest (h : ∀ x ∈ actions, x.Modest false) : fetches actions = [] := by
  refine List.filterMap_eq_nil_iff.2 fun x hx => ?_
  cases x with
  | fetchHistory q => exact absurd (h _ hx) nofun
  | _ => rfl

/-! ## What an event does -/

/-- Whether an event writes into the timeline: a message is sent, or a post of this stay is
answered. -/
def Event.Writes (c : Conversation) : Event → Prop
  | .send _ => True
  | .posted q _ => c.isCurrent q.room q.stay = true
  | _ => False

/-- What an event makes of what is loaded, and the loads that it asks for. -/
inductive Loads (c : Conversation) : Event → Conversation → List HistoryRequest → Prop
  | rests {e : Event} {c' : Conversation} (same : c.SameHistory c') : Loads c e c' []
  | wrote {e : Event} {c' : Conversation} (writes : e.Writes c)
      (same : Conversation.SameHistory { c with timeline := c'.timeline } c') : Loads c e c' []
  | left {e : Event} {c' : Conversation} (leaves : e.isAnswer = false) (room : c'.room = none)
      (load : c'.load = c.load) (blank : c'.Blank) : Loads c e c' []
  | entered {room : Room} {c' : Conversation} {q : HistoryRequest} (active : c'.room = some room)
      (blank : c'.Blank) (kind : q.kind = .newest) (number : q.load = c.load + 1)
      (issues : c'.Issues q) : Loads c (.enterRoom room) c' [q]
  | asked {e : Event} {c' : Conversation} {q : HistoryRequest} (number : q.load = c.load + 1)
      (issues : c'.Issues q) (same : c.SameView c') (stay : c'.stay = c.stay)
      (older : q.kind = .older → e = .loadOlder ∧ c.loadOlder.2 = [.fetch q]) : Loads c e c' [q]
  | answered {q : HistoryRequest} {result : Except RequestError Page} (awaits : c.Awaits q) :
      Loads c (.historyLoaded q result) (c.historyLoaded q result).1 []
  | received {room : Room} {text : String} {m : Message} (active : c.room = some room)
      (decodes : ServerFrame.decode text = some (.message m)) :
      Loads c (.frameReceived (.room room) text) (c.received m).1 []

namespace Loads

variable {c c' : Conversation} {e : Event} {requests : List HistoryRequest} {q : HistoryRequest}

/-- A load that was issued before the event, and that is awaited after it, was awaited all along:
the same is shown, but for a message of the room that may have come or been sent. -/
theorem awaits (h : Loads c e c' requests) (earlier : q.load ≤ c.load) (awaits : c'.Awaits q) :
    c.Awaits q ∧ (c.SameView c' ∨ e.Writes c ∨
      ∃ room text m, e = .frameReceived (.room room) text ∧ c.room = some room ∧
        ServerFrame.decode text = some (.message m) ∧ c' = (c.received m).1) := by
  cases h with
  | rests same => exact ⟨same.awaits awaits, .inl same.toSameView⟩
  | wrote writes same =>
      have hawaits := same.awaits awaits
      exact ⟨⟨hawaits.room, hawaits.stay, hawaits.load, hawaits.loading⟩, .inr (.inl writes)⟩
  | left _ room =>
      have hroom := awaits.room
      rw [room] at hroom
      cases hroom
  | entered _ _ _ number issues | asked number issues =>
      have hload := awaits.load.trans issues.awaits.load.symm
      rw [hload, number] at earlier
      exact absurd earlier (Nat.not_succ_le_self _)
  | @answered q' result awaits' =>
      have hloading := awaits.loading
      rw [Conversation.historyLoaded_of_awaits awaits'] at hloading
      cases result <;> cases hloading
  | @received room text m active decodes =>
      refine ⟨?_, .inr (.inr ⟨room, text, m, rfl, active, decodes, rfl⟩)⟩
      obtain ⟨t, ht⟩ := Conversation.received_frame (c := c) m
      rw [ht] at awaits
      exact ⟨awaits.room, awaits.stay, awaits.load, awaits.loading⟩

theorem load_le (h : Loads c e c' requests) : c.load ≤ c'.load := by
  cases h with
  | rests same | wrote _ same => exact Nat.le_of_eq same.load.symm
  | left _ _ load => exact Nat.le_of_eq load.symm
  | entered _ _ _ number issues | asked number issues =>
      rw [← issues.awaits.load, number]
      exact Nat.le_succ _
  | @answered q result awaits =>
      rw [Conversation.historyLoaded_of_awaits awaits]
      cases result <;> exact Nat.le_refl _
  | @received room text m =>
      obtain ⟨t, ht⟩ := Conversation.received_frame (c := c) m
      exact Nat.le_of_eq (by rw [ht])

/-- The stay goes on, or nothing has come since the next one began; an answer does not end it. -/
theorem stay_or_blank (h : Loads c e c' requests) :
    c'.stay = c.stay ∨ e.isAnswer = false ∧ c'.Blank := by
  cases h with
  | rests same | wrote _ same => exact .inl same.stay
  | left leaves _ _ blank => exact .inr ⟨leaves, blank⟩
  | entered _ blank => exact .inr ⟨rfl, blank⟩
  | asked _ _ _ stay => exact .inl stay
  | @answered q result awaits =>
      rw [Conversation.historyLoaded_of_awaits awaits]
      cases result <;> exact .inl rfl
  | @received room text m =>
      obtain ⟨t, ht⟩ := Conversation.received_frame (c := c) m
      rw [ht]
      exact .inl rfl

end Loads

/-! ## Operations -/

theorem fetches_of_perform {before after : Conversation} (op : Conversation.Operation)
    {effects : List ChatEffect} (h : before.perform op = .ok (after, effects))
    (receives : op.isSend = false) (asks : op.asks = false) :
    effects.filterMap ChatEffect.fetch? = [] := by
  refine List.filterMap_eq_nil_iff.2 fun effect he => ?_
  have hmodest := Conversation.perform_modest h receives effect he
  rw [asks] at hmodest
  cases effect with
  | fetch q => cases hmodest
  | _ => rfl

theorem enter_loads (c : Conversation) (room : Room) :
    Loads c (.enterRoom room) (c.enter room).1 ((c.enter room).2.filterMap ChatEffect.fetch?) := by
  obtain ⟨q, heffects, hkind, hnumber, hissues⟩ := Conversation.beginLoad_issues
    (c := { c.reset with room := some room }) rfl .newest
  have hfetches : (c.enter room).2.filterMap ChatEffect.fetch? = [q] := by
    show List.filterMap ChatEffect.fetch? (.timelineChanged :: (Conversation.beginLoad _ _ _).2) = _
    rw [heffects]
    rfl
  rw [hfetches]
  exact .entered rfl ⟨rfl, rfl, rfl⟩ hkind hnumber hissues

theorem leave_loads {c : Conversation} {room : Room} (active : c.room = some room)
    (leaves : e.isAnswer = false) :
    Loads c e c.leave.1 (c.leave.2.filterMap ChatEffect.fetch?) := by
  unfold Conversation.leave
  rw [active]
  exact .left leaves rfl rfl ⟨rfl, rfl, rfl⟩

theorem loadOlder_loads (c : Conversation) :
    Loads c .loadOlder c.loadOlder.1 (c.loadOlder.2.filterMap ChatEffect.fetch?) := by
  cases hroom : c.room with
  | none =>
      have hrests : c.loadOlder = (c, []) := by
        unfold Conversation.loadOlder
        rw [hroom]
      rw [hrests]
      exact .rests (.refl _)
  | some room =>
      by_cases hbusy : (c.loading.isSome || !c.hasOlder) = true
      · have hrests : c.loadOlder = (c, []) := by
          unfold Conversation.loadOlder
          rw [hroom]
          exact if_pos hbusy
        rw [hrests]
        exact .rests (.refl _)
      · have hbegins : c.loadOlder = c.beginLoad room .older := by
          unfold Conversation.loadOlder
          rw [hroom]
          exact if_neg hbusy
        obtain ⟨q, heffects, -, hnumber, hissues⟩ := Conversation.beginLoad_issues hroom .older
        rw [hbegins, heffects]
        refine .asked hnumber hissues ⟨rfl, rfl, rfl, rfl, rfl⟩ rfl fun _ => ⟨rfl, ?_⟩
        rw [hbegins, heffects]

theorem loadNewest_loads (c : Conversation) :
    Loads c .reloadHistory c.loadNewest.1 (c.loadNewest.2.filterMap ChatEffect.fetch?) := by
  unfold Conversation.loadNewest
  split
  · exact .rests (.refl _)
  · next room hroom =>
    split
    · exact .rests (.refl _)
    · obtain ⟨q, heffects, hkind, hnumber, hissues⟩ := Conversation.beginLoad_issues hroom .newest
      rw [heffects]
      refine .asked hnumber hissues ⟨rfl, rfl, rfl, rfl, rfl⟩ rfl fun older => ?_
      rw [hkind] at older
      cases older

theorem historyLoaded_loads (c : Conversation) (q : HistoryRequest)
    (result : Except RequestError Page) :
    Loads c (.historyLoaded q result) (c.historyLoaded q result).1
      ((c.historyLoaded q result).2.filterMap ChatEffect.fetch?) := by
  have hquiet := Conversation.historyLoaded_quiet (c := c) q result
  rw [Conversation.fetches_of_none fun effect he => ChatEffect.stay?_of_isQuiet (hquiet effect he)]
  by_cases awaits : c.Awaits q
  · exact .answered awaits
  · rw [Conversation.historyLoaded_of_not_awaits awaits]
    exact .rests (.refl _)

theorem accepts?_eq_some {now : Instant} {text : String} {room : Room}
    (h : c.accepts? now text = some room) :
    c.conversation.maySend text now = true ∧ c.conversation.room = some room := by
  unfold accepts? at h
  split at h
  · next hmay => exact ⟨hmay, h⟩
  · cases h

/-- A message is dropped, or becomes a pending entry and is carried out after all else. -/
theorem send_cases (h : c.Sound identity settings) {text : String}
    (ok : c.handle r (.send text) = .ok (c', actions)) :
    (c' = c ∧ actions = []) ∨ ∃ room wall ref quiet, c.accepts? r.now text = some room ∧
      c'.conversation = c.conversation.afterSend room text r.now wall ref ∧
      actions = quiet ++ [c.carrier room text ref] ∧ ∀ x ∈ quiet, x.Modest false := by
  rcases send_spec h ok with ⟨-, rfl, rfl⟩ | ⟨room, ref, haccepted, sends⟩
  · exact .inl ⟨rfl, rfl⟩
  · obtain ⟨quiet, rfl, hquiet⟩ := sends.actions
    obtain ⟨wall, hwall, hnumber⟩ := sends.number
    obtain ⟨hmay, hactive⟩ := accepts?_eq_some haccepted
    have hperforms := (h.handles ok).performs
    rw [show c.operations r (.send text) = [.send text r.now wall c.isRoomLive] by
      simp [operations, hwall]] at hperforms
    obtain ⟨effects, hstep⟩ := hperforms.of_one
    rcases Conversation.send_cases hstep with
      ⟨hdropped, -, -⟩ | ⟨room', ref', hroom, -, hnumber', hsent, -⟩
    · rw [hactive, hmay] at hdropped
      rcases hdropped with hdropped | hdropped <;> cases hdropped
    · obtain rfl := Option.some.inj (hactive.symm.trans hroom)
      obtain rfl := Except.ok.inj (hnumber.symm.trans hnumber')
      exact .inr ⟨room, wall, ref, quiet, haccepted, hsent, rfl, hquiet⟩

theorem send_loads {c c' : Conversation} {effects : List ChatEffect} {text : String}
    {now : Instant} {wall : Int64} {live : Bool}
    (h : c.send text now wall live = .ok (c', effects)) :
    Loads c (.send text) c' (effects.filterMap ChatEffect.fetch?) := by
  rcases Conversation.send_cases h with ⟨-, rfl, rfl⟩ | ⟨room, ref, -, -, -, rfl, rfl⟩
  · exact .rests (.refl _)
  · have hstop := Conversation.fetches_of_none (Conversation.frame_requests c.signal.stop.2)
    rw [List.filterMap_append, hstop]
    cases live <;> exact .wrote trivial ⟨⟨rfl, rfl, rfl, rfl, rfl⟩, rfl, rfl, rfl⟩

theorem posted_loads (c : Conversation) (q : PostRequest) (result : Except RequestError Message) :
    Loads c (.posted q result) (c.posted q result).1
      ((c.posted q result).2.filterMap ChatEffect.fetch?) := by
  have hquiet := Conversation.posted_quiet (c := c) q result
  rw [Conversation.fetches_of_none fun effect he => ChatEffect.stay?_of_isQuiet (hquiet effect he)]
  by_cases current : c.isCurrent q.room q.stay = true
  · obtain ⟨t, ht⟩ := Conversation.posted_frame (c := c) q result
    rw [ht]
    exact .wrote current ⟨⟨rfl, rfl, rfl, rfl, rfl⟩, rfl, rfl, rfl⟩
  · have hstale : c.posted q result = (c, []) := by
      unfold Conversation.posted
      exact if_pos (by simpa using current)
    rw [hstale]
    exact .rests (.refl _)

/-! ## Events -/

theorem Does.loads {op : Conversation.Operation} {conversation : Conversation}
    {effects : List ChatEffect} (does : Does c r e op)
    (perform : c.conversation.perform op = .ok (conversation, effects)) :
    Loads c.conversation e conversation (effects.filterMap ChatEffect.fetch?) := by
  cases does with
  | send clock text => exact send_loads perform
  | posted q result =>
      obtain ⟨rfl, rfl⟩ := Conversation.eq_of_ok perform
      exact posted_loads c.conversation q result
  | historyLoaded q result =>
      obtain ⟨rfl, rfl⟩ := Conversation.eq_of_ok perform
      exact historyLoaded_loads c.conversation q result
  | loadOlder =>
      obtain ⟨rfl, rfl⟩ := Conversation.eq_of_ok perform
      exact loadOlder_loads c.conversation
  | reloadHistory =>
      obtain ⟨rfl, rfl⟩ := Conversation.eq_of_ok perform
      exact loadNewest_loads c.conversation
  | received active decodes =>
      rw [fetches_of_perform _ perform rfl rfl]
      obtain ⟨rfl, -⟩ := Conversation.eq_of_ok perform
      exact .received active decodes
  | typing =>
      rw [fetches_of_perform _ perform rfl rfl]
      obtain ⟨rfl, -⟩ := Conversation.eq_of_ok perform
      exact .rests (Conversation.otherTyping_sameHistory _ _ _)
  | input text =>
      rw [fetches_of_perform _ perform rfl rfl]
      obtain ⟨rfl, -⟩ := Conversation.eq_of_ok perform
      exact .rests (Conversation.input_sameHistory text r.now)
  | stoppedTyping | tick =>
      rw [fetches_of_perform _ perform rfl rfl]
      obtain ⟨rfl, -⟩ := Conversation.eq_of_ok perform
      exact .rests ⟨⟨rfl, rfl, rfl, rfl, rfl⟩, rfl, rfl, rfl⟩

theorem Passes.loads {conversation : Conversation} {effects : List ChatEffect}
    (h : Passes c r e conversation effects) :
    Loads c.conversation e conversation (effects.filterMap ChatEffect.fetch?) := by
  have hstop : c.conversation.stopTyping.2.filterMap ChatEffect.fetch? = [] :=
    Conversation.fetches_of_none (Conversation.frame_requests _)
  cases h with
  | rests => exact .rests (.refl _)
  | leaves active leaves =>
      rw [List.filterMap_append, hstop]
      refine leave_loads active ?_
      cases e <;> first | rfl | cases leaves
  | enters => exact enter_loads c.conversation _
  | switches =>
      rw [List.filterMap_append, hstop]
      exact enter_loads c.conversation _
  | does does perform => exact does.loads perform

/-- What an event makes of what is loaded, with the loads among what it asks for. -/
theorem handle_loads (ok : c.handle r e = .ok (c', actions)) :
    Loads c.conversation e c'.conversation (fetches actions) := by
  obtain ⟨effects, passes, hin⟩ := handle_passes ok
  rw [fetches_of_effectsIn hin]
  exact passes.loads

end Client

end LiveChat
