import LiveChat.Chat.Conversation
import LiveChat.Proofs.Chat.Timeline

/-!
# What an operation does to a conversation

The operations on a conversation as data, so that runs can be spoken of. The lemmas below say once
what an operation does to the timeline, to the stay and to the load in flight; invariants of runs
are derived from them and do not open the operations again.
-/

namespace LiveChat

/-- Whether an effect asks for nothing that could be answered. -/
def ChatEffect.isQuiet : ChatEffect → Bool
  | .transmit _ | .fetch _ | .post _ => false
  | _ => true

/-- The room and the stay that a request belongs to. -/
def ChatEffect.stay? : ChatEffect → Option (Room × Nat)
  | .fetch r => some (r.room, r.stay)
  | .post r => some (r.room, r.stay)
  | _ => none

def ChatEffect.fetch? : ChatEffect → Option HistoryRequest
  | .fetch r => some r
  | _ => none

theorem ChatEffect.stay?_of_isQuiet {e : ChatEffect} (h : e.isQuiet = true) : e.stay? = none := by
  cases e <;> first | rfl | cases h

theorem ChatEffect.fetch?_of_stay? {e : ChatEffect} (h : e.stay? = none) : e.fetch? = none := by
  cases e <;> first | rfl | cases h

namespace Conversation

inductive Operation where
  | enter (room : Room)
  | leave
  | loadNewest
  | loadOlder
  | historyLoaded (r : HistoryRequest) (result : Except RequestError Page)
  | send (text : String) (now : Instant) (wall : Int64) (live : Bool)
  | posted (r : PostRequest) (result : Except RequestError Message)
  | received (m : Message)
  | otherTyping (user : UserId) (nickname : String) (now : Instant)
  | otherStopped (user : UserId)
  | input (text : String) (now : Instant)
  | stopTyping
  | tick (now : Instant)

/-- Whether an operation ends a stay. -/
def Operation.switches : Operation → Bool
  | .enter _ | .leave => true
  | _ => false

def Operation.isSend : Operation → Bool
  | .send .. => true
  | _ => false

/-- Whether an operation is of no concern to the timeline. -/
def Operation.isAside : Operation → Bool
  | .loadNewest | .loadOlder | .otherTyping .. | .otherStopped _ | .input .. | .stopTyping
  | .tick _ => true
  | _ => false

abbrev Outcome := Except Fault (Conversation × List ChatEffect)

def perform (c : Conversation) : Operation → Outcome
  | .enter room => .ok (c.enter room)
  | .leave => .ok c.leave
  | .loadNewest => .ok c.loadNewest
  | .loadOlder => .ok c.loadOlder
  | .historyLoaded r result => .ok (c.historyLoaded r result)
  | .send text now wall live => c.send text now wall live
  | .posted r result => .ok (c.posted r result)
  | .received m => .ok (c.received m)
  | .otherTyping user nickname now => .ok (c.otherTyping user nickname now)
  | .otherStopped user => .ok (c.otherStopped user)
  | .input text now => .ok (c.input text now)
  | .stopTyping => .ok c.stopTyping
  | .tick now => .ok (c.tick now)

variable {c c' : Conversation} {effects : List ChatEffect} {op : Operation}

theorem eq_of_ok {x : Conversation × List ChatEffect} (h : (.ok x : Outcome) = .ok (c', effects)) :
    c' = x.1 ∧ effects = x.2 := by
  cases h
  exact ⟨rfl, rfl⟩

/-! ## Sending -/

theorem nextRef_spec {last ref : Ref} {wall : Int64} (h : nextRef last wall = .ok ref) :
    ref.toNat = max wall.toInt.toNat (last.toNat + 1) := by
  unfold nextRef Text.word? at h
  split at h
  · next r hr =>
    cases h
    split at hr
    · next hlt =>
      cases hr
      exact UInt64.toNat_ofNat_of_lt' hlt
    · cases hr
  · cases h

theorem nextRef_gt {last ref : Ref} {wall : Int64} (h : nextRef last wall = .ok ref) :
    last.toNat < ref.toNat := by
  rw [nextRef_spec h]
  omega

/-- Sending is the one operation that can fail, and does so only when the numbers run out. -/
theorem nextRef_isOk {last : Ref} (h : last.toNat + 1 < UInt64.size) (wall : Int64) :
    ∃ ref, nextRef last wall = .ok ref := by
  have hw := wall.toInt_lt
  have hs : UInt64.size = 18446744073709551616 := rfl
  refine ⟨.ofNat (max wall.toInt.toNat (last.toNat + 1)), ?_⟩
  rw [nextRef, Text.word?, if_pos (by omega)]

theorem nextRef_error {last : Ref} {wall : Int64} {f : Fault} (h : nextRef last wall = .error f) :
    f = .overflow := by
  unfold nextRef at h
  split at h
  · cases h
  · cases h; rfl

/-- The effect that carries an accepted message out. -/
def transmission (c : Conversation) (room : Room) (text : String) (ref : Ref) (live : Bool) :
    ChatEffect :=
  if live then .transmit (.post text (some ref)) else .post ⟨room, c.stay, text, ref⟩

/-- What an accepted message leaves of the conversation. -/
def afterSend (c : Conversation) (room : Room) (text : String) (now : Instant) (wall : Int64)
    (ref : Ref) : Conversation :=
  { c with
    lastSend := some now
    lastRef := ref
    signal := .silent
    timeline := c.timeline ++ [c.pendingEntry room text wall ref] }

/-- A message is dropped, or appended under the next number and carried out. -/
theorem send_cases {text : String} {now : Instant} {wall : Int64} {live : Bool}
    (h : c.send text now wall live = .ok (c', effects)) :
    ((c.room = none ∨ c.maySend text now = false) ∧ c' = c ∧ effects = []) ∨
    ∃ room ref, c.room = some room ∧ c.maySend text now = true ∧
      nextRef c.lastRef wall = .ok ref ∧ c' = c.afterSend room text now wall ref ∧
      effects = (c.signal.stop.2.map ChatEffect.transmit).toList ++
        [.timelineChanged, .scrollToNewest, c.transmission room text ref live] := by
  unfold send at h
  split at h
  · next hroom =>
    cases h
    exact .inl ⟨.inl hroom, rfl, rfl⟩
  · next room hroom =>
    cases hmay : c.maySend text now with
    | false =>
        simp only [hmay] at h
        cases h
        exact .inl ⟨.inr rfl, rfl, rfl⟩
    | true =>
        simp only [hmay] at h
        cases href : nextRef c.lastRef wall with
        | error f =>
            rw [href] at h
            cases h
        | ok ref =>
            rw [href] at h
            cases h
            exact .inr ⟨room, ref, hroom, rfl, rfl, rfl, rfl⟩

theorem send_error {text : String} {now : Instant} {wall : Int64} {live : Bool} {f : Fault}
    (h : c.send text now wall live = .error f) :
    f = .overflow ∧ UInt64.size ≤ c.lastRef.toNat + 1 := by
  unfold send at h
  split at h
  · cases h
  · split at h
    · cases h
    · cases href : nextRef c.lastRef wall with
      | ok ref =>
          rw [href] at h
          cases h
      | error g =>
          rw [href] at h
          cases h
          refine ⟨nextRef_error href, Nat.le_of_not_lt fun hlt => ?_⟩
          obtain ⟨ref, hok⟩ := nextRef_isOk hlt wall
          rw [href] at hok
          cases hok

/-! ## Edits of the timeline -/

/-- Taking back the pending entry that was sent with a number. -/
theorem retract_edit (ref : Ref) :
    Timeline.Edit c.timeline (c.retract (c.timeline.placeOfRef? ref)).1.timeline := by
  cases h : c.timeline.placeOfRef? ref with
  | none => exact .keep _
  | some i =>
      obtain ⟨p, hp, href⟩ := Timeline.placeOfRef?_spec h
      have hpending : p.isPending = true := (Timeline.isPending_iff p).2 ⟨ref, href⟩
      simp only [retract, List.eraseIdx_eq_take_drop_succ]
      conv => arg 1; rw [Timeline.split_at hp]
      exact .retract hpending

/-- Putting a confirmed entry in the place of a pending one. -/
theorem edit_set {t : Timeline} {i : Nat} {p e : Entry} (hp : t[i]? = some p)
    (pending : p.isPending = true) (confirmed : e.isPending = false)
    (new : t.holdsConfirmed e.id = false) : Timeline.Edit t (t.set i e) := by
  have hnew : e.id ∉ t.confirmedIds := fun h => by
    simp [Timeline.holdsConfirmed_iff.2 h] at new
  rw [Timeline.set_at hp]
  rw [Timeline.split_at hp] at hnew
  conv => arg 1; rw [Timeline.split_at hp]
  exact .settle pending confirmed hnew

/-- What a message of the local user settles is a pending entry. -/
theorem settle_place {m : Message} {i : Nat} (h : (if m.ref.isSome then
      m.ref.bind c.timeline.placeOfRef? else c.timeline.placeOfBody? c.identity.user m.body) =
      some i) : ∃ p, c.timeline[i]? = some p ∧ p.isPending = true := by
  split at h
  · next href =>
    obtain ⟨ref, href⟩ := Option.isSome_iff_exists.1 href
    rw [href] at h
    obtain ⟨p, hp, hpref⟩ := Timeline.placeOfRef?_spec h
    exact ⟨p, hp, (Timeline.isPending_iff p).2 ⟨ref, hpref⟩⟩
  · obtain ⟨p, hp, pending, -⟩ := Timeline.placeOfBody?_spec h
    exact ⟨p, hp, pending⟩

theorem settle_edit (m : Message) : Timeline.Edit c.timeline (c.settle m).1.timeline := by
  unfold settle
  split
  · exact .keep _
  · next room _ =>
    cases hheld : c.timeline.holdsConfirmed m.id with
    | true =>
        simp only [if_true]
        cases m.ref with
        | none => exact .keep _
        | some ref => exact retract_edit ref
    | false =>
        have hnew : m.id ∉ c.timeline.confirmedIds := fun h => by
          simp [Timeline.holdsConfirmed_iff.2 h] at hheld
        simp only [Bool.false_eq_true, if_false]
        split
        · next i hi =>
          obtain ⟨p, hp, hpending⟩ := settle_place hi
          exact edit_set hp hpending rfl hheld
        · exact .append rfl hnew

theorem posted_edit (r : PostRequest) (result : Except RequestError Message) :
    Timeline.Edit c.timeline (c.posted r result).1.timeline := by
  unfold posted
  split
  · exact .keep _
  · split
    · exact settle_edit _
    · exact retract_edit _

theorem received_edit (m : Message) : Timeline.Edit c.timeline (c.received m).1.timeline := by
  unfold received
  split
  · exact .keep _
  · split
    · exact settle_edit m
    · split
      · exact .keep _
      · next hheld =>
        refine .append rfl fun h => hheld ?_
        exact Timeline.holds_iff.2 (Timeline.mem_ids_of_mem_confirmedIds h)

/-- What is received from the local user settles what is pending. -/
theorem received_of_own {room : Room} {m : Message} (active : c.room = some room)
    (own : m.sender = some c.identity.user) : c.received m = c.settle m := by
  unfold received
  rw [active]
  dsimp only
  rw [if_pos own]

/-- What is received from others is appended, unless its number is there. -/
theorem received_of_other {room : Room} {m : Message} (active : c.room = some room)
    (other : m.sender ≠ some c.identity.user) :
    (c.received m).1.timeline = if m.id ∈ c.timeline.ids then c.timeline
      else c.timeline ++ [Entry.ofMessage room.number m] := by
  unfold received
  rw [active]
  dsimp only
  rw [if_neg other]
  by_cases h : m.id ∈ c.timeline.ids
  · rw [if_pos (Timeline.holds_iff.2 h), if_pos h]
  · rw [if_neg (mt Timeline.holds_iff.1 h), if_neg h]

theorem missing_edit (t : Timeline) (room : UInt64) (page : List Message) :
    Timeline.Edit t (t.missing room page ++ t) := by
  refine .prepend (Timeline.pending_ofMessages _ _) ?_ ?_
  · rw [Timeline.missing, Timeline.ids_ofMessages]
    exact Timeline.nodup_fresh _ _
  · exact fun id hid => (Timeline.mem_ids_missing_iff.1 hid).2

/-! ## Answers to loads -/

/-- The request of the load that is in flight in this stay. -/
structure Awaits (c : Conversation) (r : HistoryRequest) : Prop where
  room : c.room = some r.room
  stay : c.stay = r.stay
  load : r.load = c.load
  loading : c.loading = some r.kind

theorem isCurrent_iff {room : Room} {stay : Nat} :
    c.isCurrent room stay = true ↔ c.room = some room ∧ c.stay = stay := by
  simp [isCurrent]

theorem historyLoaded_of_not_awaits {r : HistoryRequest} (h : ¬ c.Awaits r)
    (result : Except RequestError Page) : c.historyLoaded r result = (c, []) := by
  unfold historyLoaded
  split
  · rfl
  · next hcurrent =>
    split
    · rfl
    · next hlatest =>
      obtain ⟨hroom, hstay⟩ := isCurrent_iff.1 (by simpa using hcurrent)
      obtain ⟨hload, hloading⟩ := not_or.1 hlatest
      exact absurd ⟨hroom, hstay, by simpa using hload, by simpa using hloading⟩ h

theorem historyLoaded_of_awaits {r : HistoryRequest} (h : c.Awaits r)
    (result : Except RequestError Page) :
    c.historyLoaded r result =
      match result with
      | .error _ => ({ c with loading := none }, [])
      | .ok page => { c with loading := none }.applyPage r page := by
  have hcurrent := isCurrent_iff.2 ⟨h.room, h.stay⟩
  refine (if_neg (by simp [hcurrent])).trans ((if_neg (by simp [h.load, h.loading])).trans ?_)
  cases result <;> rfl

theorem applyPage_newest {r : HistoryRequest} (h : r.kind = .newest) (page : Page) :
    (c.applyPage r page).1.timeline = c.timeline.reload r.room.number page.messages := by
  simp [applyPage, h]

theorem applyPage_older {r : HistoryRequest} (h : r.kind = .older) (page : Page) :
    (c.applyPage r page).1.timeline =
      c.timeline.missing r.room.number page.messages ++ c.timeline := by
  simp [applyPage, h]

/-! ## The timeline under an operation -/

/-- What an operation does to the timeline and to the last number given to a message. -/
inductive TimelineStep (c c' : Conversation) : Operation → Prop
  | edited {op : Operation} (lastRef : c'.lastRef = c.lastRef)
      (edit : Timeline.Edit c.timeline c'.timeline) : TimelineStep c c' op
  | cleared {op : Operation} (switches : op.switches = true) (lastRef : c'.lastRef = c.lastRef)
      (timeline : c'.timeline = []) : TimelineStep c c' op
  | reloaded {r : HistoryRequest} {page : Page} (awaited : c.Awaits r) (newest : r.kind = .newest)
      (lastRef : c'.lastRef = c.lastRef)
      (timeline : c'.timeline = c.timeline.reload r.room.number page.messages) :
      TimelineStep c c' (.historyLoaded r (.ok page))
  | sent {text : String} {now : Instant} {wall : Int64} {live : Bool} {room : Room} {ref : Ref}
      (number : nextRef c.lastRef wall = .ok ref) (lastRef : c'.lastRef = ref)
      (timeline : c'.timeline = c.timeline ++ [c.pendingEntry room text wall ref]) :
      TimelineStep c c' (.send text now wall live)

/-- Messages that come in, and answers to posts, concern the timeline alone. -/
theorem retract_frame (place : Option Nat) :
    ∃ t, (c.retract place).1 = { c with timeline := t } := by
  cases place with
  | none => exact ⟨c.timeline, rfl⟩
  | some i => exact ⟨c.timeline.eraseIdx i, rfl⟩

theorem settle_frame (m : Message) : ∃ t, (c.settle m).1 = { c with timeline := t } := by
  unfold settle
  split
  · exact ⟨c.timeline, rfl⟩
  · dsimp only
    split
    · exact retract_frame _
    · generalize (if m.ref.isSome = true then _ else _ : Option Nat) = place
      cases place with
      | none => exact ⟨_, rfl⟩
      | some i => exact ⟨_, rfl⟩

theorem posted_frame (r : PostRequest) (result : Except RequestError Message) :
    ∃ t, (c.posted r result).1 = { c with timeline := t } := by
  unfold posted
  split
  · exact ⟨c.timeline, rfl⟩
  · cases result with
    | ok m => exact settle_frame _
    | error e => exact retract_frame _

theorem received_frame (m : Message) : ∃ t, (c.received m).1 = { c with timeline := t } := by
  unfold received
  split
  · exact ⟨c.timeline, rfl⟩
  · split
    · exact settle_frame m
    · split
      · exact ⟨c.timeline, rfl⟩
      · exact ⟨_, rfl⟩

/-- Loading and typing leave the timeline and the stay as they are. -/
theorem perform_frame (h : c.perform op = .ok (c', effects)) (aside : op.isAside = true) :
    ∃ load loading typists signal, c' = { c with load, loading, typists, signal } := by
  cases op with
  | loadNewest =>
      obtain ⟨rfl, -⟩ := eq_of_ok h
      unfold loadNewest
      split
      · exact ⟨_, _, _, _, rfl⟩
      · split <;> exact ⟨_, _, _, _, rfl⟩
  | loadOlder =>
      obtain ⟨rfl, -⟩ := eq_of_ok h
      unfold loadOlder
      split
      · exact ⟨_, _, _, _, rfl⟩
      · split <;> exact ⟨_, _, _, _, rfl⟩
  | otherTyping user nickname now =>
      obtain ⟨rfl, -⟩ := eq_of_ok h
      unfold otherTyping
      split <;> exact ⟨_, _, _, _, rfl⟩
  | input text now =>
      obtain ⟨rfl, -⟩ := eq_of_ok h
      unfold input
      split <;> exact ⟨_, _, _, _, rfl⟩
  | otherStopped | stopTyping | tick =>
      obtain ⟨rfl, -⟩ := eq_of_ok h
      exact ⟨_, _, _, _, rfl⟩
  | _ => cases aside

theorem perform_settings (h : c.perform op = .ok (c', effects)) : c'.settings = c.settings := by
  cases op with
  | send text now wall live =>
      rcases send_cases h with ⟨-, rfl, -⟩ | ⟨room, ref, -, -, -, rfl, -⟩ <;> rfl
  | historyLoaded r result =>
      obtain ⟨rfl, -⟩ := eq_of_ok h
      by_cases awaits : c.Awaits r
      · rw [historyLoaded_of_awaits awaits]
        cases result <;> rfl
      · rw [historyLoaded_of_not_awaits awaits]
  | posted r result =>
      obtain ⟨rfl, -⟩ := eq_of_ok h
      obtain ⟨t, ht⟩ := posted_frame (c := c) r result
      rw [ht]
  | received m =>
      obtain ⟨rfl, -⟩ := eq_of_ok h
      obtain ⟨t, ht⟩ := received_frame (c := c) m
      rw [ht]
  | enter =>
      obtain ⟨rfl, -⟩ := eq_of_ok h
      rfl
  | leave =>
      obtain ⟨rfl, -⟩ := eq_of_ok h
      unfold leave
      split <;> rfl
  | _ =>
      obtain ⟨load, loading, typists, signal, rfl⟩ := perform_frame h rfl
      rfl

theorem historyLoaded_timelineStep (r : HistoryRequest) (result : Except RequestError Page) :
    TimelineStep c (c.historyLoaded r result).1 (.historyLoaded r result) := by
  by_cases h : c.Awaits r
  · rw [historyLoaded_of_awaits h]
    cases result with
    | error e => exact .edited rfl (.keep _)
    | ok page =>
        cases hkind : r.kind with
        | newest => exact .reloaded h hkind rfl (applyPage_newest hkind page)
        | older =>
            refine .edited rfl ?_
            simp only [applyPage_older hkind]
            exact missing_edit _ _ _
  · rw [historyLoaded_of_not_awaits h]
    exact .edited rfl (.keep _)

theorem perform_timelineStep (h : c.perform op = .ok (c', effects)) : TimelineStep c c' op := by
  cases op with
  | send text now wall live =>
      rcases send_cases h with ⟨-, rfl, -⟩ | ⟨room, ref, -, -, href, rfl, -⟩
      · exact .edited rfl (.keep _)
      · exact .sent href rfl rfl
  | enter room =>
      obtain ⟨rfl, -⟩ := eq_of_ok h
      exact .cleared rfl rfl rfl
  | leave =>
      obtain ⟨rfl, -⟩ := eq_of_ok h
      unfold leave
      split
      · exact .edited rfl (.keep _)
      · exact .cleared rfl rfl rfl
  | historyLoaded r result =>
      obtain ⟨rfl, -⟩ := eq_of_ok h
      exact historyLoaded_timelineStep r result
  | posted r result =>
      obtain ⟨rfl, -⟩ := eq_of_ok h
      obtain ⟨t, ht⟩ := posted_frame (c := c) r result
      exact .edited (by rw [ht]) (posted_edit r result)
  | received m =>
      obtain ⟨rfl, -⟩ := eq_of_ok h
      obtain ⟨t, ht⟩ := received_frame (c := c) m
      exact .edited (by rw [ht]) (received_edit m)
  | _ =>
      obtain ⟨load, loading, typists, signal, rfl⟩ := perform_frame h rfl
      exact .edited rfl (.keep _)

/-! ## Effects that ask for nothing -/

theorem retract_quiet (place : Option Nat) : ∀ e ∈ (c.retract place).2, e.isQuiet = true := by
  cases place <;> simp [retract, ChatEffect.isQuiet]

theorem settle_quiet (m : Message) : ∀ e ∈ (c.settle m).2, e.isQuiet = true := by
  unfold settle
  split
  · simp
  · dsimp only
    split
    · exact retract_quiet _
    · generalize (if m.ref.isSome = true then _ else _ : Option Nat) = place
      cases place <;> simp [ChatEffect.isQuiet]

theorem posted_quiet (r : PostRequest) (result : Except RequestError Message) :
    ∀ e ∈ (c.posted r result).2, e.isQuiet = true := by
  unfold posted
  split
  · simp
  · cases result with
    | ok m => exact settle_quiet _
    | error e => exact retract_quiet _

theorem received_quiet (m : Message) : ∀ e ∈ (c.received m).2, e.isQuiet = true := by
  unfold received
  split
  · simp
  · split
    · exact settle_quiet m
    · split <;> simp [ChatEffect.isQuiet]

theorem applyPage_quiet (r : HistoryRequest) (page : Page) :
    ∀ e ∈ (c.applyPage r page).2, e.isQuiet = true := by
  unfold applyPage
  cases r.kind with
  | newest => simp [ChatEffect.isQuiet]
  | older => dsimp only; split <;> simp [ChatEffect.isQuiet]

theorem historyLoaded_quiet (r : HistoryRequest) (result : Except RequestError Page) :
    ∀ e ∈ (c.historyLoaded r result).2, e.isQuiet = true := by
  by_cases h : c.Awaits r
  · rw [historyLoaded_of_awaits h]
    cases result with
    | ok page => exact applyPage_quiet r page
    | error e => simp
  · simp [historyLoaded_of_not_awaits h]

theorem typistsEffect_quiet (changed : Bool) : ∀ e ∈ typistsEffect changed, e.isQuiet = true := by
  cases changed <;> simp [typistsEffect, ChatEffect.isQuiet]

theorem otherTyping_quiet (user : UserId) (nickname : String) (now : Instant) :
    ∀ e ∈ (c.otherTyping user nickname now).2, e.isQuiet = true := by
  unfold otherTyping
  split
  · simp
  · exact typistsEffect_quiet _

theorem otherStopped_quiet (user : UserId) :
    ∀ e ∈ (c.otherStopped user).2, e.isQuiet = true := typistsEffect_quiet _

/-! ## The stay and the load under an operation -/

/-- Whether all requests among the effects are of the stay that the conversation is in. -/
def RequestsOf (c : Conversation) (effects : List ChatEffect) : Prop :=
  ∀ e ∈ effects, ∀ room stay, e.stay? = some (room, stay) → c.room = some room ∧ c.stay = stay

theorem requestsOf_of_none (h : ∀ e ∈ effects, e.stay? = none) : c.RequestsOf effects := by
  intro e he room stay hs
  rw [h e he] at hs
  cases hs

theorem requestsOf_of_quiet (h : ∀ e ∈ effects, e.isQuiet = true) : c.RequestsOf effects :=
  requestsOf_of_none fun e he => ChatEffect.stay?_of_isQuiet (h e he)

/-- What an operation does to the stay: it goes on, or the next one has begun. -/
inductive StayStep (c c' : Conversation) : Operation → List ChatEffect → Prop
  | on {op : Operation} {effects : List ChatEffect} (switches : op.switches = false)
      (room : c'.room = c.room) (stay : c'.stay = c.stay) (requests : c'.RequestsOf effects) :
      StayStep c c' op effects
  | away {op : Operation} (switches : op.switches = true) (room : c.room = none) (same : c' = c) :
      StayStep c c' op []
  | next {op : Operation} {effects : List ChatEffect} (switches : op.switches = true)
      (stay : c'.stay = c.stay + 1) (requests : c'.RequestsOf effects) : StayStep c c' op effects

/-- What an operation does to the load in flight, and the loads that it issues. -/
inductive LoadStep (c c' : Conversation) : Operation → List HistoryRequest → Prop
  | kept {op : Operation} (unawaited : ∀ r result, op = .historyLoaded r result → ¬ c.Awaits r)
      (load : c'.load = c.load) (loading : c'.loading = c.loading) : LoadStep c c' op []
  | ended {op : Operation} (switches : op.switches = true) (load : c'.load = c.load)
      (loading : c'.loading = none) : LoadStep c c' op []
  | answered {r : HistoryRequest} {result : Except RequestError Page} (awaited : c.Awaits r)
      (load : c'.load = c.load) (loading : c'.loading = none) :
      LoadStep c c' (.historyLoaded r result) []
  | issued {op : Operation} {r : HistoryRequest} (number : r.load = c.load + 1)
      (load : c'.load = r.load) (loading : c'.loading = some r.kind) : LoadStep c c' op [r]

theorem fetches_of_none (h : ∀ e ∈ effects, e.stay? = none) :
    effects.filterMap ChatEffect.fetch? = [] :=
  List.filterMap_eq_nil_iff.2 fun e he => ChatEffect.fetch?_of_stay? (h e he)

theorem beginLoad_requests {room : Room} (h : c.room = some room) (kind : LoadKind) :
    (c.beginLoad room kind).1.RequestsOf (c.beginLoad room kind).2 := by
  intro e he room' stay hs
  obtain rfl := List.mem_singleton.1 he
  cases hs
  exact ⟨h, rfl⟩

theorem beginLoad_loadStep (room : Room) (kind : LoadKind) :
    LoadStep c (c.beginLoad room kind).1 op
      ((c.beginLoad room kind).2.filterMap ChatEffect.fetch?) := .issued rfl rfl rfl

/-- An operation within a stay that asks for nothing leaves both as they are. -/
theorem steps_of_same (switches : op.switches = false)
    (unawaited : ∀ r result, op ≠ .historyLoaded r result) (room : c'.room = c.room)
    (stay : c'.stay = c.stay) (load : c'.load = c.load) (loading : c'.loading = c.loading)
    (requests : ∀ e ∈ effects, e.stay? = none) :
    StayStep c c' op effects ∧ LoadStep c c' op (effects.filterMap ChatEffect.fetch?) := by
  refine ⟨.on switches room stay (requestsOf_of_none requests), ?_⟩
  rw [fetches_of_none requests]
  exact .kept (fun r result h => absurd h (unawaited r result)) load loading

theorem historyLoaded_steps (r : HistoryRequest) (result : Except RequestError Page) :
    StayStep c (c.historyLoaded r result).1 (.historyLoaded r result) (c.historyLoaded r result).2 ∧
      LoadStep c (c.historyLoaded r result).1 (.historyLoaded r result)
        ((c.historyLoaded r result).2.filterMap ChatEffect.fetch?) := by
  have hquiet := historyLoaded_quiet (c := c) r result
  rw [fetches_of_none fun e he => ChatEffect.stay?_of_isQuiet (hquiet e he)]
  by_cases h : c.Awaits r
  · rw [historyLoaded_of_awaits h] at hquiet ⊢
    cases result with
    | error e => exact ⟨.on rfl rfl rfl (requestsOf_of_quiet hquiet), .answered h rfl rfl⟩
    | ok page => exact ⟨.on rfl rfl rfl (requestsOf_of_quiet hquiet), .answered h rfl rfl⟩
  · rw [historyLoaded_of_not_awaits h] at hquiet ⊢
    refine ⟨.on rfl rfl rfl (requestsOf_of_quiet hquiet), .kept ?_ rfl rfl⟩
    rintro r' result' heq
    cases heq
    exact h

theorem enter_requests (room : Room) : (c.enter room).1.RequestsOf (c.enter room).2 := by
  intro e he
  rcases List.mem_cons.1 he with rfl | he
  · rintro room' stay hs
    cases hs
  · exact beginLoad_requests rfl .newest e he

theorem frame_requests (f : Option ClientFrame) :
    ∀ e ∈ (f.map ChatEffect.transmit).toList, e.stay? = none := by
  cases f <;> simp [ChatEffect.stay?]

theorem afterSend_steps {room : Room} (hroom : c.room = some room) (text : String) (now : Instant)
    (wall : Int64) (ref : Ref) (live : Bool) :
    let effects := (c.signal.stop.2.map ChatEffect.transmit).toList ++
      [.timelineChanged, .scrollToNewest, c.transmission room text ref live]
    StayStep c (c.afterSend room text now wall ref) (.send text now wall live) effects ∧
      LoadStep c (c.afterSend room text now wall ref) (.send text now wall live)
        (effects.filterMap ChatEffect.fetch?) := by
  have hframe := frame_requests c.signal.stop.2
  refine ⟨.on rfl rfl rfl fun e he room' stay hs => ?_, ?_⟩
  · rcases List.mem_append.1 he with he | he
    · rw [hframe e he] at hs
      cases hs
    · simp only [List.mem_cons, List.not_mem_nil, or_false] at he
      rcases he with rfl | rfl | rfl
      · cases hs
      · cases hs
      · cases live <;> cases hs
        exact ⟨hroom, rfl⟩
  · rw [List.filterMap_append, fetches_of_none hframe]
    cases live <;> exact .kept nofun rfl rfl

theorem perform_steps (h : c.perform op = .ok (c', effects)) :
    StayStep c c' op effects ∧ LoadStep c c' op (effects.filterMap ChatEffect.fetch?) := by
  cases op with
  | enter room =>
      obtain ⟨rfl, rfl⟩ := eq_of_ok h
      exact ⟨.next rfl rfl (enter_requests room), .issued rfl rfl rfl⟩
  | leave =>
      obtain ⟨rfl, rfl⟩ := eq_of_ok h
      unfold leave
      split
      · next hroom => exact ⟨.away rfl hroom rfl, .kept nofun rfl rfl⟩
      · refine ⟨.next rfl rfl (requestsOf_of_none ?_), .ended rfl rfl rfl⟩
        simp [ChatEffect.stay?]
  | loadNewest =>
      obtain ⟨rfl, rfl⟩ := eq_of_ok h
      unfold loadNewest
      split
      · exact steps_of_same rfl nofun rfl rfl rfl rfl (by simp)
      · next room hroom =>
        split
        · exact steps_of_same rfl nofun rfl rfl rfl rfl (by simp)
        · exact ⟨.on rfl rfl rfl (beginLoad_requests hroom _), beginLoad_loadStep _ _⟩
  | loadOlder =>
      obtain ⟨rfl, rfl⟩ := eq_of_ok h
      unfold loadOlder
      split
      · exact steps_of_same rfl nofun rfl rfl rfl rfl (by simp)
      · next room hroom =>
        split
        · exact steps_of_same rfl nofun rfl rfl rfl rfl (by simp)
        · exact ⟨.on rfl rfl rfl (beginLoad_requests hroom _), beginLoad_loadStep _ _⟩
  | historyLoaded r result =>
      obtain ⟨rfl, rfl⟩ := eq_of_ok h
      exact historyLoaded_steps r result
  | send text now wall live =>
      rcases send_cases h with ⟨-, rfl, rfl⟩ | ⟨room, ref, hroom, -, -, rfl, rfl⟩
      · exact steps_of_same rfl nofun rfl rfl rfl rfl (by simp)
      · exact afterSend_steps hroom text now wall ref live
  | posted r result =>
      obtain ⟨rfl, rfl⟩ := eq_of_ok h
      obtain ⟨t, ht⟩ := posted_frame (c := c) r result
      refine steps_of_same rfl nofun ?_ ?_ ?_ ?_ fun e he =>
        ChatEffect.stay?_of_isQuiet (posted_quiet r result e he)
      all_goals rw [ht]
  | received m =>
      obtain ⟨rfl, rfl⟩ := eq_of_ok h
      obtain ⟨t, ht⟩ := received_frame (c := c) m
      refine steps_of_same rfl nofun ?_ ?_ ?_ ?_ fun e he =>
        ChatEffect.stay?_of_isQuiet (received_quiet m e he)
      all_goals rw [ht]
  | otherTyping user nickname now =>
      obtain ⟨rfl, rfl⟩ := eq_of_ok h
      unfold otherTyping
      split
      · exact steps_of_same rfl nofun rfl rfl rfl rfl (by simp)
      · exact steps_of_same rfl nofun rfl rfl rfl rfl fun e he =>
          ChatEffect.stay?_of_isQuiet (typistsEffect_quiet _ e he)
  | otherStopped user =>
      obtain ⟨rfl, rfl⟩ := eq_of_ok h
      exact steps_of_same rfl nofun rfl rfl rfl rfl fun e he =>
        ChatEffect.stay?_of_isQuiet (typistsEffect_quiet _ e he)
  | input text now =>
      obtain ⟨rfl, rfl⟩ := eq_of_ok h
      unfold input
      split
      · exact steps_of_same rfl nofun rfl rfl rfl rfl (by simp)
      · exact steps_of_same rfl nofun rfl rfl rfl rfl (frame_requests _)
  | stopTyping =>
      obtain ⟨rfl, rfl⟩ := eq_of_ok h
      exact steps_of_same rfl nofun rfl rfl rfl rfl (frame_requests _)
  | tick now =>
      obtain ⟨rfl, rfl⟩ := eq_of_ok h
      refine steps_of_same rfl nofun rfl rfl rfl rfl fun e he => ?_
      rcases List.mem_append.1 he with he | he
      · exact frame_requests _ e he
      · exact ChatEffect.stay?_of_isQuiet (typistsEffect_quiet _ e he)

/-- An operation that does not switch leaves room and stay as they are. -/
theorem perform_stays (h : c.perform op = .ok (c', effects)) (stays : op.switches = false) :
    c'.room = c.room ∧ c'.stay = c.stay ∧ c'.RequestsOf effects := by
  cases (perform_steps h).1 with
  | on _ room stay requests => exact ⟨room, stay, requests⟩
  | away switches | next switches =>
      rw [stays] at switches
      cases switches

/-! ## One operation after another -/

/-- The operations lead from the first conversation to the last. -/
inductive Performs : Conversation → List Operation → Conversation → Prop
  | nil (c : Conversation) : Performs c [] c
  | cons {c c' c'' : Conversation} (op : Operation) {ops : List Operation}
      {effects : List ChatEffect} (head : c.perform op = .ok (c', effects))
      (tail : Performs c' ops c'') : Performs c (op :: ops) c''

theorem Performs.one (op : Operation) (h : c.perform op = .ok (c', effects)) :
    c.Performs [op] c' := .cons op h (.nil c')

theorem Performs.of_one (h : c.Performs [op] c') :
    ∃ effects, c.perform op = .ok (c', effects) := by
  cases h with
  | cons _ head tail =>
      cases tail
      exact ⟨_, head⟩

/-- Where operations lead is fixed by where they start. -/
theorem Performs.unique {ops : List Operation} {c'' : Conversation} (h : c.Performs ops c')
    (h' : c.Performs ops c'') : c' = c'' := by
  induction h with
  | nil =>
      cases h'
      rfl
  | cons op head tail ih =>
      cases h' with
      | cons _ head' tail' =>
          rw [head] at head'
          cases head'
          exact ih tail'

/-- The operations lead from the first conversation to the last and have these effects. -/
inductive Enacts : Conversation → List Operation → List ChatEffect → Conversation → Prop
  | nil (c : Conversation) : Enacts c [] [] c
  | cons {c c' c'' : Conversation} (op : Operation) {ops : List Operation}
      {effects rest : List ChatEffect} (head : c.perform op = .ok (c', effects))
      (tail : Enacts c' ops rest c'') : Enacts c (op :: ops) (effects ++ rest) c''

namespace Enacts

variable {c'' : Conversation} {ops ops' : List Operation} {effects' : List ChatEffect}

theorem one (op : Operation) (h : c.perform op = .ok (c', effects)) :
    c.Enacts [op] effects c' := by
  have step := cons op h (nil c')
  rwa [List.append_nil] at step

theorem append (h : c.Enacts ops effects c') (h' : c'.Enacts ops' effects' c'') :
    c.Enacts (ops ++ ops') (effects ++ effects') c'' := by
  induction h with
  | nil => exact h'
  | cons op head tail ih =>
      rw [List.append_assoc]
      exact .cons op head (ih h')

theorem of_nil (h : c.Enacts [] effects c') : c' = c ∧ effects = [] := by
  cases h
  exact ⟨rfl, rfl⟩

theorem of_cons (h : c.Enacts (op :: ops) effects c') :
    ∃ between first rest, c.perform op = .ok (between, first) ∧
      between.Enacts ops rest c' ∧ effects = first ++ rest := by
  cases h with
  | cons _ head tail => exact ⟨_, _, _, head, tail, rfl⟩

theorem of_one (h : c.Enacts [op] effects c') : c.perform op = .ok (c', effects) := by
  cases h with
  | cons _ head tail =>
      obtain ⟨rfl, rfl⟩ := tail.of_nil
      rwa [List.append_nil]

end Enacts

end Conversation

end LiveChat
