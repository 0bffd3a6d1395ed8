import LiveChat.Proofs.Chat.Origin
import LiveChat.Proofs.Client.Telling

/-!
# Nothing leaks from one stay to another

A stay begins when a room is entered and ends when it is left, for another one or none. What is
shown in a room has come during the stay: on the channel of the room, as the answer to a request
that was made during the stay, or from the user. An answer may be late and may come again, but it
names the stay that it was asked for in, and the numbers of earlier stays are smaller.
-/

namespace LiveChat.Client

variable {identity : Identity} {settings : Settings} {room : Room} {c c' : Client} {r : Reading}
  {e : Event} {actions : List Action} {log : List Turn} {owner : UserId}

/-! ## Answers -/

def Event.answered? : Event → Option Action
  | .historyLoaded q _ => some (.fetchHistory q)
  | .posted q _ => some (.postMessage q)
  | _ => none

def Asked (log : List Turn) (x : Action) : Prop := ∃ t ∈ log, x ∈ t.actions

/-- Every answer is to something that was asked for before. It may come late, out of order, and
any number of times. -/
def AnswersAsked (log : List Turn) : Prop :=
  ∀ n, (hn : n < log.length) → ∀ x ∈ log[n].event.answered?, Asked (log.take n) x

instance (log : List Turn) (x : Action) : Decidable (Asked log x) :=
  inferInstanceAs (Decidable (∃ t ∈ log, x ∈ t.actions))

instance (log : List Turn) : Decidable (AnswersAsked log) :=
  inferInstanceAs (Decidable (∀ n, (hn : n < log.length) →
    ∀ x ∈ log[n].event.answered?, Asked (log.take n) x))

theorem AnswersAsked.init {t : Turn} (h : AnswersAsked (log ++ [t])) : AnswersAsked log := by
  intro n hn x hx
  have hasked := h n (by simp; omega) x (by rwa [List.getElem_append_left hn])
  rwa [List.take_append_of_le_length (Nat.le_of_lt hn)] at hasked

theorem AnswersAsked.last {t : Turn} (h : AnswersAsked (log ++ [t])) :
    ∀ x ∈ t.event.answered?, Asked log x := by
  intro x hx
  have hasked := h log.length (by simp) x (by simpa using hx)
  rwa [List.take_left] at hasked

def Action.stay? : Action → Option Nat
  | .fetchHistory q => some q.stay
  | .postMessage q => some q.stay
  | _ => none

theorem Passes.requests {conversation : Conversation} {effects : List ChatEffect}
    (h : Passes c r e conversation effects) :
    c.conversation.stay ≤ conversation.stay ∧ conversation.RequestsOf effects := by
  have hstop : ∀ effect ∈ c.conversation.stopTyping.2, effect.stay? = none :=
    Conversation.frame_requests _
  cases h with
  | rests => exact ⟨Nat.le_refl _, Conversation.requestsOf_of_none (by simp)⟩
  | @leaves room _ active =>
      have hroom : c.conversation.room = some room := active
      unfold Conversation.leave
      rw [hroom]
      refine ⟨Nat.le_succ _, Conversation.requestsOf_of_none fun effect he => ?_⟩
      rcases List.mem_append.1 he with he | he
      · exact hstop effect he
      · simp only [List.mem_cons, List.not_mem_nil, or_false] at he
        rcases he with rfl | rfl <;> rfl
  | enters => exact ⟨Nat.le_succ _, Conversation.enter_requests _⟩
  | switches =>
      refine ⟨Nat.le_succ _, fun effect he => ?_⟩
      rcases List.mem_append.1 he with he | he
      · exact Conversation.requestsOf_of_none hstop effect he
      · exact Conversation.enter_requests _ effect he
  | does does perform =>
      obtain ⟨-, hstay, hrequests⟩ := does.same_stay perform
      exact ⟨Nat.le_of_eq hstay.symm, hrequests⟩

theorem handle_requests (ok : c.handle r e = .ok (c', actions)) :
    c.conversation.stay ≤ c'.conversation.stay ∧
      ∀ x ∈ actions, ∀ stay, x.stay? = some stay → stay = c'.conversation.stay := by
  obtain ⟨effects, passes, hin⟩ := handle_passes ok
  obtain ⟨hle, hrequests⟩ := passes.requests
  refine ⟨hle, fun x hx stay hstay => ?_⟩
  cases x with
  | fetchHistory q =>
      cases hstay
      exact (hrequests _ ((mem_iff_of_effectsIn hin rfl).1 hx) q.room q.stay rfl).2.symm
  | postMessage q =>
      cases hstay
      exact (hrequests _ ((mem_iff_of_effectsIn hin rfl).1 hx) q.room q.stay rfl).2.symm
  | _ => cases hstay

/-! ## Stays -/

/-- The turns are a stay in the room: the first enters it, from none or another, and none of the
later ones leaves it. -/
def IsStay (room : Room) (stay : List Turn) : Prop :=
  ∃ first later, stay = first :: later ∧ first.event = .enterRoom room ∧
    first.before.room? ≠ some room ∧ ∀ t ∈ later, ¬ t.event.Leaves room

/-- Where an entry comes from: a message heard on the channel of the room, one on the page of a load
that was asked for in the past, the answer to a post of the past, or what the user sends. -/
inductive Turn.Brings (owner : UserId) (room : Room) (past : List Turn) (t : Turn) : Entry → Prop
  | heard {text : String} {m : Message} (event : t.event = .frameReceived (.room room) text)
      (decodes : ServerFrame.decode text = some (.message m)) :
      Brings owner room past t (.ofMessage room.number m)
  | loaded {q : HistoryRequest} {page : Page} {m : Message}
      (event : t.event = .historyLoaded q (.ok page)) (asked : Asked past (.fetchHistory q))
      (awaits : t.before.conversation.Awaits q) (listed : m ∈ page.messages) :
      Brings owner room past t (.ofMessage room.number m)
  | answered {q : PostRequest} {m : Message} (event : t.event = .posted q (.ok m))
      (asked : Asked past (.postMessage q)) :
      Brings owner room past t (.ofMessage room.number (q.complete owner m))
  | sent {text : String} {wall : Int64} {ref : Ref} (event : t.event = .send text)
      (clock : t.reading.wall = some wall) :
      Brings owner room past t (t.before.conversation.pendingEntry room text wall ref)

/-- Where a typist comes from: a frame of another user on the channel of the room. -/
structure Turn.Shows (owner : UserId) (room : Room) (t : Turn) (user : UserId) (typist : Typist) :
    Prop where
  other : user ≠ owner
  event : ∃ text, t.event = .frameReceived (.room room) text ∧
    ServerFrame.decode text = some (.typing user typist.nickname)
  refreshed : t.reading.now = typist.refreshedAt

theorem IsStay.snoc {stay : List Turn} (h : IsStay room stay) {t : Turn}
    (remains : ¬ t.event.Leaves room) : IsStay room (stay ++ [t]) := by
  obtain ⟨first, later, rfl, enters, away, hremains⟩ := h
  refine ⟨first, later ++ [t], rfl, enters, away, fun t' ht' => ?_⟩
  rcases List.mem_append.1 ht' with ht' | ht'
  · exact hremains t' ht'
  · exact List.mem_singleton.1 ht' ▸ remains

/-- What is shown has come during the stay, and no request from before is of its number. -/
structure Stays (owner : UserId) (room : Room) (earlier stay : List Turn) (c : Client) : Prop where
  isStay : IsStay room stay
  before : ∀ t ∈ earlier, ∀ x ∈ t.actions, ∀ n, x.stay? = some n → n < c.conversation.stay
  entries : ∀ e ∈ c.conversation.timeline, ∃ past t future, stay = past ++ t :: future ∧
    t.Brings owner room past e
  typists : ∀ user typist, c.conversation.typists.table.find? user = some typist →
    ∃ t ∈ stay, t.Shows owner room user typist

namespace Stays

variable {earlier stay : List Turn}

theorem asked (h : Stays owner room earlier stay c) {x : Action}
    (current : x.stay? = some c.conversation.stay) (asked : Asked (earlier ++ stay) x) :
    Asked stay x := by
  obtain ⟨t, ht, hx⟩ := asked
  rcases List.mem_append.1 ht with ht | ht
  · exact absurd (h.before t ht x hx _ current) (Nat.lt_irrefl _)
  · exact ⟨t, ht, hx⟩

theorem begin (away : c.room? ≠ some room)
    (requests : ∀ t ∈ log, ∀ x ∈ t.actions, ∀ n, x.stay? = some n → n ≤ c.conversation.stay)
    (entered : c'.conversation = (c.conversation.enter room).1) :
    Stays owner room log [⟨c, r, .enterRoom room, actions⟩] c' := by
  have htimeline : c'.conversation.timeline = [] := by rw [entered]; rfl
  have htypists : c'.conversation.typists = .empty := by rw [entered]; rfl
  refine ⟨⟨_, [], rfl, rfl, away, by simp⟩, fun t ht x hx n hn => ?_, ?_, ?_⟩
  · rw [entered]
    exact Nat.lt_succ_of_le (requests t ht x hx n hn)
  · simp [htimeline]
  · intro user typist found
    rw [htypists] at found
    cases found

theorem snoc (h : Stays owner room earlier stay c) {t : Turn} (remains : ¬ t.event.Leaves room)
    (number : c'.conversation.stay = c.conversation.stay)
    (entries : ∀ e ∈ c'.conversation.timeline,
      e ∈ c.conversation.timeline ∨ t.Brings owner room stay e)
    (typists : ∀ user typist, c'.conversation.typists.table.find? user = some typist →
      c.conversation.typists.table.find? user = some typist ∨ t.Shows owner room user typist) :
    Stays owner room earlier (stay ++ [t]) c' := by
  refine ⟨h.isStay.snoc remains, ?_, fun e he => ?_, fun user typist found => ?_⟩
  · rw [number]
    exact h.before
  · rcases entries e he with he | brings
    · obtain ⟨past, t', future, rfl, brings⟩ := h.entries e he
      exact ⟨past, t', future ++ [t], by simp, brings⟩
    · exact ⟨stay, t, [], rfl, brings⟩
  · rcases typists user typist found with found | shows
    · obtain ⟨t', ht', shows⟩ := h.typists user typist found
      exact ⟨t', List.mem_append_left _ ht', shows⟩
    · exact ⟨t, by simp, shows⟩

end Stays

/-- What an operation adds is brought by its event: what comes from others has come on the channel
of the active room, and an answer that counts is to a request of this stay. -/
theorem Does.brings {past : List Turn} {op : Conversation.Operation} {entry : Entry}
    (does : Does c r e op) (active : c.room? = some room)
    (asked : ∀ x ∈ e.answered?, x.stay? = some c.conversation.stay → Asked past x)
    (adds : c.conversation.Adds op entry) :
    Turn.Brings c.conversation.identity.user room past ⟨c, r, e, actions⟩ entry := by
  have hroom : c.conversation.room = some room := active
  cases does with
  | received active' decodes =>
      obtain rfl := Option.some.inj (active.symm.trans active')
      cases adds with
      | received active'' m =>
          obtain rfl := Option.some.inj (hroom.symm.trans active'')
          exact .heard rfl decodes
  | historyLoaded q result =>
      cases adds with
      | loaded awaits listed =>
          obtain rfl := Option.some.inj (hroom.symm.trans awaits.room)
          exact .loaded rfl (asked _ rfl (congrArg some awaits.stay.symm)) awaits listed
  | posted q result =>
      cases adds with
      | answered current m =>
          obtain ⟨hcurrent, hstay⟩ := Conversation.isCurrent_iff.1 current
          obtain rfl := Option.some.inj (hroom.symm.trans hcurrent)
          exact .answered rfl (asked _ rfl (congrArg some hstay.symm))
  | send clock text =>
      cases adds with
      | sent active' =>
          obtain rfl := Option.some.inj (hroom.symm.trans active')
          exact .sent rfl clock
  | _ => cases adds

theorem Does.shows {op : Conversation.Operation} {user : UserId} {typist : Typist}
    (does : Does c r e op) (active : c.room? = some room)
    (joins : user ≠ c.conversation.identity.user ∧
      op = .otherTyping user typist.nickname typist.refreshedAt) :
    Turn.Shows c.conversation.identity.user room ⟨c, r, e, actions⟩ user typist := by
  obtain ⟨nickname, refreshedAt⟩ := typist
  obtain ⟨other, rfl⟩ := joins
  cases does with
  | @typing _ text _ _ active' decodes =>
      obtain rfl := Option.some.inj (active.symm.trans active')
      exact ⟨other, ⟨text, rfl, decodes⟩, rfl⟩

namespace Stays

variable {earlier stay : List Turn}

theorem rests (h : Stays owner room earlier stay c) (remains : ¬ e.Leaves room)
    (same : c'.conversation = c.conversation) :
    Stays owner room earlier (stay ++ [⟨c, r, e, actions⟩]) c' := by
  refine h.snoc remains ?_ ?_ ?_
  all_goals rw [same]
  · exact fun _ => .inl
  · exact fun _ _ => .inl

theorem does (h : Stays owner room earlier stay c) (active : c.room? = some room)
    (self : c.conversation.identity.user = owner) {op : Conversation.Operation}
    {effects : List ChatEffect} (does : Does c r e op)
    (perform : c.conversation.perform op = .ok (c'.conversation, effects))
    (asked : ∀ x ∈ e.answered?, Asked (earlier ++ stay) x) :
    Stays owner room earlier (stay ++ [⟨c, r, e, actions⟩]) c' := by
  subst self
  refine h.snoc (does.stays.2 room) (does.same_stay perform).2.1 (fun entry mem => ?_)
    fun user typist found => ?_
  · refine (Conversation.perform_adds perform mem).imp id fun adds => ?_
    exact does.brings active (fun x hx current => h.asked current (asked x hx)) adds
  · exact (Conversation.perform_joins perform found).imp id fun joins => does.shows active joins

end Stays

/-- No request is of a stay to come, and in a room what is shown has come during the stay. -/
structure Resides (owner : UserId) (log : List Turn) (c : Client) : Prop where
  requests : ∀ t ∈ log, ∀ x ∈ t.actions, ∀ n, x.stay? = some n → n ≤ c.conversation.stay
  stays : ∀ room, c.room? = some room →
    ∃ earlier stay, log = earlier ++ stay ∧ Stays owner room earlier stay c

theorem Resides.turn (h : Resides owner log c) (self : c.conversation.identity.user = owner)
    (ok : c.handle r e = .ok (c', actions))
    (asked : ∀ x ∈ e.answered?, Asked log x) :
    Resides owner (log ++ [⟨c, r, e, actions⟩]) c' := by
  obtain ⟨hle, hrequests⟩ := handle_requests ok
  obtain ⟨effects, passes, -⟩ := handle_passes ok
  refine ⟨fun t ht x hx n hn => ?_, fun room active => ?_⟩
  · rcases List.mem_append.1 ht with ht | ht
    · exact Nat.le_trans (h.requests t ht x hx n hn) hle
    · obtain rfl := List.mem_singleton.1 ht
      exact Nat.le_of_eq (hrequests x hx n hn)
  · unfold room? at active
    generalize hconversation : c'.conversation = conversation at passes active
    cases passes with
    | rests remains =>
        obtain ⟨earlier, stay, rfl, hstays⟩ := h.stays room active
        exact ⟨earlier, _, List.append_assoc .., hstays.rests (remains room active) hconversation⟩
    | leaves left =>
        rw [(Conversation.vacant_leave left).room] at active
        cases active
    | enters vacant =>
        obtain rfl := Option.some.inj active
        refine ⟨log, _, rfl, .begin ?_ h.requests hconversation⟩
        rw [vacant]
        nofun
    | @switches old _ left other =>
        obtain rfl := Option.some.inj active
        refine ⟨log, _, rfl, .begin ?_ h.requests hconversation⟩
        rw [left]
        exact fun heq => other (Option.some.inj heq).symm
    | does does perform =>
        rw [(does.same_stay perform).1] at active
        obtain ⟨earlier, stay, rfl, hstays⟩ := h.stays room active
        exact ⟨earlier, _, List.append_assoc ..,
          hstays.does active self does (hconversation ▸ perform) asked⟩

theorem Run.resides {start : Instant} {entropy : Entropy}
    (run : Run (new identity settings start entropy) log c) (asked : AnswersAsked log) :
    Resides identity.user log c := by
  induction run with
  | start =>
      refine ⟨by simp, fun room active => ?_⟩
      cases (show (none : Option Room) = some room from active)
  | turn run handled ih =>
      have sound := run.sound (sound_new identity settings start entropy)
      exact (ih asked.init).turn (congrArg Identity.user sound.owner) handled asked.last

/-- What is shown in a room has come during the stay there: a confirmed entry is of a message that
was heard on the channel of the room, that stood on the page of a load made during the stay, or that
answered a post made during the stay; a pending one was sent during the stay, and a typist was heard
of on the channel of the room. In no room there is nothing to show, and only entering one changes
that. -/
theorem nothing_leaks_between_stays (identity : Identity) (settings : Settings) (start : Instant)
    (entropy : Entropy) (log : List Turn) (c : Client)
    (run : Run (new identity settings start entropy) log c) (asked : AnswersAsked log) :
    (∀ room, c.room? = some room → ∃ earlier stay, log = earlier ++ stay ∧ IsStay room stay ∧
      (∀ entry ∈ c.conversation.timeline, ∃ past t future, stay = past ++ t :: future ∧
        t.Brings identity.user room past entry) ∧
      ∀ user typist, c.conversation.typists.table.find? user = some typist →
        ∃ t ∈ stay, t.Shows identity.user room user typist) ∧
    (c.room? = none → c.conversation.Vacant ∧
      ∀ r e c' actions, (∀ room, e ≠ .enterRoom room) → c.handle r e = .ok (c', actions) →
        c'.conversation = c.conversation) := by
  constructor
  · intro room active
    obtain ⟨earlier, stay, rfl, hstays⟩ := (run.resides asked).stays room active
    exact ⟨earlier, stay, rfl, hstays.isStay, hstays.entries, hstays.typists⟩
  · intro inactive
    have hvacant := run.vacant (Conversation.vacant_new identity settings.chat) inactive
    refine ⟨hvacant, fun r e c' actions outside ok => ?_⟩
    obtain ⟨effects, passes, -⟩ := handle_passes ok
    generalize c'.conversation = conversation at passes
    cases passes with
    | rests => rfl
    | leaves active => exact absurd (inactive.symm.trans active) nofun
    | enters | switches => exact absurd rfl (outside _)
    | does does perform =>
        rw [does.perform_of_vacant hvacant] at perform
        exact (Conversation.eq_of_ok perform).1

/-- A room is left and entered again. The page asked for in the first stay comes in the second, and
then the one asked for in that. -/
theorem page_of_earlier_stay_dropped :
    let q (stay load : Nat) : HistoryRequest := ⟨⟨1, 2⟩, stay, load, .newest, 30, 0⟩
    let m (id : MessageId) : Message := ⟨id, none, some 2, some "bo", none, "hi", .text, 0, none⟩
    let events : List Event := [.enterRoom ⟨1, 2⟩, .leaveRoom, .enterRoom ⟨1, 2⟩,
      .historyLoaded (q 1 1) (.ok ⟨[m 7], 1⟩), .historyLoaded (q 3 2) (.ok ⟨[m 8], 1⟩)]
    ∃ log c, Run (new ⟨1, "ada"⟩ .standard .zero (.cycle [])) log c ∧
      log.map Turn.event = events ∧ AnswersAsked log ∧ c.room? = some ⟨1, 2⟩ ∧
      c.conversation.timeline = [.ofMessage 2 (m 8)] ∧
      ∃ earlier stay past t future, log = earlier ++ stay ∧ IsStay ⟨1, 2⟩ stay ∧
        stay = past ++ t :: future ∧ t.Brings 1 ⟨1, 2⟩ past (.ofMessage 2 (m 8)) := by
  intro q m events
  obtain ⟨log, c, run, hevents, hends⟩ := Run.of_replay
    (new ⟨1, "ada"⟩ .standard .zero (.cycle [])) (events.map fun e => (⟨.zero, none⟩, e))
    (f := fun log c => (decide (AnswersAsked log), c.room?, c.conversation.timeline))
    (a := (true, some ⟨1, 2⟩, [.ofMessage 2 (m 8)])) (by decide +kernel)
  simp only [Prod.mk.injEq, decide_eq_true_eq] at hends
  obtain ⟨hasked, hroom, htimeline⟩ := hends
  obtain ⟨earlier, stay, hlog, hstay, hentries, -⟩ :=
    (nothing_leaks_between_stays _ _ _ _ log c run hasked).1 _ hroom
  obtain ⟨past, t, future, hsplit, brings⟩ := hentries (.ofMessage 2 (m 8)) (by simp [htimeline])
  exact ⟨log, c, run, hevents, hasked, hroom, htimeline, earlier, stay, past, t, future, hlog,
    hstay, hsplit, brings⟩

end LiveChat.Client
