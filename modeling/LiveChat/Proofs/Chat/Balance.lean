import LiveChat.Proofs.Chat.Journal
import LiveChat.Proofs.Chat.Placeholder
import Mathlib.Data.List.Dedup
import Mathlib.Data.List.Infix

/-!
# Messages that return without their numbers

A service need not give a message back under the number that it was sent with. What returns then
confirms the newest pending entry of the same body, which can be that of another sending. The counts
balance all the same: of each body as many entries are listed as were sent, and as many of them are
pending as have not returned, in whatever order the messages come and however often one comes again.
-/

namespace LiveChat

def Entry.isOwn (user : UserId) (body : String) (e : Entry) : Bool :=
  e.sender = some user && e.body = body

theorem Entry.isOwn_iff {user : UserId} {body : String} {e : Entry} :
    e.isOwn user body = true ↔ e.sender = some user ∧ e.body = body := by
  simp [isOwn]

namespace Timeline

variable {t : Timeline} {user : UserId} {body : String}

def ownCount (t : Timeline) (user : UserId) (body : String) : Nat := t.countP (Entry.isOwn user body)

theorem ownCount_append (s t : Timeline) (user : UserId) (body : String) :
    ownCount (s ++ t) user body = s.ownCount user body + t.ownCount user body := List.countP_append

theorem ownCount_cons (e : Entry) (t : Timeline) (user : UserId) (body : String) :
    ownCount (e :: t) user body = t.ownCount user body + if e.isOwn user body then 1 else 0 :=
  List.countP_cons

theorem exists_pending_of_ownCount (h : 0 < t.pending.ownCount user body) :
    ∃ e ∈ t, e.isPending = true ∧ e.sender = some user ∧ e.body = body := by
  obtain ⟨e, he, hown⟩ := List.countP_pos_iff.1 h
  obtain ⟨het, hpending⟩ := List.mem_filter.1 he
  exact ⟨e, het, hpending, Entry.isOwn_iff.1 hown⟩

theorem pending_eq_nil (stand : ∀ e ∈ t, e.StandsIn user)
    (none : ∀ body, t.pending.ownCount user body = 0) : t.pending = [] := by
  rw [List.eq_nil_iff_forall_not_mem]
  intro e he
  obtain ⟨het, hpending⟩ := List.mem_filter.1 he
  obtain ⟨ref, href⟩ := (isPending_iff e).1 hpending
  have hown := (stand e het ref href).2
  exact List.countP_eq_zero.1 (none e.body) e he (Entry.isOwn_iff.2 ⟨hown, rfl⟩)

/-- A number is that of confirmed entries, or pending entries were sent with it. -/
theorem count_ids (stand : ∀ e ∈ t, e.StandsIn user) (id : MessageId) :
    t.ids.count id = t.confirmedIds.count id + t.refs.count id := by
  induction t with
  | nil => rfl
  | cons e t ih =>
      obtain ⟨he, ht⟩ := List.forall_mem_cons.1 stand
      rw [ids_cons, confirmedIds_cons, refs_cons, List.count_append, List.count_cons, ih ht]
      cases href : e.ref? with
      | none =>
          simp [Entry.isPending, href, List.count_cons]
          omega
      | some ref =>
          rw [(he ref href).1]
          simp [Entry.isPending, href, List.count_cons]
          omega

end Timeline

namespace Conversation

/-! ## The exchange -/

/-- What goes out over the channel and comes in over it when messages return without numbers. -/
inductive Operation.Exchanges (user : UserId) : Operation → Prop
  | sent {text : String} {now : Instant} {wall : Int64} :
      Exchanges user (.send text now wall true)
  | heard {m : Message} (other : m.sender ≠ some user) : Exchanges user (.received m)
  | returned {m : Message} (own : m.sender = some user) (unnumbered : m.ref = none) :
      Exchanges user (.received m)

/-- What an exchange that starts at a conversation has done, and what the conversation became. -/
inductive Exchange (start : Conversation) : Journal → Conversation → Prop
  | start : Exchange start [] start
  | step {log : Journal} {c c' : Conversation} {op : Operation} {effects : List ChatEffect}
      (exchange : Exchange start log c) (exchanges : op.Exchanges start.identity.user)
      (perform : c.perform op = .ok (c', effects)) :
      Exchange start (log ++ [⟨op, c', effects⟩]) c'

theorem Exchange.next {start c : Conversation} {log : Journal} (exchange : Exchange start log c)
    {op : Operation} (exchanges : op.Exchanges start.identity.user)
    (after : Conversation × List ChatEffect) (perform : c.perform op = .ok after) :
    Exchange start (log ++ [⟨op, after.1, after.2⟩]) after.1 := .step exchange exchanges perform

/-- The body of a message that the moment sends. One that is dropped has no effect. -/
def Moment.accepted? (moment : Moment) : Option String :=
  match moment.op with
  | .send text _ _ _ => if moment.effects.isEmpty then none else some text
  | _ => none

def Moment.received? (moment : Moment) : Option Message :=
  match moment.op with
  | .received m => some m
  | _ => none

namespace Journal

def accepted (log : Journal) : List String := log.filterMap Moment.accepted?

def received (log : Journal) : List Message := log.filterMap Moment.received?

def returned (log : Journal) (user : UserId) : List Message :=
  log.received.filter fun m => m.sender = some user

/-- How many messages of this body have returned. One that comes again does not count again. -/
def returnedCount (log : Journal) (user : UserId) (body : String) : Nat :=
  (log.returned user).dedup.countP fun m => m.body = body

/-- What returns has been sent: at no time have more messages of a body returned than were sent.
Each has a number of its own, which is that of no other message. -/
structure Echoes (log : Journal) (user : UserId) : Prop where
  distinct : ∀ m ∈ log.received, ∀ m' ∈ log.returned user, m.id = m'.id → m = m'
  sent : ∀ past : Journal, past <+: log → ∀ body,
    past.returnedCount user body ≤ past.accepted.count body

variable {log log' : Journal} {moment : Moment} {user : UserId} {body : String} {m : Message}

theorem accepted_snoc : accepted (log ++ [moment]) = log.accepted ++ moment.accepted?.toList := by
  cases h : moment.accepted? <;> simp [accepted, h]

theorem accepted_snoc_of_dropped (dropped : moment.accepted? = none) :
    accepted (log ++ [moment]) = log.accepted := by
  rw [accepted_snoc, dropped, Option.toList_none, List.append_nil]

theorem mem_received_snoc :
    m ∈ received (log ++ [moment]) ↔ m ∈ log.received ∨ moment.received? = some m := by
  simp [received]

theorem mem_returned : m ∈ log.returned user ↔ m ∈ log.received ∧ m.sender = some user := by
  simp [returned]

theorem mem_returned_snoc : m ∈ returned (log ++ [moment]) user ↔
    m ∈ log.returned user ∨ moment.received? = some m ∧ m.sender = some user := by
  rw [mem_returned, mem_returned, mem_received_snoc, or_and_right]

theorem mem_returned_snoc_of_own {d : Message} (came : moment.received? = some m)
    (own : m.sender = some user) :
    d ∈ returned (log ++ [moment]) user ↔ d = m ∨ d ∈ log.returned user := by
  rw [mem_returned_snoc, came, Option.some_inj, or_comm, eq_comm]
  exact or_congr_left (and_iff_left_of_imp fun heq => heq ▸ own)

theorem returnedCount_congr (same : ∀ m, m ∈ log.returned user ↔ m ∈ log'.returned user) :
    log.returnedCount user body = log'.returnedCount user body := by
  apply List.Perm.countP_eq
  rw [List.perm_ext_iff_of_nodup (List.nodup_dedup _) (List.nodup_dedup _)]
  simpa only [List.mem_dedup] using same

theorem returnedCount_of_first (first : m ∉ log.returned user)
    (same : ∀ d, d ∈ log'.returned user ↔ d = m ∨ d ∈ log.returned user) :
    log'.returnedCount user body =
      log.returnedCount user body + if m.body = body then 1 else 0 := by
  have hnodup : (m :: (log.returned user).dedup).Nodup :=
    List.nodup_cons.2 ⟨mt List.mem_dedup.1 first, List.nodup_dedup _⟩
  have hperm : (log'.returned user).dedup.Perm (m :: (log.returned user).dedup) := by
    rw [List.perm_ext_iff_of_nodup (List.nodup_dedup _) hnodup]
    simpa only [List.mem_cons, List.mem_dedup] using same
  rw [returnedCount, hperm.countP_eq, List.countP_cons, returnedCount]
  simp only [decide_eq_true_eq]

theorem Echoes.of_snoc (h : Echoes (log ++ [moment]) user) : log.Echoes user := by
  have hearlier : log <+: log ++ [moment] := List.prefix_append _ _
  constructor
  · intro m hm m' hm'
    apply h.distinct m
    · exact (hearlier.filterMap _).subset hm
    · exact ((hearlier.filterMap _).filter _).subset hm'
  · intro past hpast
    exact h.sent past (hpast.trans hearlier)

/-- It is enough to look at the bodies that return. -/
theorem echoes_iff : log.Echoes user ↔
    (∀ m ∈ log.received, ∀ m' ∈ log.returned user, m.id = m'.id → m = m') ∧
      ∀ past ∈ List.inits log, ∀ m ∈ Journal.returned past user,
        Journal.returnedCount past user m.body ≤ (Journal.accepted past).count m.body := by
  constructor
  · intro h
    refine ⟨h.distinct, ?_⟩
    intro past hpast m _
    exact h.sent past ((List.mem_inits _ _).1 hpast) m.body
  · rintro ⟨distinct, sent⟩
    refine ⟨distinct, ?_⟩
    intro past hpast body
    by_cases hbody : ∃ m ∈ past.returned user, m.body = body
    · obtain ⟨m, hm, rfl⟩ := hbody
      exact sent past ((List.mem_inits _ _).2 hpast) m hm
    · have hnone : past.returnedCount user body = 0 := by
        rw [returnedCount, List.countP_eq_zero]
        intro m hm hmbody
        exact hbody ⟨m, List.mem_dedup.1 hm, by simpa using hmbody⟩
      omega

instance : Decidable (log.Echoes user) := decidable_of_iff _ echoes_iff.symm

end Journal

/-! ## The timeline beside the exchange -/

/-- The entries of the user are those of the messages sent, of which the ones that returned are
confirmed. No other message takes their place or their numbers. -/
structure Tallies (user : UserId) (log : Journal) (t : Timeline) : Prop where
  own : ∀ body, t.ownCount user body = log.accepted.count body
  waiting : ∀ body,
    t.pending.ownCount user body + log.returnedCount user body = log.accepted.count body
  confirmed : ∀ m ∈ log.returned user, m.id ∈ t.confirmedIds
  received : ∀ id ∈ t.confirmedIds, ∃ m ∈ log.received, m.id = id

variable {c c' start : Conversation} {log : Journal} {moment : Moment} {user : UserId} {room : Room}
  {m : Message} {op : Operation} {effects : List ChatEffect} {t before after : Timeline}
  {p e : Entry}

theorem Tallies.received_of_snoc (h : Tallies user log t) {id : MessageId}
    (hid : id ∈ t.confirmedIds) : ∃ m ∈ Journal.received (log ++ [moment]), m.id = id := by
  obtain ⟨m, hm, rfl⟩ := h.received id hid
  exact ⟨m, Journal.mem_received_snoc.2 (.inl hm), rfl⟩

/-- What is not accepted, and what returns again, leaves the timeline as it is. -/
theorem Tallies.idle (h : Tallies user log t) (dropped : moment.accepted? = none)
    (again : ∀ m, moment.received? = some m → m.sender = some user → m ∈ log.received) :
    Tallies user (log ++ [moment]) t := by
  have haccepted : Journal.accepted (log ++ [moment]) = log.accepted :=
    Journal.accepted_snoc_of_dropped dropped
  have hreturned : ∀ m, m ∈ Journal.returned (log ++ [moment]) user ↔ m ∈ log.returned user := by
    intro m
    rw [Journal.mem_returned_snoc]
    apply or_iff_left_of_imp
    rintro ⟨hm, own⟩
    exact Journal.mem_returned.2 ⟨again m hm own, own⟩
  constructor
  · intro body
    rw [haccepted, h.own]
  · intro body
    rw [haccepted, Journal.returnedCount_congr hreturned, h.waiting]
  · intro m hm
    exact h.confirmed m ((hreturned m).1 hm)
  · intro id hid
    exact h.received_of_snoc hid

theorem Tallies.heard (h : Tallies user log t) (m : Message) (came : m ∈ log.received)
    (other : m.sender ≠ some user) (room : UInt64) :
    Tallies user log (t ++ [Entry.ofMessage room m]) := by
  have hown : ∀ body, (Entry.ofMessage room m).isOwn user body = false := by
    intro body
    rw [Bool.eq_false_iff]
    intro hown
    exact other (Entry.isOwn_iff.1 hown).1
  constructor
  · intro body
    rw [Timeline.ownCount_append, Timeline.ownCount_cons, hown, h.own]
    rfl
  · intro body
    rw [Timeline.pending_append, Timeline.pending_ofMessage_cons, Timeline.pending_nil,
      List.append_nil, h.waiting]
  · intro d hd
    rw [Timeline.confirmedIds_append]
    exact List.mem_append_left _ (h.confirmed d hd)
  · intro id hid
    rw [Timeline.confirmedIds_append, List.mem_append] at hid
    rcases hid with hid | hid
    · exact h.received id hid
    · obtain rfl : id = m.id := by simpa using hid
      exact ⟨m, came, rfl⟩

theorem Tallies.sent (h : Tallies user log t) (accepted : moment.accepted? = some e.body)
    (silent : moment.received? = none) (pending : e.isPending = true)
    (own : e.sender = some user) : Tallies user (log ++ [moment]) (t ++ [e]) := by
  have hreturned : ∀ m, m ∈ Journal.returned (log ++ [moment]) user ↔ m ∈ log.returned user := by
    intro m
    rw [Journal.mem_returned_snoc, silent]
    simp
  have haccepted : ∀ body, (Journal.accepted (log ++ [moment])).count body =
      log.accepted.count body + if e.isOwn user body then 1 else 0 := by
    intro body
    rw [Journal.accepted_snoc, accepted, List.count_append, Option.toList_some,
      List.count_singleton]
    simp [Entry.isOwn, own]
  have hconfirmed : Timeline.confirmedIds (t ++ [e]) = t.confirmedIds := by
    rw [Timeline.confirmedIds_append, Timeline.confirmedIds_cons, if_pos pending]
    exact List.append_nil _
  constructor
  · intro body
    rw [haccepted, ← h.own, Timeline.ownCount_append, Timeline.ownCount_cons]
    exact congrArg _ (Nat.zero_add _)
  · intro body
    rw [haccepted, ← h.waiting, Journal.returnedCount_congr hreturned, Timeline.pending_append,
      Timeline.pending_cons, if_pos pending, Timeline.ownCount_append, Timeline.ownCount_cons,
      Timeline.pending_nil]
    have hzero : Timeline.ownCount [] user body = 0 := rfl
    omega
  · intro m hm
    rw [hconfirmed]
    exact h.confirmed m ((hreturned m).1 hm)
  · intro id hid
    rw [hconfirmed] at hid
    exact h.received_of_snoc hid

/-- A message of the user returns for the first time, and takes the place of a pending entry of its
body. -/
theorem Tallies.returned (h : Tallies user log (before ++ p :: after)) (m : Message)
    (dropped : moment.accepted? = none) (came : moment.received? = some m)
    (own : m.sender = some user) (first : m ∉ log.returned user) (pending : p.isPending = true)
    (sender : p.sender = some user) (body : p.body = m.body) (room : UInt64) :
    Tallies user (log ++ [moment]) (before ++ Entry.ofMessage room m :: after) := by
  have hreturned : ∀ d, d ∈ Journal.returned (log ++ [moment]) user ↔
      d = m ∨ d ∈ log.returned user := by
    intro d
    exact Journal.mem_returned_snoc_of_own came own
  have haccepted : Journal.accepted (log ++ [moment]) = log.accepted :=
    Journal.accepted_snoc_of_dropped dropped
  have hconfirmed : ∀ id, id ∈ Timeline.confirmedIds (before ++ Entry.ofMessage room m :: after) ↔
      id = m.id ∨ id ∈ Timeline.confirmedIds (before ++ p :: after) := by
    intro id
    rw [Timeline.confirmedIds_append, Timeline.confirmedIds_append, Timeline.confirmedIds_cons p,
      if_pos pending, Timeline.confirmedIds_ofMessage_cons]
    simp [or_left_comm]
  have hp : ∀ b, p.isOwn user b = decide (m.body = b) := by
    intro b
    simp [Entry.isOwn, sender, body]
  have hm : ∀ b, (Entry.ofMessage room m).isOwn user b = decide (m.body = b) := by
    intro b
    simp [Entry.isOwn, Entry.ofMessage, own]
  constructor
  · intro b
    rw [haccepted, ← h.own, Timeline.ownCount_append, Timeline.ownCount_append,
      Timeline.ownCount_cons, Timeline.ownCount_cons, hp, hm]
  · intro b
    have hwaiting := h.waiting b
    rw [Timeline.pending_append, Timeline.pending_cons, if_pos pending, Timeline.ownCount_append,
      Timeline.ownCount_cons, hp] at hwaiting
    rw [haccepted, Journal.returnedCount_of_first first hreturned, Timeline.pending_append,
      Timeline.pending_ofMessage_cons, Timeline.ownCount_append]
    simp only [decide_eq_true_eq] at hwaiting
    omega
  · intro d hd
    rw [hconfirmed]
    exact ((hreturned d).1 hd).imp (congrArg Message.id) (h.confirmed d)
  · intro id hid
    rcases (hconfirmed id).1 hid with rfl | hid
    · exact ⟨m, Journal.mem_received_snoc.2 (.inr came), rfl⟩
    · exact h.received_of_snoc hid

/-! ## One step of the exchange, and all -/

/-- Where a message of the user without a number settles: in the place of a pending entry of its
body, if there is one. -/
theorem settle_unnumbered (active : c.room = some room) (new : m.id ∉ c.timeline.confirmedIds)
    (unnumbered : m.ref = none)
    (waits : 0 < c.timeline.pending.ownCount c.identity.user m.body) :
    ∃ before p after, c.timeline = before ++ p :: after ∧ p.isPending = true ∧
      p.sender = some c.identity.user ∧ p.body = m.body ∧
      (c.settle m).1.timeline = before ++ Entry.ofMessage room.number m :: after := by
  obtain ⟨e, he, hpending, hown, hbody⟩ := Timeline.exists_pending_of_ownCount waits
  have hplace := Timeline.placeOfBody?_isSome_of_mem he hpending hown
  rw [hbody] at hplace
  obtain ⟨i, hi⟩ := Option.isSome_iff_exists.1 hplace
  obtain ⟨p, hp, settled⟩ := Timeline.placeOfBody?_spec hi
  refine ⟨_, p, _, Timeline.split_at hp, settled.1, settled.2.1, settled.2.2, ?_⟩
  unfold settle
  rw [active]
  dsimp only
  rw [if_neg (mt Timeline.holdsConfirmed_iff.1 new), unnumbered, hi]
  exact Timeline.set_at hp _

structure Balances (user : UserId) (room : Room) (log : Journal) (c : Conversation) : Prop where
  identity : c.identity.user = user
  active : c.room = some room
  sound : c.Sound
  stand : ∀ e ∈ c.timeline, e.StandsIn user
  tallies : Tallies user log c.timeline

theorem balances_enter (c : Conversation) (room : Room) :
    Balances c.identity.user room [] (c.enter room).1 where
  identity := rfl
  active := rfl
  sound := ⟨.nil, .nil, nofun, rfl⟩
  stand := nofun
  tallies := ⟨fun _ => rfl, fun _ => rfl, nofun, nofun⟩

/-- A message of the user that comes again is confirmed already. -/
theorem Balances.returned_again (h : Balances user room log c)
    (echoes : Journal.Echoes (log ++ [moment]) user) (came : moment.received? = some m)
    (own : m.sender = some user) (held : m.id ∈ c.timeline.confirmedIds) : m ∈ log.received := by
  obtain ⟨d, hd, hid⟩ := h.tallies.received m.id held
  have hm : m ∈ Journal.received (log ++ [moment]) := Journal.mem_received_snoc.2 (.inr came)
  have heq := echoes.distinct d (Journal.mem_received_snoc.2 (.inl hd)) m
    (Journal.mem_returned.2 ⟨hm, own⟩) hid
  exact heq ▸ hd

/-- A message of the user that returns for the first time is waited for. -/
theorem Balances.waited (h : Balances user room log c)
    (echoes : Journal.Echoes (log ++ [moment]) user) (dropped : moment.accepted? = none)
    (came : moment.received? = some m) (own : m.sender = some user)
    (first : m ∉ log.returned user) : 0 < c.timeline.pending.ownCount user m.body := by
  have hsent := echoes.sent _ List.prefix_rfl m.body
  have hwaiting := h.tallies.waiting m.body
  have hcount : Journal.returnedCount (log ++ [moment]) user m.body =
      log.returnedCount user m.body + 1 := by
    rw [Journal.returnedCount_of_first first fun d => Journal.mem_returned_snoc_of_own came own,
      if_pos rfl]
  rw [hcount, Journal.accepted_snoc_of_dropped dropped] at hsent
  omega

theorem Balances.tallies_step (h : Balances user room log c) (exchanges : op.Exchanges user)
    (perform : c.perform op = .ok (c', effects))
    (echoes : Journal.Echoes (log ++ [⟨op, c', effects⟩]) user) :
    Tallies user (log ++ [⟨op, c', effects⟩]) c'.timeline := by
  cases exchanges with
  | sent =>
      rcases send_cases perform with ⟨-, rfl, rfl⟩ | ⟨_, ref, -, -, -, rfl, rfl⟩
      · exact h.tallies.idle rfl nofun
      · apply h.tallies.sent _ rfl rfl (congrArg some h.identity)
        simp [Moment.accepted?, pendingEntry]
  | @heard m other =>
      obtain ⟨rfl, rfl⟩ := eq_of_ok perform
      have hidle : Tallies user (log ++ [⟨.received m, (c.received m).1, (c.received m).2⟩])
          c.timeline := by
        apply h.tallies.idle rfl
        rintro _ ⟨⟩ own
        exact absurd own other
      -- It is left out where an entry has its number; the counts do not see it either way.
      rw [received_of_other h.active (h.identity ▸ other)]
      split
      · exact hidle
      · exact hidle.heard m (Journal.mem_received_snoc.2 (.inr rfl)) other _
  | @returned m own unnumbered =>
      obtain ⟨rfl, rfl⟩ := eq_of_ok perform
      rw [received_of_own h.active (h.identity ▸ own)] at echoes ⊢
      by_cases held : m.id ∈ c.timeline.confirmedIds
      · rw [settle_held held (by simp [unnumbered])] at echoes ⊢
        apply h.tallies.idle rfl
        rintro _ ⟨⟩ -
        exact h.returned_again echoes rfl own held
      · have first : m ∉ log.returned user := fun hm => held (h.tallies.confirmed m hm)
        have waits := h.waited echoes rfl rfl own first
        rw [← h.identity] at waits
        obtain ⟨before, p, after, place, pending, sender, body, settled⟩ :=
          settle_unnumbered h.active held unnumbered waits
        rw [settled]
        have tallies := h.tallies
        rw [place] at tallies
        exact tallies.returned m rfl rfl own first pending (h.identity ▸ sender) body _

theorem Balances.step (h : Balances user room log c) (exchanges : op.Exchanges user)
    (perform : c.perform op = .ok (c', effects))
    (echoes : Journal.Echoes (log ++ [⟨op, c', effects⟩]) user) :
    Balances user room (log ++ [⟨op, c', effects⟩]) c' := by
  have stays : op.switches = false := by cases exchanges <;> rfl
  have hidentity := (perform_typistStep perform).1
  have hstand := perform_standsIn perform (h.identity ▸ h.stand)
  rw [hidentity, h.identity] at hstand
  exact ⟨hidentity ▸ h.identity, (perform_stays perform stays).1.trans h.active,
    h.sound.perform perform, hstand, h.tallies_step exchanges perform echoes⟩

theorem Exchange.balances (exchange : Exchange (c.enter room).1 log c')
    (echoes : log.Echoes c.identity.user) : Balances c.identity.user room log c' := by
  induction exchange with
  | start => exact balances_enter c room
  | step _ exchanges perform ih => exact (ih echoes.of_snoc).step exchanges perform echoes

/-- However messages are sent and come in after a room is entered, of each body the user has as many
entries as were sent, and as many of them are pending as have not returned. What has returned is
confirmed once; besides, only what is pending can stand under its number. Once all that was sent has
returned, nothing is pending and no number is there twice. -/
theorem echoes_balance (c : Conversation) (room : Room) (log : Journal) (c' : Conversation)
    (exchange : Exchange (c.enter room).1 log c') (echoes : log.Echoes c.identity.user) :
    (∀ body,
      c'.timeline.ownCount c.identity.user body = log.accepted.count body ∧
      c'.timeline.pending.ownCount c.identity.user body +
        log.returnedCount c.identity.user body = log.accepted.count body) ∧
    (∀ m ∈ log.returned c.identity.user, c'.timeline.confirmedIds.count m.id = 1 ∧
      c'.timeline.ids.count m.id = 1 + c'.timeline.refs.count m.id) ∧
    ((∀ body, log.returnedCount c.identity.user body = log.accepted.count body) →
      c'.timeline.pending = [] ∧ c'.timeline.ids.Nodup) := by
  have balances := exchange.balances echoes
  have tallies := balances.tallies
  refine ⟨?_, ?_, ?_⟩
  · intro body
    exact ⟨tallies.own body, tallies.waiting body⟩
  · intro m hm
    have honce := List.count_eq_one_of_mem balances.sound.ids (tallies.confirmed m hm)
    refine ⟨honce, ?_⟩
    rw [Timeline.count_ids balances.stand, honce]
  · intro all
    have hpending : c'.timeline.pending = [] := by
      apply Timeline.pending_eq_nil balances.stand
      intro body
      have hwaiting := tallies.waiting body
      have hall := all body
      omega
    refine ⟨hpending, ?_⟩
    rw [← Timeline.confirmedIds_eq_ids hpending]
    exact balances.sound.ids

/-- Two messages of one body are sent, and another user sends one of that body as well. The first
that returns comes twice. -/
theorem equal_bodies_balance :
    let message (id : MessageId) (sender : UserId) : Message :=
      ⟨id, none, some sender, none, none, "hi", .text, 0, none⟩
    let entered := ((new ⟨1, "ada"⟩ .standard).enter ⟨1, 2⟩).1
    let once := entered.afterSend ⟨1, 2⟩ "hi" .zero 5 5
    let twice := once.afterSend ⟨1, 2⟩ "hi" (.ofSeconds 2) 5 6
    let heard := twice.received (message 20 2)
    let first := heard.1.received (message 21 1)
    let again := first.1.received (message 21 1)
    let second := again.1.received (message 22 1)
    let log : Journal := [
      ⟨.send "hi" .zero 5 true, once,
        [.timelineChanged, .scrollToNewest, .transmit (.post "hi" (some 5))]⟩,
      ⟨.send "hi" (.ofSeconds 2) 5 true, twice,
        [.timelineChanged, .scrollToNewest, .transmit (.post "hi" (some 6))]⟩,
      ⟨.received (message 20 2), heard.1, heard.2⟩, ⟨.received (message 21 1), first.1, first.2⟩,
      ⟨.received (message 21 1), again.1, again.2⟩, ⟨.received (message 22 1), second.1, second.2⟩]
    Exchange entered log second.1 ∧ log.Echoes 1 ∧ second.1.timeline.ownCount 1 "hi" = 2 ∧
      second.1.timeline.ids.count 21 = 1 ∧ second.1.timeline.pending = [] ∧
      second.1.timeline.ids.Nodup := by
  intro message entered once twice heard first again second log
  have exchange : Exchange entered log second.1 :=
    ((((((.start : Exchange entered [] entered).step .sent rfl).step .sent rfl).next
      (.heard (by decide)) heard rfl).next (.returned rfl rfl) first rfl).next
      (.returned rfl rfl) again rfl).next (.returned rfl rfl) second rfl
  have echoes : log.Echoes 1 := by decide
  obtain ⟨hcounts, hreturned, hall⟩ :=
    echoes_balance (new ⟨1, "ada"⟩ .standard) ⟨1, 2⟩ log second.1 exchange echoes
  have haccepted : log.accepted = ["hi", "hi"] := by decide
  have hreturnedAll : ∀ body, log.returnedCount 1 body = log.accepted.count body := by
    intro body
    by_cases hbody : body = "hi"
    · rw [hbody]
      decide
    · have hsent := echoes.sent log List.prefix_rfl body
      have hnone : log.accepted.count body = 0 := by simp [haccepted, Ne.symm hbody]
      omega
  have hown : second.1.timeline.ownCount 1 "hi" = log.accepted.count "hi" := (hcounts "hi").1
  have honce : second.1.timeline.ids.count 21 = 1 + second.1.timeline.refs.count 21 :=
    (hreturned (message 21 1) (by decide)).2
  have hsettled := hall hreturnedAll
  rw [haccepted] at hown
  rw [(Timeline.refs_eq_nil_iff _).2 hsettled.1] at honce
  exact ⟨exchange, echoes, hown, honce, hsettled⟩

/-- A message can return under a number that is given to a message sent later: the number then
stands in the timeline twice. -/
theorem returned_number_given_later :
    ¬ ∀ (identity : Identity) (settings : ChatSettings) (room : Room) (log : Journal)
      (c : Conversation), Exchange ((new identity settings).enter room).1 log c →
        log.Echoes identity.user → ∀ m ∈ log.returned identity.user,
          c.timeline.ids.count m.id = 1 := by
  intro once
  let m : Message := ⟨9, none, some 1, none, none, "hi", .text, 0, none⟩
  let entered := ((new ⟨1, "ada"⟩ .standard).enter ⟨1, 2⟩).1
  let sent := entered.afterSend ⟨1, 2⟩ "hi" .zero 5 5
  let returned := sent.received m
  let later := returned.1.afterSend ⟨1, 2⟩ "ho" (.ofSeconds 2) 9 9
  let log : Journal := [
    ⟨.send "hi" .zero 5 true, sent,
      [.timelineChanged, .scrollToNewest, .transmit (.post "hi" (some 5))]⟩,
    ⟨.received m, returned.1, returned.2⟩,
    ⟨.send "ho" (.ofSeconds 2) 9 true, later,
      [.timelineChanged, .scrollToNewest, .transmit (.post "ho" (some 9))]⟩]
  have exchange : Exchange entered log later :=
    (((.start : Exchange entered [] entered).step .sent rfl).next
      (.returned rfl rfl) returned rfl).step .sent rfl
  have hcount := once ⟨1, "ada"⟩ .standard ⟨1, 2⟩ log later exchange (by decide) m (by decide)
  exact absurd hcount (by decide)

end Conversation

end LiveChat
