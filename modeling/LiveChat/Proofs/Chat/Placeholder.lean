import LiveChat.Proofs.Chat.Confirmation
import LiveChat.Proofs.Chat.Origin

/-!
# Pending entries beside messages

A pending entry stands in the timeline under the number that it was sent with, and the service
numbers its messages without a look at it. The two can meet. A message of another user, or one of an
older page, is then taken for one that is there, and is not shown; numbers meet only when the clock
that the user's are taken from is behind the service's. And a page leaves what is pending as it is,
also next to the message that confirms it.
-/

namespace LiveChat

def Entry.StandsIn (user : UserId) (e : Entry) : Prop :=
  ∀ ref, e.ref? = some ref → e.id = ref ∧ e.sender = some user

theorem Entry.standsIn_ofMessage (user : UserId) (room : UInt64) (m : Message) :
    (ofMessage room m).StandsIn user := nofun

namespace Timeline

variable {t : Timeline} {id : MessageId}

/-- The number is taken, and by pending entries only. -/
def Shadows (t : Timeline) (id : MessageId) : Prop := id ∈ t.refs ∧ id ∉ t.confirmedIds

theorem mem_ids_iff {user : UserId} (stand : ∀ e ∈ t, e.StandsIn user) :
    id ∈ t.ids ↔ id ∈ t.confirmedIds ∨ id ∈ t.refs := by
  constructor
  · intro h
    obtain ⟨e, he, rfl⟩ := List.mem_map.1 h
    cases hpending : e.isPending with
    | false => exact .inl (mem_confirmedIds_iff.2 ⟨e, he, hpending, rfl⟩)
    | true =>
        obtain ⟨ref, href⟩ := (isPending_iff e).1 hpending
        rw [(stand e he ref href).1]
        exact .inr (List.mem_filterMap.2 ⟨e, he, href⟩)
  · rintro (h | h)
    · exact mem_ids_of_mem_confirmedIds h
    · obtain ⟨e, he, href⟩ := List.mem_filterMap.1 h
      exact List.mem_map.2 ⟨e, he, (stand e he id href).1⟩

theorem shadows_iff {user : UserId} (stand : ∀ e ∈ t, e.StandsIn user) :
    t.Shadows id ↔ id ∈ t.ids ∧ id ∉ t.confirmedIds := by
  rw [mem_ids_iff stand, Shadows]
  tauto

/-- An older page shows a message exactly if the number is free, or a confirmed entry has it. -/
theorem mem_confirmedIds_missing {room : UInt64} {page : List Message} {m : Message}
    (hm : m ∈ page) :
    m.id ∈ (t.missing room page ++ t).confirmedIds ↔ m.id ∉ t.ids ∨ m.id ∈ t.confirmedIds := by
  have hid : m.id ∈ page.map Message.id := List.mem_map_of_mem hm
  rw [confirmedIds_append, List.mem_append, missing, confirmedIds_eq_ids (pending_ofMessages _ _),
    ids_ofMessages, mem_fresh_iff]
  simp [hid]

end Timeline

namespace Conversation

variable {c c' : Conversation} {op : Operation} {effects : List ChatEffect} {q : HistoryRequest}
  {page : Page} {room : Room} {m : Message} {ref : Ref}

/-! ## What a pending entry stands under -/

theorem perform_standsIn (h : c.perform op = .ok (c', effects))
    (stand : ∀ e ∈ c.timeline, e.StandsIn c.identity.user) :
    ∀ e ∈ c'.timeline, e.StandsIn c'.identity.user := by
  intro e he
  rw [(perform_typistStep h).1]
  rcases perform_adds h he with hold | hnew
  · exact stand e hold
  · cases hnew with
    | received | loaded | answered => exact Entry.standsIn_ofMessage _ _ _
    | sent =>
        intro ref href
        cases href
        exact ⟨rfl, rfl⟩

theorem Performs.standsIn {ops : List Operation} (h : c.Performs ops c')
    (stand : ∀ e ∈ c.timeline, e.StandsIn c.identity.user) :
    ∀ e ∈ c'.timeline, e.StandsIn c'.identity.user := by
  induction h with
  | nil => exact stand
  | cons op head tail ih => exact ih (perform_standsIn head stand)

theorem Performs.identity {ops : List Operation} (h : c.Performs ops c') :
    c'.identity = c.identity := by
  induction h with
  | nil => rfl
  | cons op head tail ih => exact ih.trans (perform_typistStep head).1

theorem perform_refs_above (h : c.perform op = .ok (c', effects)) {floor : Int}
    (above : ∀ ref ∈ c.timeline.refs, floor < ref.toNat)
    (clock : ∀ text now wall live, op = .send text now wall live → floor < wall.toInt) :
    ∀ ref ∈ c'.timeline.refs, floor < ref.toNat := by
  cases op with
  | send text now wall live =>
      rcases send_cases h with ⟨-, rfl, -⟩ | ⟨room, ref, -, -, number, rfl, -⟩
      · exact above
      · have hwall := clock text now wall live rfl
        have hspec := nextRef_spec number
        have hrefs : (c.afterSend room text now wall ref).timeline.refs =
            c.timeline.refs ++ [ref] := Timeline.refs_append _ _
        rw [hrefs, List.forall_mem_append]
        refine ⟨above, ?_⟩
        intro r hr
        rw [List.mem_singleton.1 hr]
        omega
  | _ => exact fun ref href => above ref ((perform_refs h rfl).subset href)

theorem Performs.refs_above {ops : List Operation} (h : c.Performs ops c') {floor : Int}
    (above : ∀ ref ∈ c.timeline.refs, floor < ref.toNat)
    (clock : ∀ text now wall live, .send text now wall live ∈ ops → floor < wall.toInt) :
    ∀ ref ∈ c'.timeline.refs, floor < ref.toNat := by
  induction h with
  | nil => exact above
  | cons op head tail ih =>
      apply ih (perform_refs_above head above _)
      · intro text now wall live hop
        exact clock text now wall live (List.mem_cons_of_mem _ hop)
      · intro text now wall live hop
        exact clock text now wall live (hop ▸ List.mem_cons_self)

/-! ## Messages under the number of a pending entry -/

theorem mem_confirmedIds_received (active : c.room = some room)
    (other : m.sender ≠ some c.identity.user) :
    m.id ∈ (c.received m).1.timeline.confirmedIds ↔
      m.id ∉ c.timeline.ids ∨ m.id ∈ c.timeline.confirmedIds := by
  rw [received_of_other active other]
  by_cases h : m.id ∈ c.timeline.ids
  · simp [h]
  · simp [h]

theorem mem_confirmedIds_historyLoaded (stand : ∀ e ∈ c.timeline, e.StandsIn c.identity.user)
    (awaits : c.Awaits q) (listed : m ∈ page.messages) :
    m.id ∈ (c.historyLoaded q (.ok page)).1.timeline.confirmedIds ↔
      q.kind = .newest ∨ ¬ c.timeline.Shadows m.id := by
  rw [historyLoaded_of_awaits awaits]
  dsimp only
  cases hkind : q.kind with
  | newest =>
      rw [applyPage_newest hkind, Timeline.mem_confirmedIds_reload]
      simp [List.mem_map_of_mem listed]
  | older =>
      rw [applyPage_older hkind, Timeline.mem_confirmedIds_missing listed,
        Timeline.shadows_iff stand, not_and_not_right]
      simp [imp_iff_not_or]

/-- A message of another user, and one of an older page, is shown as confirmed once it has come,
exactly unless its number is taken by a pending entry alone. A number below all readings of the
clock at which messages were sent never is. -/
theorem listed_unless_shadowed (identity : Identity) (settings : ChatSettings)
    (ops : List Operation) (c : Conversation) (reached : (new identity settings).Performs ops c) :
    (∀ room m, c.room = some room → m.sender ≠ some identity.user →
      (m.id ∈ (c.received m).1.timeline.confirmedIds ↔ ¬ c.timeline.Shadows m.id)) ∧
    (∀ q page, c.Awaits q → q.kind = .older → ∀ m ∈ page.messages,
      (m.id ∈ (c.historyLoaded q (.ok page)).1.timeline.confirmedIds ↔
        ¬ c.timeline.Shadows m.id)) ∧
    ∀ id : MessageId,
      (∀ text now wall live, .send text now wall live ∈ ops → (id.toNat : Int) < wall.toInt) →
      ¬ c.timeline.Shadows id := by
  have stand : ∀ e ∈ c.timeline, e.StandsIn c.identity.user := reached.standsIn nofun
  have hidentity : c.identity = identity := reached.identity
  refine ⟨?_, ?_, ?_⟩
  · intro room m active other
    rw [mem_confirmedIds_received active (hidentity ▸ other), Timeline.shadows_iff stand,
      not_and_not_right, imp_iff_not_or]
  · intro q page awaits older m hm
    rw [mem_confirmedIds_historyLoaded stand awaits hm, older]
    simp
  · intro id clock shadowed
    have habove := reached.refs_above nofun clock id shadowed.1
    exact Int.lt_irrefl _ habove

/-- A message of another user and one of an older page are shown beside a pending entry, but another
one of the page is not, as it has the number of that entry. -/
theorem older_page_beside_pending :
    let message (id : MessageId) : Message := ⟨id, none, some 2, none, none, "hi", .text, 0, none⟩
    let settings : ChatSettings := { ChatSettings.standard with pageSize := 1 }
    let older : HistoryRequest := ⟨⟨1, 2⟩, 1, 2, .older, 1, 1⟩
    let ops : List Operation := [.enter ⟨1, 2⟩,
      .historyLoaded ⟨⟨1, 2⟩, 1, 1, .newest, 1, 0⟩ (.ok ⟨[message 20], 9⟩),
      .send "ho" .zero 50 true, .loadOlder]
    ∃ c, (new ⟨1, "ada"⟩ settings).Performs ops c ∧ c.Awaits older ∧
      30 ∈ (c.received (message 30)).1.timeline.confirmedIds ∧
      9 ∈ (c.historyLoaded older (.ok ⟨[message 9, message 50], 9⟩)).1.timeline.confirmedIds ∧
      50 ∉ (c.historyLoaded older (.ok ⟨[message 9, message 50], 9⟩)).1.timeline.confirmedIds := by
  intro message settings older ops
  let shown := (((new ⟨1, "ada"⟩ settings).enter ⟨1, 2⟩).1.historyLoaded
    ⟨⟨1, 2⟩, 1, 1, .newest, 1, 0⟩ (.ok ⟨[message 20], 9⟩)).1
  let c := ((shown.afterSend ⟨1, 2⟩ "ho" .zero 50 50).loadOlder).1
  have reached : (new ⟨1, "ada"⟩ settings).Performs ops c :=
    .cons _ rfl (.cons _ rfl (.cons _ rfl (.one _ rfl)))
  have awaits : c.Awaits older := ⟨rfl, rfl, rfl, rfl⟩
  obtain ⟨hreceived, holder, hclock⟩ :=
    listed_unless_shadowed ⟨1, "ada"⟩ settings ops c reached
  have hfree : ∀ id : MessageId, (id.toNat : Int) < 50 → ¬ c.timeline.Shadows id := by
    intro id hid
    apply hclock
    intro text now wall live hop
    obtain ⟨-, -, rfl, -⟩ : text = "ho" ∧ now = .zero ∧ wall = 50 ∧ live = true := by
      simpa [ops] using hop
    exact hid
  have hpage := holder older ⟨[message 9, message 50], 9⟩ awaits rfl
  refine ⟨c, reached, awaits, ?_, ?_, ?_⟩
  · exact (hreceived ⟨1, 2⟩ (message 30) rfl (by decide)).2 (hfree 30 (by decide))
  · exact (hpage (message 9) (by simp)).2 (hfree 9 (by decide))
  · intro listed
    exact (hpage (message 50) (by simp)).1 listed (by unfold Timeline.Shadows; decide)

/-- The number of a pending entry hides the message of another user that has the same number, and so
it does for a message of an older page. -/
theorem pending_hides_messages :
    (¬ ∀ (identity : Identity) (settings : ChatSettings) (ops : List Operation) (c : Conversation),
      (new identity settings).Performs ops c → ∀ room m, c.room = some room →
        m.sender ≠ some identity.user → m.id ∈ (c.received m).1.timeline.confirmedIds) ∧
    ¬ ∀ (identity : Identity) (settings : ChatSettings) (ops : List Operation) (c : Conversation),
      (new identity settings).Performs ops c → ∀ q page, c.Awaits q → q.kind = .older →
        ∀ m ∈ page.messages,
          m.id ∈ (c.historyLoaded q (.ok page)).1.timeline.confirmedIds := by
  let message (id : MessageId) : Message := ⟨id, none, some 2, none, none, "hi", .text, 0, none⟩
  let settings : ChatSettings := { ChatSettings.standard with pageSize := 1 }
  let newest : HistoryRequest := ⟨⟨1, 2⟩, 1, 1, .newest, 1, 0⟩
  let older : HistoryRequest := ⟨⟨1, 2⟩, 1, 2, .older, 1, 1⟩
  let shown := (((new ⟨1, "ada"⟩ settings).enter ⟨1, 2⟩).1.historyLoaded newest
    (.ok ⟨[message 20], 9⟩)).1
  let sent := shown.afterSend ⟨1, 2⟩ "ho" .zero 7 7
  have hsent : (new ⟨1, "ada"⟩ settings).Performs [.enter ⟨1, 2⟩,
      .historyLoaded newest (.ok ⟨[message 20], 9⟩), .send "ho" .zero 7 true] sent :=
    .cons _ rfl (.cons _ rfl (.one _ rfl))
  have hloading : (new ⟨1, "ada"⟩ settings).Performs [.enter ⟨1, 2⟩,
      .historyLoaded newest (.ok ⟨[message 20], 9⟩), .send "ho" .zero 7 true, .loadOlder]
      sent.loadOlder.1 :=
    .cons _ rfl (.cons _ rfl (.cons _ rfl (.one _ rfl)))
  constructor
  · intro listed
    have h := listed _ _ _ sent hsent ⟨1, 2⟩ (message 7) rfl (by decide)
    exact absurd h (by decide)
  · intro listed
    have h := listed _ _ _ sent.loadOlder.1 hloading older ⟨[message 7], 9⟩
      ⟨rfl, rfl, rfl, rfl⟩ rfl (message 7) (by simp)
    exact absurd h (by decide)

/-! ## Confirmations in a page -/

theorem pending_historyLoaded (awaits : c.Awaits q) (page : Page) :
    (c.historyLoaded q (.ok page)).1.timeline.pending = c.timeline.pending := by
  rw [historyLoaded_of_awaits awaits]
  dsimp only
  cases hkind : q.kind with
  | newest =>
      rw [applyPage_newest hkind, Timeline.reload, Timeline.pending_append,
        Timeline.pending_ofMessages, List.nil_append]
      simp [Timeline.pending]
  | older =>
      rw [applyPage_older hkind, Timeline.pending_append, Timeline.missing,
        Timeline.pending_ofMessages, List.nil_append]

theorem mem_confirmedIds_settle (active : c.room = some room) (m : Message) :
    m.id ∈ (c.settle m).1.timeline.confirmedIds := by
  have hlisted : ∀ t t' : Timeline,
      m.id ∈ (t ++ Entry.ofMessage room.number m :: t').confirmedIds := by
    intro t t'
    simp
  by_cases hheld : c.timeline.holdsConfirmed m.id = true
  · exact (settle_edit m).confirmedIds_subset (Timeline.holdsConfirmed_iff.1 hheld)
  · unfold settle
    rw [active]
    dsimp only
    rw [if_neg hheld]
    split
    · next i hi =>
      obtain ⟨p, hp, -⟩ := settle_place hi
      simp only [Timeline.set_at hp]
      exact hlisted _ _
    · exact hlisted c.timeline []

/-- What confirms a pending entry under its number takes that entry out, and no other. -/
theorem mem_refs_settle (active : c.room = some room) (sound : c.Sound) (href : m.ref = some ref)
    (pending : ref ∈ c.timeline.refs) (other : Ref) :
    other ∈ (c.settle m).1.timeline.refs ↔ other ∈ c.timeline.refs ∧ other ≠ ref := by
  obtain ⟨before, after, hbefore, hafter⟩ := settle_settled active href pending
  have hnodup := sound.refs
  rw [hbefore, List.nodup_middle, List.nodup_cons] at hnodup
  rw [hbefore, hafter]
  constructor
  · intro h
    refine ⟨by simpa [or_left_comm] using Or.inr h, ?_⟩
    rintro rfl
    exact hnodup.1 h
  · rintro ⟨h, hne⟩
    simpa [hne] using h

/-- A page leaves all that is pending as it is, even where it holds the message that confirms it:
that message is then shown next to the pending entry, unless it is one of an older page whose number
is taken by a pending entry alone. The same message takes the entry out when it comes over the
channel or answers the post. -/
theorem page_settles_nothing (identity : Identity) (settings : ChatSettings)
    (ops : List Operation) (c : Conversation) (reached : (new identity settings).Performs ops c)
    (q : HistoryRequest) (page : Page) (awaits : c.Awaits q) (m : Message)
    (listed : m ∈ page.messages) (own : m.sender = some identity.user) (ref : Ref)
    (number : m.ref = some ref) (pending : ref ∈ c.timeline.refs) :
    (c.historyLoaded q (.ok page)).1.timeline.pending = c.timeline.pending ∧
    (m.id ∈ (c.historyLoaded q (.ok page)).1.timeline.confirmedIds ↔
      q.kind = .newest ∨ ¬ c.timeline.Shadows m.id) ∧
    ∀ op : Operation, op.Confirms q.room c.stay m → ∃ c' effects,
      (c.historyLoaded q (.ok page)).1.perform op = .ok (c', effects) ∧
      m.id ∈ c'.timeline.confirmedIds ∧
      ∀ other, other ∈ c'.timeline.refs ↔ other ∈ c.timeline.refs ∧ other ≠ ref := by
  have stand : ∀ e ∈ c.timeline, e.StandsIn c.identity.user := reached.standsIn nofun
  have hpending := pending_historyLoaded awaits page
  refine ⟨hpending, mem_confirmedIds_historyLoaded stand awaits listed, ?_⟩
  intro op confirms
  have hperform : c.perform (.historyLoaded q (.ok page)) =
      .ok ((c.historyLoaded q (.ok page)).1, (c.historyLoaded q (.ok page)).2) := rfl
  generalize (c.historyLoaded q (.ok page)).1 = after at hpending hperform
  have sound : after.Sound := (reached.sound (sound_new identity settings)).perform hperform
  have hidentity : after.identity = identity :=
    (perform_typistStep hperform).1.trans reached.identity
  obtain ⟨hroom, hstay, -⟩ := perform_stays hperform rfl
  have active : after.room = some q.room := hroom.trans awaits.room
  have hrefs : after.timeline.refs = c.timeline.refs := by
    rw [← Timeline.refs_pending, hpending, Timeline.refs_pending]
  rw [← hstay] at confirms
  refine ⟨(after.settle m).1, (after.settle m).2, confirms.perform active (hidentity ▸ own),
    mem_confirmedIds_settle active m, ?_⟩
  intro other
  rw [mem_refs_settle active sound number (hrefs ▸ pending), hrefs]

/-- The page that is loaded again holds the confirmation of a message whose return was lost. The
entry stays beside it until the message returns. -/
theorem reload_beside_pending :
    let m : Message := ⟨9, none, some 1, none, none, "hi", .text, 0, some 5⟩
    let again : HistoryRequest := ⟨⟨1, 2⟩, 1, 2, .newest, 30, 0⟩
    let ops : List Operation := [.enter ⟨1, 2⟩,
      .historyLoaded ⟨⟨1, 2⟩, 1, 1, .newest, 30, 0⟩ (.ok ⟨[], 0⟩), .send "hi" .zero 5 true,
      .loadNewest]
    ∃ c, (new ⟨1, "ada"⟩ .standard).Performs ops c ∧ c.Awaits again ∧ 5 ∈ c.timeline.refs ∧
      9 ∈ (c.historyLoaded again (.ok ⟨[m], 1⟩)).1.timeline.confirmedIds ∧
      (c.historyLoaded again (.ok ⟨[m], 1⟩)).1.timeline.pending = c.timeline.pending ∧
      ∃ c' effects, (c.historyLoaded again (.ok ⟨[m], 1⟩)).1.perform (.received m) =
        .ok (c', effects) ∧ 9 ∈ c'.timeline.confirmedIds ∧ 5 ∉ c'.timeline.refs := by
  intro m again ops
  let shown := (((new ⟨1, "ada"⟩ .standard).enter ⟨1, 2⟩).1.historyLoaded
    ⟨⟨1, 2⟩, 1, 1, .newest, 30, 0⟩ (.ok ⟨[], 0⟩)).1
  let c := ((shown.afterSend ⟨1, 2⟩ "hi" .zero 5 5).loadNewest).1
  have reached : (new ⟨1, "ada"⟩ .standard).Performs ops c :=
    .cons _ rfl (.cons _ rfl (.cons _ rfl (.one _ rfl)))
  have awaits : c.Awaits again := ⟨rfl, rfl, rfl, rfl⟩
  obtain ⟨hpending, hlisted, hconfirms⟩ := page_settles_nothing ⟨1, "ada"⟩ .standard ops c reached
    again ⟨[m], 1⟩ awaits m (by simp) rfl 5 rfl (by decide)
  obtain ⟨c', effects, hperform, hid, hrefs⟩ := hconfirms (.received m) .returned
  refine ⟨c, reached, awaits, by decide, hlisted.2 (.inl rfl), hpending, c', effects, hperform,
    hid, ?_⟩
  intro h
  exact ((hrefs 5).1 h).2 rfl

theorem pending_survives_own_page :
    ¬ ∀ (identity : Identity) (settings : ChatSettings) (ops : List Operation) (c : Conversation),
      (new identity settings).Performs ops c → ∀ q page, c.Awaits q → ∀ m ∈ page.messages,
        m.sender = some identity.user → ∀ ref, m.ref = some ref → ref ∈ c.timeline.refs →
        m.id ∈ (c.historyLoaded q (.ok page)).1.timeline.confirmedIds ∧
          ref ∉ (c.historyLoaded q (.ok page)).1.timeline.refs := by
  intro settled
  let m : Message := ⟨9, none, some 1, none, none, "hi", .text, 0, some 5⟩
  let shown := (((new ⟨1, "ada"⟩ .standard).enter ⟨1, 2⟩).1.historyLoaded
    ⟨⟨1, 2⟩, 1, 1, .newest, 30, 0⟩ (.ok ⟨[], 0⟩)).1
  let c := ((shown.afterSend ⟨1, 2⟩ "hi" .zero 5 5).loadNewest).1
  have reached : (new ⟨1, "ada"⟩ .standard).Performs [.enter ⟨1, 2⟩,
      .historyLoaded ⟨⟨1, 2⟩, 1, 1, .newest, 30, 0⟩ (.ok ⟨[], 0⟩), .send "hi" .zero 5 true,
      .loadNewest] c :=
    .cons _ rfl (.cons _ rfl (.cons _ rfl (.one _ rfl)))
  obtain ⟨-, hgone⟩ := settled _ _ _ c reached ⟨⟨1, 2⟩, 1, 2, .newest, 30, 0⟩ ⟨[m], 1⟩
    ⟨rfl, rfl, rfl, rfl⟩ m (by simp) rfl 5 rfl (by decide)
  exact hgone (by decide)

end Conversation

end LiveChat
