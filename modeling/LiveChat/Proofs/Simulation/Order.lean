import LiveChat.Proofs.Simulation.Stay

/-!
# The order of what is shown

The timeline keeps the order in which the service has stored its messages, if no message comes
behind one that was stored after it, and if an older page is only asked for while all that is new in
it precedes what is shown. An older page leaves out as many messages as are shown, so each one that
was missed moves it a place towards the end of the log. As long as it only moves over messages that
are shown, the order is kept. Once it takes in one that was missed, that one is put in front.
-/

namespace LiveChat

open Simulation (Server Regime)

namespace Timeline

/-- A message of the log comes in its place: it is shown, or nothing is that was stored after it. -/
def Expects (t : Timeline) (log : List Message) (m : Message) : Prop :=
  m.id ∈ log.map Message.id ∧ (m.id ∈ t.ids ∨ ∀ shown ∈ t.ids, shown < m.id)

/-- What is new in a page precedes all that is shown. -/
def Follows (t : Timeline) (page : List Message) : Prop :=
  ∀ m ∈ page, m.id ∈ t.ids ∨ ∀ shown ∈ t.ids, m.id < shown

-- Over the numbers that are shown, since all numbers are too many to go through.
instance (t : Timeline) (log : List Message) (m : Message) : Decidable (t.Expects log m) :=
  have := List.decidableBAll (· < m.id) t.ids
  inferInstanceAs (Decidable (_ ∧ (_ ∨ _)))

instance (t : Timeline) (page : List Message) : Decidable (t.Follows page) :=
  have (m : Message) := List.decidableBAll (m.id < ·) t.ids
  inferInstanceAs (Decidable (∀ _ ∈ page, _ ∨ _))

end Timeline

namespace Conversation

variable {c c' : Conversation} {logs logs' : Logs} {s : Server} {q : HistoryRequest} {page : Page}
  {room : Room} {m : Message}

/-! ## Order -/

/-- What is shown are messages of the log, in the order of the log. -/
structure InOrder (c : Conversation) (logs : Logs) : Prop extends Reflects c logs where
  ascending : c.timeline.ids.Pairwise (· < ·)
  /-- Where there is an older page something is shown, unless pages are empty. -/
  older : c.hasOlder = true → c.timeline = [] → c.settings.pageSize = 0

/-- A page of the log that can be taken in: what is new in an older page precedes what is shown. -/
structure Fits (c : Conversation) (logs : Logs) (q : HistoryRequest) (page : Page) : Prop where
  ascending : (page.messages.map Message.id).Pairwise (· < ·)
  stored : page.messages.map Message.id ⊆ (logs q.room).map Message.id
  older : q.kind = .older → ∀ id ∈ page.messages.map Message.id, id ∉ c.timeline.ids →
    c.timeline ≠ [] ∧ ∀ shown ∈ c.timeline.ids, id < shown

/-- Messages may be missed, but no older page is asked for that would put one of them in front. -/
def order : Regime where
  shown := InOrder
  awaited := Fits
  ready _ _ _ := True
  expected := Timeline.Expects
  older := Timeline.Follows
  misses := True

theorem Blank.reflects (h : c.Blank) : c.Reflects logs := by
  refine ⟨?_, fun room _ => ?_⟩
  · rw [h.timeline]
    rfl
  · rw [h.timeline]
    exact List.nil_subset _

theorem Blank.inOrder (h : c.Blank) : c.InOrder logs := by
  refine ⟨h.reflects, ?_, fun older => ?_⟩
  · rw [h.timeline]
    exact .nil
  · rw [h.hasOlder] at older
    cases older

theorem InOrder.of_view (h : c.InOrder logs) (same : c.SameView c') : c'.InOrder logs where
  toReflects := h.toReflects.of_view same
  ascending := same.timeline ▸ h.ascending
  older := by
    rw [same.timeline, same.hasOlder, same.settings]
    exact h.older

theorem InOrder.store (h : c.InOrder logs) (room : Room) (m : Message) :
    c.InOrder (logs.store room m) :=
  { h with toReflects := h.toReflects.of_more (Logs.subset_store logs room m) }

theorem Fits.store (h : c.Fits logs q page) (room : Room) (m : Message) :
    c.Fits (logs.store room m) q page :=
  { h with stored := List.Subset.trans h.stored (Logs.subset_store logs room m q.room) }

theorem Fits.of_timeline (h : c.Fits logs q page) (timeline : c'.timeline = c.timeline) :
    c'.Fits logs q page :=
  { h with older := by rw [timeline]; exact h.older }

/-! ## Messages -/

theorem InOrder.behind (h : c.InOrder logs) (active : c.room = some room) {entry : Entry}
    (confirmed : entry.isPending = false) (stored : entry.id ∈ (logs room).map Message.id)
    (after : ∀ shown ∈ c.timeline.ids, shown < entry.id) :
    { c with timeline := c.timeline ++ [entry] }.InOrder logs := by
  refine ⟨h.toReflects.behind active confirmed stored, ?_, fun _ hnil => ?_⟩
  · rw [Timeline.ids_append, List.pairwise_append]
    refine ⟨h.ascending, List.pairwise_singleton _ _, fun id hid id' hid' => ?_⟩
    obtain rfl : id' = entry.id := List.mem_singleton.1 hid'
    exact after id hid
  · exact absurd hnil (List.append_ne_nil_of_right_ne_nil _ (List.cons_ne_nil _ _))

theorem Fits.behind (fits : c.Fits logs q page) {entry : Entry}
    (after : ∀ shown ∈ c.timeline.ids, shown < entry.id) :
    { c with timeline := c.timeline ++ [entry] }.Fits logs q page := by
  refine { fits with older := fun older id hid hnew => ?_ }
  rw [Timeline.ids_append, List.mem_append, not_or] at hnew
  obtain ⟨hsome, hprecedes⟩ := fits.older older id hid hnew.1
  refine ⟨List.append_ne_nil_of_left_ne_nil hsome _, fun shown hshown => ?_⟩
  rw [Timeline.ids_append, List.mem_append] at hshown
  rcases hshown with hshown | hshown
  · exact hprecedes shown hshown
  · obtain ⟨e, he⟩ := List.exists_mem_of_ne_nil _ hsome
    have hid : e.id ∈ c.timeline.ids := List.mem_map_of_mem he
    obtain rfl : shown = entry.id := List.mem_singleton.1 hshown
    exact UInt64.lt_trans (hprecedes _ hid) (after _ hid)

theorem InOrder.received_cases (h : c.InOrder logs) (active : c.room = some room)
    (expected : c.timeline.Expects (logs room) m) :
    (c.received m).1 = c ∨ (∀ shown ∈ c.timeline.ids, shown < m.id) ∧
      (c.received m).1 = { c with timeline := c.timeline ++ [Entry.ofMessage room.number m] } := by
  rw [received_of_settled active h.settled]
  by_cases hshown : m.id ∈ c.timeline.ids
  · rw [if_pos (Timeline.holds_iff.2 hshown)]
    exact .inl rfl
  · rw [if_neg (mt Timeline.holds_iff.1 hshown)]
    exact .inr ⟨expected.2.resolve_left hshown, rfl⟩

theorem InOrder.changed (h : c.InOrder logs) (change : order.Change c logs c' logs') :
    c'.InOrder logs' := by
  cases change with
  | none same => exact h.of_view same
  | received active expected =>
      rcases h.received_cases active expected with hsame | ⟨after, hbehind⟩
      · rwa [hsame]
      · rw [hbehind]
        exact h.behind active rfl expected.1 after
  | missed => exact h.store _ _
  | @brought room m entry _ active new confirmed number behind =>
      refine InOrder.of_view ?_ behind
      refine (h.store room m).behind active confirmed ?_ fun shown hshown => ?_
      · rw [number]
        exact Logs.mem_store logs room m
      · rw [number]
        exact new shown (h.stored room active hshown)

theorem InOrder.received_iff (h : c.InOrder logs) (active : c.room = some room)
    (stored : m.id ∈ (logs room).map Message.id) :
    (c.received m).1.timeline.ids.Pairwise (· < ·) ↔ c.timeline.Expects (logs room) m := by
  refine ⟨fun ascending => ⟨stored, or_iff_not_imp_left.2 fun hnew => ?_⟩, fun expected => ?_⟩
  · rw [received_of_settled active h.settled, if_neg (mt Timeline.holds_iff.1 hnew),
      Timeline.ids_append, List.pairwise_append] at ascending
    exact fun shown hshown => ascending.2.2 shown hshown m.id (List.mem_singleton.2 rfl)
  · exact (h.changed (.received active expected)).ascending

theorem Fits.changed (fits : c.Fits logs q page) (h : c.InOrder logs)
    (change : order.Change c logs c' logs') : c'.Fits logs' q page := by
  cases change with
  | none same => exact fits.of_timeline same.timeline
  | received active expected =>
      rcases h.received_cases active expected with hsame | ⟨after, hbehind⟩
      · rwa [hsame]
      · rw [hbehind]
        exact fits.behind after
  | missed => exact fits.store _ _
  | @brought room m entry _ active new _ number behind =>
      refine Fits.of_timeline ?_ behind.timeline
      refine (fits.store room m).behind fun shown hshown => ?_
      rw [number]
      exact new shown (h.stored room active hshown)

/-! ## Pages -/

theorem Fits.precedes (h : c.Fits logs q page) (older : q.kind = .older) :
    ∀ id ∈ (c.timeline.missing q.room.number page.messages).ids, ∀ shown ∈ c.timeline.ids,
      id < shown := by
  intro id hid
  obtain ⟨hid, hnew⟩ := Timeline.mem_ids_missing_iff.1 hid
  exact (h.older older id hid hnew).2

theorem Fits.applyPage (fits : c.Fits logs q page) (h : c.InOrder logs)
    (active : c.room = some q.room) : (c.applyPage q page).1.InOrder logs := by
  have hids := h.ids_applyPage q page
  have hnew : ∀ seen, ((Timeline.fresh seen page.messages).map Message.id).Pairwise (· < ·) :=
    fun seen => fits.ascending.sublist ((Timeline.fresh_sublist seen page.messages).map Message.id)
  refine ⟨h.toReflects.applyPage active fits.stored, ?_, fun older hnil => ?_⟩
  · rw [hids]
    cases hkind : q.kind with
    | newest => exact hnew []
    | older =>
        refine List.pairwise_append.2 ⟨hnew _, h.ascending, fun id hid => ?_⟩
        exact fits.precedes hkind id (by rwa [Timeline.missing, Timeline.ids_ofMessages])
  · have hempty : page.messages = [] := by
      refine List.eq_nil_iff_forall_not_mem.2 fun m hm => ?_
      have hshown := h.mem_ids_applyPage (q := q) hm
      rw [hnil] at hshown
      cases hshown
    rw [applyPage_hasOlder, hempty, Bool.and_eq_true] at older
    exact Nat.le_zero.1 (of_decide_eq_true older.1)

theorem historyLoaded_older (awaits : c.Awaits q) (older : q.kind = .older) (page : Page) :
    (c.historyLoaded q (.ok page)).1.timeline =
      c.timeline.missing q.room.number page.messages ++ c.timeline := by
  rw [historyLoaded_of_awaits awaits]
  exact applyPage_older older page

theorem Fits.historyLoaded (fits : c.Fits logs q page) (h : c.InOrder logs) (awaits : c.Awaits q) :
    (c.historyLoaded q (.ok page)).1.InOrder logs := by
  have hidle : { c with loading := none }.InOrder logs := h.of_view ⟨rfl, rfl, rfl, rfl, rfl⟩
  have hfits : { c with loading := none }.Fits logs q page := fits.of_timeline rfl
  rw [historyLoaded_of_awaits awaits]
  exact hfits.applyPage hidle awaits.room

/-- The page of a load fits, if what is shown follows it where it is an older page. -/
theorem Issues.fits {user : UserId} (issues : c.Issues q) (h : c.InOrder s.log)
    (reachable : s.Reachable user)
    (older : q.kind = .older →
      c.timeline.Follows (s.page q.room q.limit q.offset).messages ∧ c.hasOlder = true) :
    c.Fits s.log q (s.page q.room q.limit q.offset) := by
  have ordered := reachable.ordered q.room
  have hpage := (s.page_sublist q.room q.limit q.offset).map Message.id
  refine ⟨ordered.ascending.sublist hpage, hpage.subset, fun hkind id hid hnew => ?_⟩
  obtain ⟨follows, hasOlder⟩ := older hkind
  obtain ⟨m, hm, rfl⟩ := List.mem_map.1 hid
  refine ⟨fun hempty => ?_, (follows m hm).resolve_left hnew⟩
  have hlength := s.length_page q.room q.limit q.offset
  rw [issues.limit, h.older hasOlder hempty, Nat.zero_min] at hlength
  rw [issues.limit, h.older hasOlder hempty, List.length_eq_zero_iff.1 hlength] at hm
  cases hm

/-- An older page that is taken in as soon as it is asked for keeps the order exactly if what is new
in it precedes what is shown. -/
theorem InOrder.loadOlder_iff {user : UserId} (h : c.InOrder s.log) (reachable : s.Reachable user)
    (asks : c.loadOlder.2 = [.fetch q]) :
    (c.loadOlder.1.historyLoaded q (.ok (s.page q.room q.limit q.offset))).1.timeline.ids.Pairwise
      (· < ·) ↔ c.timeline.Follows (s.page q.room q.limit q.offset).messages := by
  obtain ⟨hasOlder, hkind, same, issues⟩ := loadOlder_asks asks
  have hasked : c.loadOlder.1.InOrder s.log := h.of_view same
  rw [← same.timeline]
  refine ⟨fun ascending m hm => or_iff_not_imp_left.2 fun hnew => ?_, fun follows => ?_⟩
  · rw [historyLoaded_older issues.awaits hkind, Timeline.ids_append, List.pairwise_append]
      at ascending
    exact ascending.2.2 m.id (Timeline.mem_ids_missing_iff.2 ⟨List.mem_map_of_mem hm, hnew⟩)
  · have fits := issues.fits hasked reachable fun _ => ⟨follows, same.hasOlder.trans hasOlder⟩
    exact (fits.historyLoaded hasked issues.awaits).ascending

theorem order_laws : order.Laws where
  reflects h := h.toReflects
  blank h := h.inOrder
  changed h change := h.changed change
  taken _ h awaits fits _ := Fits.historyLoaded fits h awaits
  stillAwaited h _ change fits := Fits.changed fits h change
  served reachable _ h issues older := ⟨issues.fits h reachable older, trivial⟩

instance : order.Decides where
  ready _ _ _ := inferInstanceAs (Decidable True)
  expected t log m := inferInstanceAs (Decidable (t.Expects log m))
  older t page := inferInstanceAs (Decidable (t.Follows page))
  misses := inferInstanceAs (Decidable True)

end Conversation

namespace Simulation

open Conversation (order order_laws)

/-- If in the current stay no message comes behind one that was stored after it, and an older page is
only asked for while what is new in it precedes what is shown, then what is shown is in the order of
the log after every call, whatever was missed, dropped, reloaded or held back. What an older page
that is held back would put in front precedes all that is shown. Each condition is needed where it
is asked for: without it the message, or the page if it is taken in at once, breaks the order. -/
theorem shown_in_order (identity : Identity) (settings : Settings) (epoch : Int64)
    (entropy : Entropy) (options : Options) (audited : Bool) (s : Simulation)
    (plays : Plays (order.Permits s.client.conversation.stay)
      (new identity settings epoch entropy options audited) s) :
    let c := s.client.conversation
    c.timeline.ids.Pairwise (· < ·) ∧
    (∀ q page, .historyLoaded q (.ok page) ∈ s.held → c.Awaits q → q.kind = .older →
      ∃ before, (c.historyLoaded q (.ok page)).1.timeline = before ++ c.timeline ∧
        (before ++ c.timeline).ids.Pairwise (· < ·) ∧
        ∀ id ∈ before.ids, ∀ shown ∈ c.timeline.ids, id < shown) ∧
    (∀ room ∈ c.room, ∀ m ∈ s.server.log room,
      ((c.received m).1.timeline.ids.Pairwise (· < ·) ↔
        c.timeline.Expects (s.server.log room) m)) ∧
    ∀ q, c.loadOlder.2 = [.fetch q] →
      let page := s.server.page q.room q.limit q.offset
      ((c.loadOlder.1.historyLoaded q (.ok page)).1.timeline.ids.Pairwise (· < ·) ↔
        c.timeline.Follows page.messages) := by
  intro c
  have rests := order_laws.plays identity settings epoch entropy options audited _ plays
  have inOrder := rests.holds.2.2 rfl
  refine ⟨inOrder.ascending, fun q page hheld awaits older => ?_, fun room active m stored =>
    inOrder.received_iff active (List.mem_map_of_mem stored), fun q asks =>
    inOrder.loadOlder_iff rests.holds.2.1 asks⟩
  have fits : c.Fits s.server.log q page := by
    cases rests.held _ hheld with
    | loaded _ awaited => exact awaited page rfl rfl awaits
  have hafter := fits.historyLoaded inOrder awaits
  have htimeline := Conversation.historyLoaded_older awaits older page
  exact ⟨_, htimeline, htimeline ▸ hafter.ascending, fits.precedes older⟩

/-- A channel that is down misses a message. An older page is asked for all the same, and held back
while another message comes. The one that was missed could not come any more. -/
theorem older_page_crosses_arrival :
    let room : Room := ⟨1, 2⟩
    let settings : Settings :=
      { Settings.standard with chat := { ChatSettings.standard with pageSize := 2 } }
    let start := new ⟨1, "me"⟩ settings 0 (.cycle []) .standard true
    ∃ s s' q before, Plays (order.Permits s.client.conversation.stay) start s ∧
      Plays (order.Permits s'.client.conversation.stay) start s' ∧
      let c := s.client.conversation
      let c' := s'.client.conversation
      let page := s.server.page q.room q.limit q.offset
      c.timeline.ids = [3, 4, 6] ∧ c.loadOlder.2 = [.fetch q] ∧
      (c.loadOlder.1.historyLoaded q (.ok page)).1.timeline.ids.Pairwise (· < ·) ∧
      .historyLoaded q (.ok page) ∈ s'.held ∧ c'.Awaits q ∧ q.kind = .older ∧
      c'.timeline.ids = [3, 4, 6, 7] ∧
      (c'.historyLoaded q (.ok page)).1.timeline = before ++ c'.timeline ∧ before.ids = [2] ∧
      (before ++ c'.timeline).ids.Pairwise (· < ·) ∧
      c'.room = some room ∧ ∃ m ∈ s'.server.log room, m.id = 5 ∧
        ¬ (c'.received m).1.timeline.ids.Pairwise (· < ·) := by
  intro room settings start
  let q : HistoryRequest := ⟨room, 1, 2, .older, 2, 3⟩
  let asking : List Move := [.store room 2 "a" none, .store room 2 "b" none,
    .store room 2 "c" none, .store room 2 "d" none, .call (.dispatch .start),
    .call (.dispatch (.enterRoom room)), .call (.drop (.room room)), .store room 2 "e" none,
    .call (.advance (.ofSeconds 60)), .bring room 2 "f" none]
  let crossing : List Move :=
    [.set ⟨true, true, true, true⟩, .call (.dispatch .loadOlder), .bring room 2 "g" none]
  obtain ⟨s, hs, s', hs', ⟨hstay, hids, hasks, hfollows⟩, hstay', hids', hawaits, hheld, hafter,
      hactive, m, hm, hnumber, hlate⟩ :
      ∃ s ∈ start.play (order.Permits 1) asking, ∃ s' ∈ s.play (order.Permits 1) crossing,
        (s.client.conversation.stay = 1 ∧ s.client.conversation.timeline.ids = [3, 4, 6] ∧
          s.client.conversation.loadOlder.2 = [.fetch q] ∧
          s.client.conversation.timeline.Follows (s.server.page room 2 3).messages) ∧
        s'.client.conversation.stay = 1 ∧ s'.client.conversation.timeline.ids = [3, 4, 6, 7] ∧
        s'.client.conversation.Awaits q ∧
        (q, s.server.page room 2 3) ∈ s'.held.filterMap Regime.page? ∧
        (s'.client.conversation.historyLoaded q (.ok (s.server.page room 2 3))).1.timeline.ids =
          [2, 3, 4, 6, 7] ∧
        s'.client.conversation.room = some room ∧
        ∃ m ∈ s'.server.log room, m.id = 5 ∧
          ¬ s'.client.conversation.timeline.Expects (s'.server.log room) m := by decide +kernel
  have plays : Plays (order.Permits 1) start s := Plays.start.play hs
  have plays' : Plays (order.Permits 1) start s' := plays.play hs'
  rw [← hstay] at plays
  rw [← hstay'] at plays'
  obtain ⟨-, -, -, hpage⟩ := shown_in_order _ _ _ _ _ _ s plays
  obtain ⟨-, hbefore, hreceived, -⟩ := shown_in_order _ _ _ _ _ _ s' plays'
  obtain ⟨e, he, hpage'⟩ := List.mem_filterMap.1 hheld
  obtain rfl := Regime.page?_eq_some hpage'
  obtain ⟨before, htimeline, hascending, -⟩ := hbefore q _ he hawaits rfl
  have hnew : before.ids = [2] := by
    have hids : (before ++ s'.client.conversation.timeline).ids = [2] ++ [3, 4, 6, 7] :=
      htimeline ▸ hafter
    rw [Timeline.ids_append, hids'] at hids
    exact List.append_cancel_right hids
  exact ⟨s, s', q, before, plays, plays', hids, hasks, (hpage q hasks).2 hfollows, he, hawaits,
    rfl, hids', htimeline, hnew, hascending, hactive, m, hm, hnumber,
    mt (hreceived room hactive m hm).1 hlate⟩

/-- A channel that is down misses two messages, and one comes when it is up again. The older page
then holds a missed one, and it goes in front of what is shown. -/
theorem missed_messages_break_order :
    let room : Room := ⟨1, 2⟩
    let settings : Settings :=
      { Settings.standard with chat := { ChatSettings.standard with pageSize := 1 } }
    let start := new ⟨1, "me"⟩ settings 0 (.cycle []) .standard true
    let outage : List Move := [.store room 2 "a" none, .store room 2 "b" none,
      .call (.dispatch .start), .call (.dispatch (.enterRoom room)), .call (.drop (.room room)),
      .store room 2 "c" none, .store room 2 "d" none, .call (.advance (.ofSeconds 60))]
    let after : List Move := [.bring room 2 "e" none, .call (.dispatch .loadOlder)]
    ∃ s s', outage.foldlM move start = .ok s ∧ s.client.isRoomLive = true ∧
      after.foldlM move s = .ok s' ∧ s'.client.conversation.timeline.ids = [3, 2, 5] ∧
      ¬ s'.client.conversation.timeline.ids.Pairwise (· < ·) := by
  intro room settings start outage after
  have hends : ((outage.foldlM move start).bind fun s =>
      (after.foldlM move s).map fun s' =>
        (s.client.isRoomLive, s'.client.conversation.timeline.ids)).toOption =
      some (true, [3, 2, 5]) := by decide +kernel
  cases hs : outage.foldlM move start with
  | error f =>
      rw [hs] at hends
      cases hends
  | ok s =>
      cases hs' : after.foldlM move s with
      | error f =>
          simp only [hs, hs', Except.bind, Except.map] at hends
          cases hends
      | ok s' =>
          simp only [hs, hs', Except.bind, Except.map] at hends
          obtain ⟨hlive, hids⟩ := Prod.mk.inj (Option.some.inj hends)
          exact ⟨s, s', rfl, hlive, hs', hids, by rw [hids]; decide⟩

end Simulation

end LiveChat
