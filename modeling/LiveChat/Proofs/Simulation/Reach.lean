import LiveChat.Proofs.Simulation.Order
import Mathlib.Data.List.Perm.Subperm

/-!
# Whether the start of a log stays within reach

Once a page has come, no older page is asked for unless one is known of. That one is known of is
told from the number of messages that are shown and the number that the room had when the page was
made. So the start of the log is shown when no older page is known of, unless at least as many
messages have come while the page was in flight as are left before it: then they are counted in
place of those, which are out of reach.
-/

namespace LiveChat

open Simulation (Server Regime)

/-- A page is taken in before too much has been stored since it was made: less than is left before
an older page if anything is, and nothing if the log was empty. -/
def Page.InTime (page : Page) (log : List Message) (q : HistoryRequest) : Prop :=
  let total := page.total.toNat
  match q.kind with
  | .newest => total = 0 → log = []
  | .older => total ≤ q.offset + page.messages.length ∨
      log.length - total < total - (q.offset + page.messages.length)

instance (page : Page) (log : List Message) (q : HistoryRequest) :
    Decidable (page.InTime log q) :=
  match h : q.kind with
  | .newest => decidable_of_iff (page.total.toNat = 0 → log = []) (by simp [Page.InTime, h])
  | .older => decidable_of_iff (page.total.toNat ≤ q.offset + page.messages.length ∨
      log.length - page.total.toNat < page.total.toNat - (q.offset + page.messages.length))
      (by simp [Page.InTime, h])

namespace Simulation.Server

variable {s : Server} {room : Room} {limit offset : Nat} {m : Message}

theorem head_mem_page (first : m ∈ (s.log room).head?) (some : offset < (s.log room).length)
    (reaches : (s.log room).length - offset ≤ limit) :
    m ∈ (s.page room limit offset).messages := by
  obtain ⟨rest, hlog⟩ := List.head?_eq_some_iff.1 first
  unfold page
  dsimp only
  rw [Nat.sub_eq_zero_of_le reaches, List.drop_zero]
  obtain ⟨n, hn⟩ : ∃ n, (s.log room).length - offset = n + 1 := ⟨_, (Nat.succ_pred (by omega)).symm⟩
  rw [hn, hlog, List.take_succ_cons]
  exact List.mem_cons_self

end Simulation.Server

namespace Conversation

variable {c c' : Conversation} {logs logs' : Logs} {s old : Server} {q : HistoryRequest}
  {page : Page} {room : Room} {m : Message}

/-- If a page has come and no older one is known of, the first message of the log is shown. -/
structure ShowsStart (c : Conversation) (logs : Logs) : Prop extends Reflects c logs where
  first : c.total.isSome → c.hasOlder = false → ∀ room, c.room = some room →
    ∀ m ∈ (logs room).head?, m.id ∈ c.timeline.ids
  older : c.hasOlder = true → ∀ room, c.room = some room → logs room ≠ []

/-- A page as it was made of an earlier log, since when no more has been shown than stored. -/
structure Stems (c : Conversation) (logs : Logs) (q : HistoryRequest) (old : List Message) :
    Prop where
  earlier : old <+: logs q.room
  limit : q.limit = c.settings.pageSize
  newest : q.kind = .newest → q.offset = 0
  some : q.kind = .older → old ≠ []
  whole : q.kind = .older → old.length ≤ q.offset → ∀ m ∈ old.head?, m.id ∈ c.timeline.ids
  came : q.kind = .older → c.timeline.length + old.length ≤ q.offset + (logs q.room).length

/-- In a stay every message is brought that is stored, and the pages are taken in in time. -/
def reach : Regime where
  shown := ShowsStart
  awaited c logs q page := ∃ old : Server, page = old.page q.room q.limit q.offset ∧
    c.Stems logs q (old.log q.room)
  ready log q page := page.InTime log q
  expected t _ m := m.id ∈ t.ids
  older _ _ := True
  misses := False

theorem Blank.showsStart (h : c.Blank) : c.ShowsStart logs := by
  refine ⟨h.reflects, fun come => ?_, fun older => ?_⟩
  · rw [h.total] at come
    cases come
  · rw [h.hasOlder] at older
    cases older

theorem ShowsStart.of_view (h : c.ShowsStart logs) (same : c.SameView c') : c'.ShowsStart logs where
  toReflects := h.toReflects.of_view same
  first := by
    rw [same.total, same.hasOlder, same.room, same.timeline]
    exact h.first
  older := by
    rw [same.hasOlder, same.room]
    exact h.older

theorem Stems.of_view {old : List Message} (h : c.Stems logs q old) (same : c.SameView c') :
    c'.Stems logs q old where
  earlier := h.earlier
  limit := by rw [h.limit, same.settings]
  newest := h.newest
  some := h.some
  whole := by
    rw [same.timeline]
    exact h.whole
  came := by
    rw [same.timeline]
    exact h.came

/-! ## Messages -/

theorem received_of_shown (h : c.Reflects logs) (active : c.room = some room)
    (shown : m.id ∈ c.timeline.ids) : (c.received m).1 = c := by
  rw [received_of_settled active h.settled, if_pos (Timeline.holds_iff.2 shown)]

theorem ShowsStart.elsewhere (h : c.ShowsStart logs) (other : c.room ≠ some room) :
    c.ShowsStart (logs.store room m) := by
  have hsame : ∀ r, c.room = some r → logs.store room m r = logs r := fun r active =>
    Logs.store_of_ne (by rintro rfl; exact other active) logs m
  refine ⟨h.toReflects.of_more (Logs.subset_store logs room m), fun come whole r active => ?_,
    fun older r active => ?_⟩
  · rw [hsame r active]
    exact h.first come whole r active
  · rw [hsame r active]
    exact h.older older r active

theorem ShowsStart.brought (h : c.ShowsStart logs) (active : c.room = some room) {entry : Entry}
    (confirmed : entry.isPending = false) (number : entry.id = m.id) :
    { c with timeline := c.timeline ++ [entry] }.ShowsStart (logs.store room m) := by
  have hstored : entry.id ∈ (logs.store room m room).map Message.id := by
    rw [number]
    exact Logs.mem_store logs room m
  refine ⟨(h.toReflects.of_more (Logs.subset_store logs room m)).behind active confirmed hstored,
    fun come whole r hr first hfirst => ?_, fun _ r hr => ?_⟩
  · obtain rfl : room = r := Option.some.inj (active.symm.trans hr)
    rw [Logs.store_self, List.head?_append] at hfirst
    rw [Timeline.ids_append, List.mem_append]
    cases hlog : (logs room).head? with
    | none =>
        rw [hlog] at hfirst
        obtain rfl : m = first := Option.some.inj hfirst
        exact .inr (number ▸ List.mem_cons_self)
    | some first' =>
        rw [hlog] at hfirst
        obtain rfl : first' = first := Option.some.inj hfirst
        exact .inl (h.first come whole room active _ hlog)
  · obtain rfl : room = r := Option.some.inj (active.symm.trans hr)
    rw [Logs.store_self]
    exact List.append_ne_nil_of_right_ne_nil _ (List.cons_ne_nil _ _)

theorem ShowsStart.changed (h : c.ShowsStart logs) (change : reach.Change c logs c' logs') :
    c'.ShowsStart logs' := by
  cases change with
  | none same => exact h.of_view same
  | received active shown => rwa [received_of_shown h.toReflects active shown]
  | missed may => exact h.elsewhere may
  | brought active _ confirmed number behind =>
      exact (h.brought active confirmed number).of_view behind

/-- As many messages are stored in the room at least as are put behind what is shown. -/
theorem Stems.store {old : List Message} (h : c.Stems logs q old) (room : Room) (m : Message)
    (entries : Timeline) (counted : (logs q.room).length + entries.length ≤
      (logs.store room m q.room).length) :
    { c with timeline := c.timeline ++ entries }.Stems (logs.store room m) q old where
  earlier := h.earlier.trans (Logs.prefix_store logs room m q.room)
  limit := h.limit
  newest := h.newest
  some := h.some
  whole := fun older short first hfirst => by
    rw [Timeline.ids_append]
    exact List.mem_append_left _ (h.whole older short first hfirst)
  came := fun older => by
    have hcame := h.came older
    rw [List.length_append]
    omega

theorem Stems.changed {old : List Message} (stems : c.Stems logs q old) (h : c.Reflects logs)
    (awaits : c.Awaits q) (change : reach.Change c logs c' logs') : c'.Stems logs' q old := by
  cases change with
  | none same => exact stems.of_view same
  | received active shown => rwa [received_of_shown h active shown]
  | @missed room m may =>
      have hstems := stems.store room m []
        (Logs.prefix_store logs room m q.room).length_le
      exact hstems.of_view ⟨rfl, (List.append_nil _).symm, rfl, rfl, rfl⟩
  | @brought room m entry _ active _ _ _ behind =>
      obtain rfl : q.room = room := Option.some.inj (awaits.room.symm.trans active)
      refine (stems.store q.room m [entry] ?_).of_view behind
      rw [Logs.store_self, List.length_append]
      exact Nat.le_refl _

/-! ## Pages -/

theorem head?_of_prefix {l l' : List Message} (h : l <+: l') (some : l ≠ []) :
    l'.head? = l.head? := by
  obtain ⟨rest, rfl⟩ := h
  rw [List.head?_append, List.head?_eq_some_head some]
  rfl

/-- An older page is known of if the page is as long as pages are, and less is shown than the room
had when it was made. -/
theorem whole_applyPage (h : (c.applyPage q page).1.Reflects logs) :
    (c.applyPage q page).1.hasOlder = false ↔ page.messages.length < c.settings.pageSize ∨
      page.total.toNat ≤ (c.applyPage q page).1.timeline.ids.length := by
  rw [applyPage_hasOlder, h.confirmedCount, Bool.and_eq_false_iff, decide_eq_false_iff_not,
    decide_eq_false_iff_not, Nat.not_le, Nat.not_lt, Timeline.ids, List.length_map]

/-- A page comes in time, and no older one is known of then: it begins with the first message of the
log from which it was made, or that was shown before. -/
theorem Stems.reaches (stems : c.Stems logs q (old.log q.room)) (reflects : c.Reflects logs)
    (reflects' : (c.applyPage q (old.page q.room q.limit q.offset)).1.Reflects logs)
    (total : (old.page q.room q.limit q.offset).total.toNat = (old.log q.room).length)
    (inTime : (old.page q.room q.limit q.offset).InTime (logs q.room) q)
    (whole : (c.applyPage q (old.page q.room q.limit q.offset)).1.hasOlder = false)
    (before : q.kind = .older → q.offset < (old.log q.room).length) :
    (old.log q.room).length - q.offset ≤ q.limit := by
  have hlength := Server.length_page old q.room q.limit q.offset
  have hshown := congrArg List.length (reflects.ids_applyPage q (old.page q.room q.limit q.offset))
  have hfresh := fun seen =>
    (Timeline.fresh_sublist seen (old.page q.room q.limit q.offset).messages).length_le
  rw [whole_applyPage reflects', total, ← stems.limit] at whole
  have hearlier := stems.earlier.length_le
  cases hkind : q.kind with
  | newest =>
      have hoffset := stems.newest hkind
      have hnew := hfresh []
      rw [hkind] at hshown
      dsimp only at hshown
      rw [List.length_map] at hshown
      omega
  | older =>
      have hnew := hfresh c.timeline.ids
      have hcame := stems.came hkind
      have hbefore := before hkind
      rw [hkind] at hshown
      dsimp only at hshown
      rw [List.length_append, List.length_map] at hshown
      have hids : c.timeline.ids.length = c.timeline.length := List.length_map _
      simp only [Page.InTime, hkind, total] at inTime
      omega

theorem ShowsStart.applyPage {user : UserId} (h : c.ShowsStart s.log) (reachable : s.Reachable user)
    (active : c.room = some q.room) (stems : c.Stems s.log q (old.log q.room))
    (inTime : (old.page q.room q.limit q.offset).InTime (s.log q.room) q) :
    (c.applyPage q (old.page q.room q.limit q.offset)).1.ShowsStart s.log := by
  have ordered := reachable.ordered q.room
  have hearlier := stems.earlier
  have htotal : (old.page q.room q.limit q.offset).total.toNat = (old.log q.room).length :=
    UInt64.toNat_ofNat_of_lt' (Nat.lt_of_le_of_lt hearlier.length_le
      (Nat.lt_trans ordered.length s.nextId.toNat_lt_size))
  have hstored : (old.page q.room q.limit q.offset).messages.map Message.id ⊆
      (s.log q.room).map Message.id :=
    List.map_subset _ (List.Subset.trans (Server.page_sublist _ _ _ _).subset hearlier.subset)
  have reflects := h.toReflects.applyPage active hstored
  have hsame : old.log q.room ≠ [] → (s.log q.room).head? = (old.log q.room).head? :=
    head?_of_prefix hearlier
  refine ⟨reflects, fun _ whole r hr first hfirst => ?_, fun older r hr => ?_⟩
  · obtain rfl : q.room = r := Option.some.inj (active.symm.trans hr)
    have reaches := stems.reaches h.toReflects reflects htotal inTime whole
    have hpage : old.log q.room ≠ [] → q.offset < (old.log q.room).length →
        (old.log q.room).length - q.offset ≤ q.limit → first.id ∈
          (c.applyPage q (old.page q.room q.limit q.offset)).1.timeline.ids := by
      intro hsome hbefore hshort
      rw [hsame hsome] at hfirst
      exact h.mem_ids_applyPage (Server.head_mem_page hfirst hbefore hshort)
    cases hkind : q.kind with
    | newest =>
        have hsome : old.log q.room ≠ [] := by
          intro hnone
          simp only [Page.InTime, hkind, htotal, hnone] at inTime
          rw [inTime rfl] at hfirst
          cases hfirst
        have hbefore : q.offset < (old.log q.room).length := by
          rw [stems.newest hkind]
          exact List.length_pos_of_ne_nil hsome
        exact hpage hsome hbefore (reaches fun _ => hbefore)
    | older =>
        by_cases hbefore : q.offset < (old.log q.room).length
        · exact hpage (stems.some hkind) hbefore (reaches fun _ => hbefore)
        · rw [hsame (stems.some hkind)] at hfirst
          have hshown := stems.whole hkind (Nat.not_lt.1 hbefore) first hfirst
          rw [h.ids_applyPage, hkind]
          exact List.mem_append_right _ hshown
  · obtain rfl : q.room = r := Option.some.inj (active.symm.trans hr)
    intro hnone
    rw [hnone, List.prefix_nil] at hearlier
    rw [applyPage_hasOlder, htotal, hearlier, Bool.and_eq_true] at older
    exact Nat.not_lt_zero _ (of_decide_eq_true older.2)

/-! ## Loads -/

theorem Issues.stems (issues : c.Issues q) (h : c.ShowsStart s.log) (sound : c.Sound)
    (older : q.kind = .older → c.hasOlder = true) : c.Stems s.log q (s.log q.room) where
  earlier := List.prefix_rfl
  limit := issues.limit
  newest kind := by rw [issues.offset, kind]
  some kind := h.older (older kind) q.room issues.awaits.room
  whole kind all m hm := by
    have hoffset : q.offset = c.timeline.length := by
      rw [issues.offset, kind]
      exact h.confirmedCount
    have hnodup : c.timeline.ids.Nodup := Timeline.confirmedIds_eq_ids h.settled ▸ sound.ids
    have hsub := h.stored q.room issues.awaits.room
    have hperm : c.timeline.ids.Perm ((s.log q.room).map Message.id) := by
      refine (List.subperm_of_subset hnodup hsub).perm_of_length_le ?_
      rw [List.length_map, Timeline.ids, List.length_map, ← hoffset]
      exact all
    exact hperm.mem_iff.2 (List.mem_map_of_mem (List.mem_of_mem_head? hm))
  came kind := by
    rw [issues.offset, kind]
    exact Nat.le_of_eq (congrArg (· + _) h.confirmedCount.symm)

theorem inTime_page {user : UserId} (reachable : s.Reachable user) (q : HistoryRequest) :
    (s.page q.room q.limit q.offset).InTime (s.log q.room) q := by
  have htotal : (s.page q.room q.limit q.offset).total.toNat = (s.log q.room).length :=
    (reachable.ordered q.room).total
  unfold Page.InTime
  dsimp only
  rw [htotal]
  cases q.kind with
  | newest => exact List.eq_nil_of_length_eq_zero
  | older =>
      have hlength := s.length_page q.room q.limit q.offset
      dsimp only
      omega

theorem ShowsStart.historyLoaded {user : UserId} (h : c.ShowsStart s.log)
    (reachable : s.Reachable user) (awaits : c.Awaits q)
    (awaited : reach.awaited c s.log q page) (inTime : page.InTime (s.log q.room) q) :
    (c.historyLoaded q (.ok page)).1.ShowsStart s.log := by
  obtain ⟨old, rfl, stems⟩ := awaited
  have hidle : { c with loading := none }.ShowsStart s.log := h.of_view ⟨rfl, rfl, rfl, rfl, rfl⟩
  have hstems : { c with loading := none }.Stems s.log q (old.log q.room) :=
    stems.of_view ⟨rfl, rfl, rfl, rfl, rfl⟩
  rw [historyLoaded_of_awaits awaits]
  exact hidle.applyPage reachable awaits.room hstems inTime

theorem reach_laws : reach.Laws where
  reflects h := h.toReflects
  blank h := h.showsStart
  changed h change := ShowsStart.changed h change
  taken reachable h awaits awaited inTime :=
    ShowsStart.historyLoaded h reachable awaits awaited inTime
  stillAwaited h awaits change awaited := by
    obtain ⟨old, hpage, stems⟩ := awaited
    exact ⟨old, hpage, stems.changed h.toReflects awaits change⟩
  served reachable sound h issues older :=
    ⟨⟨_, rfl, issues.stems h sound fun kind => (older kind).2⟩, inTime_page reachable _⟩

instance : reach.Decides where
  ready log q page := inferInstanceAs (Decidable (page.InTime log q))
  expected t _ m := inferInstanceAs (Decidable (m.id ∈ t.ids))
  older _ _ := inferInstanceAs (Decidable True)
  misses := inferInstanceAs (Decidable False)

end Conversation

namespace Simulation

open Conversation (reach reach_laws)

/-- If in the current stay every message that is stored in the room is brought by its channel at
once, the user's own ones too, and pages that were held back are taken in in time, then once a page
has come either an older one is known of, or the first message of the log is shown. -/
theorem start_shown_or_older_known (identity : Identity) (settings : Settings) (epoch : Int64)
    (entropy : Entropy) (options : Options) (audited : Bool) (s : Simulation)
    (plays : Plays (reach.Permits s.client.conversation.stay)
      (new identity settings epoch entropy options audited) s) :
    let c := s.client.conversation
    c.total.isSome → ∀ room, c.room = some room →
      c.hasOlder = true ∨ ∀ m ∈ (s.server.log room).head?, m.id ∈ c.timeline.ids := by
  intro c come room active
  have rests := reach_laws.plays identity settings epoch entropy options audited _ plays
  have shows := rests.holds.2.2 rfl
  cases hwhole : c.hasOlder with
  | true => exact .inl rfl
  | false => exact .inr (shows.first come hwhole room active)

/-- A message comes while an older page is in flight that leaves two before it, and then the rest is
loaded. -/
theorem start_reached_after_arrival :
    let settings : Settings :=
      { Settings.standard with chat := { ChatSettings.standard with pageSize := 1 } }
    let start := new ⟨1, "me"⟩ settings 0 (.cycle []) .standard true
    ∃ s, Plays (reach.Permits s.client.conversation.stay) start s ∧
      s.client.conversation.timeline.ids = [1, 2, 3, 4, 5] ∧
      s.client.conversation.hasOlder = false ∧
      ∀ m ∈ (s.server.log ⟨1, 2⟩).head?, m.id ∈ s.client.conversation.timeline.ids := by
  intro settings start
  let room : Room := ⟨1, 2⟩
  let moves : List Move := [.store room 2 "a" none, .store room 2 "b" none,
    .store room 2 "c" none, .store room 2 "d" none, .call (.dispatch .start),
    .call (.dispatch (.enterRoom room)), .set ⟨true, true, true, true⟩,
    .call (.dispatch .loadOlder), .bring room 2 "e" none, .release, .set .standard,
    .call (.dispatch .loadOlder), .call (.dispatch .loadOlder)]
  have hends : (start.play (reach.Permits 1) moves).map (fun s =>
      let c := s.client.conversation
      (c.stay, c.timeline.ids, c.hasOlder, c.total.isSome, c.room)) =
      some (1, [1, 2, 3, 4, 5], false, true, some room) := by decide +kernel
  obtain ⟨s, hplay, hs⟩ := Option.map_eq_some_iff.1 hends
  obtain ⟨hstay, hs⟩ := Prod.mk.inj hs
  obtain ⟨hids, hs⟩ := Prod.mk.inj hs
  obtain ⟨hwhole, hs⟩ := Prod.mk.inj hs
  obtain ⟨hcome, hactive⟩ := Prod.mk.inj hs
  have plays : Plays (reach.Permits s.client.conversation.stay) start s := by
    rw [hstay]
    exact Plays.start.play hplay
  have hfirst := start_shown_or_older_known _ _ _ _ _ _ s plays hcome room hactive
  refine ⟨s, plays, hids, hwhole, hfirst.resolve_left fun older => ?_⟩
  rw [hwhole] at older
  cases older

/-- A message comes while an older page is in flight that leaves one before it. It is counted in the
place of that one, which is out of reach from then on. -/
theorem arrival_hides_start :
    let room : Room := ⟨1, 2⟩
    let settings : Settings :=
      { Settings.standard with chat := { ChatSettings.standard with pageSize := 1 } }
    let start := new ⟨1, "me"⟩ settings 0 (.cycle []) ⟨true, true, true, true⟩ true
    let moves : List Move := [.store room 2 "a" none, .store room 2 "b" none,
      .store room 2 "c" none, .call (.dispatch .start), .call (.dispatch (.enterRoom room)),
      .release, .call (.dispatch .loadOlder), .bring room 2 "d" none, .release]
    ∃ s, moves.foldlM move start = .ok s ∧
      (s.server.log room).map Message.id = [1, 2, 3, 4] ∧
      s.client.conversation.total.isSome ∧ s.client.conversation.loading = none ∧
      s.client.conversation.hasOlder = false ∧
      s.client.conversation.timeline.ids = [2, 3, 4] := by
  intro room settings start moves
  have hends : (moves.foldlM move start).toOption.map (fun s =>
      let c := s.client.conversation
      ((s.server.log room).map Message.id, c.total.isSome, c.loading, c.hasOlder,
        c.timeline.ids)) = some ([1, 2, 3, 4], true, none, false, [2, 3, 4]) := by decide +kernel
  cases hs : moves.foldlM move start with
  | error f =>
      rw [hs] at hends
      cases hends
  | ok s =>
      rw [hs] at hends
      obtain ⟨hlog, hs⟩ := Prod.mk.inj (Option.some.inj hends)
      obtain ⟨hcome, hs⟩ := Prod.mk.inj hs
      obtain ⟨hidle, hs⟩ := Prod.mk.inj hs
      obtain ⟨hwhole, hids⟩ := Prod.mk.inj hs
      exact ⟨s, rfl, hlog, hcome, hidle, hwhole, hids⟩

end Simulation

end LiveChat
