import LiveChat.Proofs.Chat.Journal

/-!
# Messages that arrive during a load

A message can become a confirmed entry while a load of history is in flight, and the page may have
been put together before the service had it. An older page is put in front and never takes the entry
away. The newest page stands in the place of all confirmed entries, so the entry is left exactly if
the page holds it.
-/

namespace LiveChat.Conversation

def Operation.Brings (id : MessageId) : Operation → Prop
  | .received m => m.id = id
  | .posted _ (.ok m) => m.id = id
  | _ => False

/-- After the load was issued, a message of this number was brought and became a confirmed entry. -/
def Journal.ArrivedSince (log : Journal) (q : HistoryRequest) (id : MessageId) : Prop :=
  ∃ before m after, log = before ++ m :: after ∧ .fetch q ∈ m.effects ∧
    ∃ n ∈ after, n.op.Brings id ∧ id ∈ n.state.timeline.confirmedIds

variable {log : Journal} {c c' : Conversation} {op : Operation} {effects : List ChatEffect}
  {q : HistoryRequest} {id : MessageId}

theorem Journal.arrivedSince_snoc {m : Moment} (h : Journal.ArrivedSince (log ++ [m]) q id) :
    q ∈ log.fetches ∧ (log.ArrivedSince q id ∨ id ∈ m.state.timeline.confirmedIds) := by
  obtain ⟨before, n, after, hlog, he, k, hk, hbrings, hid⟩ := h
  rcases snoc_eq_split_iff.1 hlog with ⟨-, -, rfl⟩ | ⟨after, rfl, rfl⟩
  · cases hk
  refine ⟨Journal.mem_fetches_iff.2 ⟨n, by simp, he⟩, ?_⟩
  rcases List.mem_append.1 hk with hk | hk
  · exact .inl ⟨before, n, after, rfl, he, k, hk, hbrings, hid⟩
  · obtain rfl := List.mem_singleton.1 hk
    exact .inr hid

theorem Tracks.awaits_of_snoc (h : Tracks log c)
    (step : LoadStep c c' op (effects.filterMap ChatEffect.fetch?)) (hq : q ∈ log.fetches)
    (awaits : Journal.Awaits (log ++ [⟨op, c', effects⟩]) q) : log.Awaits q := by
  obtain ⟨hlast, hstays, hopen⟩ := awaits
  rw [Journal.switchedSince_snoc, not_or] at hstays
  rw [Journal.answered_snoc, not_or] at hopen
  refine ⟨?_, hstays.1, hopen.1⟩
  rw [Journal.fetches_snoc] at hlast
  generalize effects.filterMap ChatEffect.fetch? = issued at step hlast
  cases step with
  | kept | ended | answered => simpa using hlast
  | @issued _ r number =>
      obtain rfl : r = q := by simpa using hlast
      have := h.load_le r hq
      omega

theorem TimelineStep.confirmedIds_subset (step : TimelineStep c c' op)
    (stays : op.switches = false) (unanswered : ∀ r result, op = .historyLoaded r result →
      ¬ c.Awaits r) (hid : id ∈ c.timeline.confirmedIds) : id ∈ c'.timeline.confirmedIds := by
  cases step with
  | edited _ edit => exact edit.confirmedIds_subset hid
  | cleared switches => rw [stays] at switches; cases switches
  | reloaded awaited => exact absurd awaited (unanswered _ _ rfl)
  | sent _ _ timeline => simp [timeline, hid]

theorem Run.arrived_mem {identity : Identity} {settings : ChatSettings}
    (run : Run identity settings log c) (awaits : log.Awaits q) (arrived : log.ArrivedSince q id) :
    id ∈ c.timeline.confirmedIds := by
  induction run with
  | start =>
      obtain ⟨before, m, after, hlog, -⟩ := arrived
      simp at hlog
  | @step log c c' op effects run perform answers ih =>
      obtain ⟨hq, harrived | hid⟩ := Journal.arrivedSince_snoc arrived
      · have hprev := run.tracks.awaits_of_snoc (perform_steps perform).2 hq awaits
        obtain ⟨-, hstays, hopen⟩ := awaits
        rw [Journal.switchedSince_snoc, not_or] at hstays
        rw [Journal.answered_snoc, not_or] at hopen
        refine (perform_timelineStep perform).confirmedIds_subset ?_ ?_ (ih hprev harrived)
        · have hem := Journal.mem_fetches_iff.1 hq
          simpa [hem] using hstays.2
        · rintro r result rfl hawaits
          have hr := (run.tracks.awaits_iff (answers r result rfl)).1 hawaits
          obtain rfl : r = q := Option.some.inj (hr.1.symm.trans hprev.1)
          exact hopen.2 ⟨result, rfl⟩
      · exact hid

/-- A message that arrived during a load is still there after an older page, and after the newest
page exactly if the page holds it. -/
theorem arrivals_after_page (identity : Identity) (settings : ChatSettings) (log : Journal)
    (c : Conversation) (run : Run identity settings log c) (q : HistoryRequest)
    (awaits : log.Awaits q) (id : MessageId) (arrived : log.ArrivedSince q id) (page : Page) :
    (q.kind = .older → id ∈ (c.historyLoaded q (.ok page)).1.timeline.confirmedIds) ∧
    (q.kind = .newest → (id ∈ (c.historyLoaded q (.ok page)).1.timeline.confirmedIds ↔
      id ∈ page.messages.map Message.id)) := by
  have hq : q ∈ log.fetches := List.mem_of_getLast? awaits.1
  have hawaits := (run.tracks.awaits_iff hq).2 awaits
  have hid := run.arrived_mem awaits arrived
  rw [historyLoaded_of_awaits hawaits]
  constructor
  · intro older
    simp only [applyPage_older older]
    exact (missing_edit _ _ _).confirmedIds_subset hid
  · intro newest
    simp only [applyPage_newest newest]
    exact Timeline.mem_confirmedIds_reload

theorem arrival_kept_by_page :
    let room : Room := ⟨1, 2⟩
    let m : Message := ⟨7, none, some 2, none, none, "hi", .text, 0, none⟩
    let load : HistoryRequest := ⟨room, 1, 1, .newest, 30, 0⟩
    let entered := (new ⟨1, "ada"⟩ .standard).enter room
    let heard := entered.1.received m
    let log : Journal := [⟨.enter room, entered.1, entered.2⟩, ⟨.received m, heard.1, heard.2⟩]
    Run ⟨1, "ada"⟩ .standard log heard.1 ∧ log.Awaits load ∧ log.ArrivedSince load 7 ∧
      7 ∈ (heard.1.historyLoaded load (.ok ⟨[m], 1⟩)).1.timeline.confirmedIds := by
  intro room m load entered heard log
  have run : Run ⟨1, "ada"⟩ .standard log heard.1 :=
    .step (.step .start rfl (by intro q result h; cases h)) rfl (by intro q result h; cases h)
  have awaits : log.Awaits load := (run.tracks.awaits_iff (by decide)).1 ⟨rfl, rfl, rfl, rfl⟩
  have arrived : log.ArrivedSince load 7 :=
    ⟨[], _, _, rfl, by decide, _, List.mem_singleton_self _, rfl, by decide⟩
  have after := arrivals_after_page ⟨1, "ada"⟩ .standard log heard.1 run load awaits 7 arrived
    ⟨[m], 1⟩
  exact ⟨run, awaits, arrived, (after.2 rfl).2 (by decide)⟩

/-- The newest page drops a message that arrived during its load when the page is older. -/
theorem newest_page_drops_arrival :
    ¬ ∀ (identity : Identity) (settings : ChatSettings) (log : Journal) (c : Conversation),
      Run identity settings log c → ∀ q, log.Awaits q → ∀ id, log.ArrivedSince q id →
        ∀ page, id ∈ (c.historyLoaded q (.ok page)).1.timeline.confirmedIds := by
  intro kept
  let room : Room := ⟨1, 2⟩
  let m : Message := ⟨7, none, some 2, none, none, "hi", .text, 0, none⟩
  let entered := (new ⟨1, "ada"⟩ .standard).enter room
  let heard := entered.1.received m
  let log : Journal := [⟨.enter room, entered.1, entered.2⟩, ⟨.received m, heard.1, heard.2⟩]
  have run : Run ⟨1, "ada"⟩ .standard log heard.1 :=
    .step (.step .start rfl (by intro q result h; cases h)) rfl (by intro q result h; cases h)
  have awaits : log.Awaits ⟨room, 1, 1, .newest, 30, 0⟩ :=
    (run.tracks.awaits_iff (by decide)).1 ⟨rfl, rfl, rfl, rfl⟩
  have arrived : log.ArrivedSince ⟨room, 1, 1, .newest, 30, 0⟩ 7 :=
    ⟨[], _, _, rfl, by decide, _, List.mem_singleton_self _, rfl, by decide⟩
  have hmem := kept ⟨1, "ada"⟩ .standard log heard.1 run _ awaits 7 arrived ⟨[], 0⟩
  exact absurd hmem (by decide)

end LiveChat.Conversation
