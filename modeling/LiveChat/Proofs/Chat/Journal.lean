import LiveChat.Proofs.Chat.Operation
import LiveChat.Proofs.History

/-!
# Runs of a conversation

A journal lists the operations of a run with what they did. From it can be told, without a look at
the counters that the conversation keeps, which load was issued last, whether the stay in which a
request was issued has ended, and whether the request has been answered. The counters agree with the
journal, so an answer counts exactly when the journal says that it is awaited.
-/

namespace LiveChat.Conversation

structure Moment where
  op : Operation
  state : Conversation
  effects : List ChatEffect

abbrev Journal := List Moment

namespace Journal

variable {log : Journal} {m : Moment} {e : ChatEffect} {q : HistoryRequest}

def fetches (log : Journal) : List HistoryRequest :=
  log.flatMap fun m => m.effects.filterMap ChatEffect.fetch?

def Emitted (log : Journal) (e : ChatEffect) : Prop := ∃ m ∈ log, e ∈ m.effects

/-- After the effect was emitted, a room was entered or left. -/
def SwitchedSince (log : Journal) (e : ChatEffect) : Prop :=
  ∃ before m after, log = before ++ m :: after ∧ e ∈ m.effects ∧
    ∃ n ∈ after, n.op.switches = true

def Answered (log : Journal) (q : HistoryRequest) : Prop :=
  ∃ m ∈ log, ∃ result, m.op = .historyLoaded q result

/-- The load issued last, if its stay goes on and it has not been answered. -/
def Awaits (log : Journal) (q : HistoryRequest) : Prop :=
  log.fetches.getLast? = some q ∧ ¬ log.SwitchedSince (.fetch q) ∧ ¬ log.Answered q

theorem fetches_snoc : fetches (log ++ [m]) =
    log.fetches ++ m.effects.filterMap ChatEffect.fetch? := by
  simp [fetches]

theorem mem_fetches_iff : q ∈ log.fetches ↔ log.Emitted (.fetch q) := by
  simp only [fetches, List.mem_flatMap, List.mem_filterMap, Emitted]
  constructor
  · rintro ⟨m, hm, e, he, hq⟩
    cases e <;> cases hq
    exact ⟨m, hm, he⟩
  · rintro ⟨m, hm, he⟩
    exact ⟨m, hm, _, he, rfl⟩

theorem emitted_snoc : Emitted (log ++ [m]) e ↔ log.Emitted e ∨ e ∈ m.effects := by
  simp [Emitted, or_and_right, exists_or]

theorem answered_snoc : Answered (log ++ [m]) q ↔
    log.Answered q ∨ ∃ result, m.op = .historyLoaded q result := by
  simp [Answered, or_and_right, exists_or]

theorem SwitchedSince.emitted (h : log.SwitchedSince e) : log.Emitted e := by
  obtain ⟨before, m, after, rfl, he, -⟩ := h
  exact ⟨m, by simp, he⟩

theorem switchedSince_snoc : SwitchedSince (log ++ [m]) e ↔
    log.SwitchedSince e ∨ (log.Emitted e ∧ m.op.switches = true) := by
  constructor
  · rintro ⟨before, n, after, hlog, he, k, hk, hs⟩
    rcases snoc_eq_split_iff.1 hlog with ⟨-, -, rfl⟩ | ⟨after, rfl, rfl⟩
    · cases hk
    rcases List.mem_append.1 hk with hk | hk
    · exact .inl ⟨before, n, after, rfl, he, k, hk, hs⟩
    · obtain rfl := List.mem_singleton.1 hk
      exact .inr ⟨⟨n, by simp, he⟩, hs⟩
  · rintro (⟨before, n, after, rfl, he, k, hk, hs⟩ | ⟨⟨n, hn, he⟩, hs⟩)
    · exact ⟨before, n, after ++ [m], by simp, he, k, by simp [hk], hs⟩
    · obtain ⟨before, after, rfl⟩ := List.append_of_mem hn
      exact ⟨before, n, after ++ [m], by simp, he, m, by simp, hs⟩

end Journal

/-- The runs of a conversation in which the answers to loads are answers to loads of the run. They
come in any order and any number of times. -/
inductive Run (identity : Identity) (settings : ChatSettings) : Journal → Conversation → Prop
  | start : Run identity settings [] (new identity settings)
  | step {log : Journal} {c c' : Conversation} {op : Operation} {effects : List ChatEffect}
      (run : Run identity settings log c) (perform : c.perform op = .ok (c', effects))
      (answers : ∀ q result, op = .historyLoaded q result → q ∈ log.fetches) :
      Run identity settings (log ++ [⟨op, c', effects⟩]) c'

theorem Run.next {identity : Identity} {settings : ChatSettings} {log : Journal} {c : Conversation}
    (run : Run identity settings log c) (op : Operation) (after : Conversation × List ChatEffect)
    (perform : c.perform op = .ok after)
    (answers : ∀ q result, op = .historyLoaded q result → q ∈ log.fetches) :
    Run identity settings (log ++ [⟨op, after.1, after.2⟩]) after.1 :=
  .step run perform answers

/-! ## The counters agree with the journal -/

structure Tracks (log : Journal) (c : Conversation) : Prop where
  load_le : ∀ q ∈ log.fetches, q.load ≤ c.load
  latest : ∀ q ∈ log.fetches, q.load = c.load ↔ log.fetches.getLast? = some q
  stay_le : ∀ e room stay, log.Emitted e → e.stay? = some (room, stay) → stay ≤ c.stay
  current : ∀ e room stay, log.Emitted e → e.stay? = some (room, stay) →
    (c.isCurrent room stay = true ↔ ¬ log.SwitchedSince e)
  answered : ∀ q, log.Answered q → q ∈ log.fetches
  flight : ∀ q, log.fetches.getLast? = some q → ¬ log.SwitchedSince (.fetch q) →
    (c.loading = some q.kind ∧ ¬ log.Answered q) ∨ (c.loading = none ∧ log.Answered q)

variable {log : Journal} {c c' : Conversation} {op : Operation} {effects : List ChatEffect}

/-- The load in flight is the one that the journal awaits. -/
theorem Tracks.awaits_iff (h : Tracks log c) {q : HistoryRequest} (hq : q ∈ log.fetches) :
    c.Awaits q ↔ log.Awaits q := by
  have hcurrent := h.current (.fetch q) q.room q.stay (Journal.mem_fetches_iff.1 hq) rfl
  constructor
  · rintro ⟨hroom, hstay, hload, hloading⟩
    have hlast := (h.latest q hq).1 hload
    have hstays := hcurrent.1 (isCurrent_iff.2 ⟨hroom, hstay⟩)
    rcases h.flight q hlast hstays with ⟨-, hopen⟩ | ⟨hnone, -⟩
    · exact ⟨hlast, hstays, hopen⟩
    · rw [hnone] at hloading
      cases hloading
  · rintro ⟨hlast, hstays, hopen⟩
    obtain ⟨hroom, hstay⟩ := isCurrent_iff.1 (hcurrent.2 hstays)
    rcases h.flight q hlast hstays with ⟨hloading, -⟩ | ⟨-, hanswered⟩
    · exact ⟨hroom, hstay, (h.latest q hq).2 hlast, hloading⟩
    · exact absurd hanswered hopen

theorem tracks_start (identity : Identity) (settings : ChatSettings) :
    Tracks [] (new identity settings) where
  load_le := nofun
  latest := nofun
  stay_le := by rintro e room stay ⟨m, hm, -⟩; cases hm
  current := by rintro e room stay ⟨m, hm, -⟩; cases hm
  answered := by rintro q ⟨m, hm, -⟩; cases hm
  flight := nofun

theorem Tracks.stay_step (h : Tracks log c) (step : StayStep c c' op effects) {e : ChatEffect}
    {room : Room} {stay : Nat} (he : Journal.Emitted (log ++ [⟨op, c', effects⟩]) e)
    (hs : e.stay? = some (room, stay)) :
    stay ≤ c'.stay ∧ (c'.isCurrent room stay = true ↔
      ¬ Journal.SwitchedSince (log ++ [⟨op, c', effects⟩]) e) := by
  rw [Journal.switchedSince_snoc, isCurrent_iff]
  rw [Journal.emitted_snoc] at he
  cases step with
  | on switches hroom hstay requests =>
      simp only [switches, Bool.false_eq_true, and_false, or_false]
      by_cases hold : log.Emitted e
      · rw [hroom, hstay, ← isCurrent_iff]
        exact ⟨h.stay_le e room stay hold hs, h.current e room stay hold hs⟩
      · obtain ⟨hr, ht⟩ := requests e (he.resolve_left hold) room stay hs
        exact ⟨Nat.le_of_eq ht.symm, iff_of_true ⟨hr, ht⟩ fun hsw => hold hsw.emitted⟩
  | away switches hroom same =>
      have hold : log.Emitted e := he.resolve_right (by simp)
      rw [same, hroom]
      exact ⟨h.stay_le e room stay hold hs, by simp [hold, switches]⟩
  | next switches hstay requests =>
      by_cases hold : log.Emitted e
      · have hle := h.stay_le e room stay hold hs
        refine ⟨by omega, iff_of_false (fun hc => ?_) (not_not_intro (.inr ⟨hold, switches⟩))⟩
        have := hc.2
        omega
      · obtain ⟨hr, ht⟩ := requests e (he.resolve_left hold) room stay hs
        refine ⟨Nat.le_of_eq ht.symm, iff_of_true ⟨hr, ht⟩ ?_⟩
        rintro (hsw | ⟨hem, -⟩)
        · exact hold hsw.emitted
        · exact hold hem

theorem Tracks.flight_step (h : Tracks log c)
    (step : LoadStep c c' op (effects.filterMap ChatEffect.fetch?))
    (answers : ∀ q result, op = .historyLoaded q result → q ∈ log.fetches) {q : HistoryRequest}
    (hlast : (Journal.fetches (log ++ [⟨op, c', effects⟩])).getLast? = some q)
    (hstays : ¬ Journal.SwitchedSince (log ++ [⟨op, c', effects⟩]) (.fetch q)) :
    (c'.loading = some q.kind ∧ ¬ Journal.Answered (log ++ [⟨op, c', effects⟩]) q) ∨
      (c'.loading = none ∧ Journal.Answered (log ++ [⟨op, c', effects⟩]) q) := by
  rw [Journal.switchedSince_snoc, not_or] at hstays
  rw [Journal.fetches_snoc] at hlast
  rw [Journal.answered_snoc]
  generalize effects.filterMap ChatEffect.fetch? = issued at step hlast
  cases step with
  | kept unawaited _ loading =>
      rw [List.append_nil] at hlast
      rw [loading]
      rcases h.flight q hlast hstays.1 with ⟨hloading, hopen⟩ | ⟨hnone, hdone⟩
      · refine .inl ⟨hloading, not_or.2 ⟨hopen, ?_⟩⟩
        rintro ⟨result, hop⟩
        exact unawaited q result hop
          ((h.awaits_iff (List.mem_of_getLast? hlast)).2 ⟨hlast, hstays.1, hopen⟩)
      · exact .inr ⟨hnone, .inl hdone⟩
  | ended switches =>
      rw [List.append_nil] at hlast
      have hem := Journal.mem_fetches_iff.1 (List.mem_of_getLast? hlast)
      exact absurd ⟨hem, switches⟩ hstays.2
  | @answered r result awaited _ loading =>
      rw [List.append_nil] at hlast
      have hr := (h.awaits_iff (answers r result rfl)).1 awaited
      obtain rfl : r = q := Option.some.inj (hr.1.symm.trans hlast)
      exact .inr ⟨loading, .inr ⟨result, rfl⟩⟩
  | @issued _ r number _ loading =>
      obtain rfl : r = q := by simpa using hlast
      have hfresh : r ∉ log.fetches := fun hr => by
        have := h.load_le r hr
        omega
      refine .inl ⟨loading, not_or.2 ⟨fun hd => hfresh (h.answered r hd), ?_⟩⟩
      rintro ⟨result, hop⟩
      exact hfresh (answers r result hop)

theorem Tracks.latest_step (h : Tracks log c)
    (step : LoadStep c c' op (effects.filterMap ChatEffect.fetch?)) {q : HistoryRequest}
    (hq : q ∈ Journal.fetches (log ++ [⟨op, c', effects⟩])) :
    q.load ≤ c'.load ∧ (q.load = c'.load ↔
      (Journal.fetches (log ++ [⟨op, c', effects⟩])).getLast? = some q) := by
  rw [Journal.fetches_snoc] at hq ⊢
  generalize effects.filterMap ChatEffect.fetch? = issued at step hq
  cases step with
  | kept _ load | ended _ load | answered _ load =>
      rw [List.append_nil] at hq
      rw [load, List.append_nil]
      exact ⟨h.load_le q hq, h.latest q hq⟩
  | @issued _ r number load =>
      rw [load, number]
      rcases List.mem_append.1 hq with hq | hq
      · have hle := h.load_le q hq
        refine ⟨by omega, iff_of_false (by omega) fun hlast => ?_⟩
        obtain rfl : r = q := by simpa using hlast
        omega
      · obtain rfl := List.mem_singleton.1 hq
        exact ⟨Nat.le_of_eq number, by simp [number]⟩

theorem Run.tracks {identity : Identity} {settings : ChatSettings}
    (run : Run identity settings log c) : Tracks log c := by
  induction run with
  | start => exact tracks_start identity settings
  | @step log c c' op effects run perform answers ih =>
      obtain ⟨stay, load⟩ := perform_steps perform
      refine ⟨fun q hq => (ih.latest_step load hq).1, fun q hq => (ih.latest_step load hq).2,
        fun e room s he hs => (ih.stay_step stay he hs).1,
        fun e room s he hs => (ih.stay_step stay he hs).2, fun q hq => ?_,
        fun q hlast hstays => ih.flight_step load answers hlast hstays⟩
      rw [Journal.fetches_snoc, List.mem_append]
      rcases Journal.answered_snoc.1 hq with hold | ⟨result, hop⟩
      · exact .inl (ih.answered q hold)
      · exact .inl (answers q result hop)

theorem Run.settings_eq {identity : Identity} {settings : ChatSettings}
    (run : Run identity settings log c) : c.settings = settings := by
  induction run with
  | start => rfl
  | step _ perform _ ih => exact (perform_settings perform).trans ih

/-- The last operation of a run came upon a conversation that the rest of the run leads to. -/
theorem Run.of_snoc {identity : Identity} {settings : ChatSettings} {m : Moment}
    (run : Run identity settings (log ++ [m]) c) :
    ∃ before, Run identity settings log before ∧
      before.perform m.op = .ok (c, m.effects) ∧ m.state = c ∧
      ∀ q result, m.op = .historyLoaded q result → q ∈ log.fetches := by
  generalize hlog : log ++ [m] = log' at run
  cases run with
  | start => simp at hlog
  | step run perform answers =>
      obtain ⟨rfl, hm⟩ := List.append_inj' hlog rfl
      obtain rfl := List.head_eq_of_cons_eq hm
      exact ⟨_, run, perform, rfl, answers⟩

/-- A conversation that awaits a load right after one was issued awaits that one. -/
theorem Tracks.eq_of_issued {m : Moment} {q r : HistoryRequest} (h : Tracks (log ++ [m]) c)
    (issued : m.effects.filterMap ChatEffect.fetch? = [r])
    (hq : q ∈ Journal.fetches (log ++ [m])) (awaits : c.Awaits q) : q = r := by
  have hlast := (h.latest q hq).1 awaits.load
  rw [Journal.fetches_snoc, issued, List.getLast?_concat] at hlast
  exact (Option.some.inj hlast).symm

/-! ## Late answers -/

theorem posted_of_not_current {r : PostRequest} (h : c.isCurrent r.room r.stay ≠ true)
    (result : Except RequestError Message) : c.posted r result = (c, []) := by
  unfold posted
  rw [if_pos (by simpa using h)]

/-- The answer to a load counts exactly if the load was issued last, its stay goes on and it has not
been answered; it then ends the loading, and a failed one does nothing else. The answer to a post of
an earlier stay does nothing. -/
theorem answers_count_only_while_awaited (identity : Identity) (settings : ChatSettings)
    (log : Journal) (c : Conversation) (run : Run identity settings log c) :
    (∀ q ∈ log.fetches, ∀ result,
      (log.Awaits q →
        c.loading = some q.kind ∧ (c.historyLoaded q result).1.loading = none ∧
          ∀ e, result = .error e → c.historyLoaded q result = ({ c with loading := none }, [])) ∧
      (¬ log.Awaits q → c.historyLoaded q result = (c, []))) ∧
    ∀ r, log.Emitted (.post r) → log.SwitchedSince (.post r) →
      ∀ result, c.posted r result = (c, []) := by
  have tracks := run.tracks
  refine ⟨fun q hq result => ⟨fun hawaits => ?_, fun hawaits => ?_⟩, fun r hr hs result => ?_⟩
  · have hc := (tracks.awaits_iff hq).2 hawaits
    refine ⟨hc.loading, ?_, fun e he => ?_⟩
    · rw [historyLoaded_of_awaits hc]
      cases result <;> rfl
    · rw [historyLoaded_of_awaits hc, he]
  · exact historyLoaded_of_not_awaits (fun hc => hawaits ((tracks.awaits_iff hq).1 hc)) result
  · refine posted_of_not_current (fun hc => ?_) result
    exact (tracks.current (.post r) r.room r.stay hr rfl).1 hc hs

/-- The room is entered again while the page of the first stay is still under way. -/
theorem answers_on_return :
    let room : Room := ⟨1, 2⟩
    let first : HistoryRequest := ⟨room, 1, 1, .newest, 30, 0⟩
    let second : HistoryRequest := ⟨room, 2, 2, .newest, 30, 0⟩
    let entered := (new ⟨1, "ada"⟩ .standard).enter room
    let returned := entered.1.enter room
    let log : Journal :=
      [⟨.enter room, entered.1, entered.2⟩, ⟨.enter room, returned.1, returned.2⟩]
    Run ⟨1, "ada"⟩ .standard log returned.1 ∧ first ∈ log.fetches ∧ second ∈ log.fetches ∧
      (∀ result, returned.1.historyLoaded first result = (returned.1, [])) ∧
      ∀ result, (returned.1.historyLoaded second result).1.loading = none := by
  intro room first second entered returned log
  have run : Run ⟨1, "ada"⟩ .standard log returned.1 :=
    .step (.step .start rfl (by intro q result h; cases h)) rfl (by intro q result h; cases h)
  have hfirst : first ∈ log.fetches := by decide
  have hsecond : second ∈ log.fetches := by decide
  have answers := answers_count_only_while_awaited ⟨1, "ada"⟩ .standard log returned.1 run
  refine ⟨run, hfirst, hsecond, fun result => ?_, fun result => ?_⟩
  · refine (answers.1 first hfirst result).2 fun h => ?_
    exact absurd h.1 (by decide)
  · have hawaits : log.Awaits second := (run.tracks.awaits_iff hsecond).1 ⟨rfl, rfl, rfl, rfl⟩
    exact ((answers.1 second hsecond result).1 hawaits).2.1

end LiveChat.Conversation
