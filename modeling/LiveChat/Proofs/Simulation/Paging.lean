import LiveChat.Proofs.Chat.Journal
import LiveChat.Proofs.Simulation.Server
import Mathlib.Data.List.Induction
import Mathlib.Logic.Function.Iterate

/-!
# Paging through the log of a room

While the log of a room stays the same, the loads of a stay show an end of it: the newest page shows
the last messages, and an older page continues them without a gap, since it leaves out as many of
the newest messages as are shown. Answers that are not awaited do nothing, so neither their order
nor their repetition matters.
-/

namespace LiveChat

open Conversation (Operation Journal Moment)

namespace Simulation.Server

variable {s : Server} {room : Room} {front tail : List Message}

/-- The page before an end of the log is the end of what is left. -/
theorem page_before (split : s.log room = front ++ tail) (limit : Nat) :
    s.page room limit tail.length =
      ⟨front.drop (front.length - limit), .ofNat (s.log room).length⟩ := by
  have hstop : (s.log room).length - tail.length = front.length := by
    rw [split, List.length_append, Nat.add_sub_cancel]
  unfold page
  dsimp only
  rw [hstop, split, List.take_left']
  rfl

end Simulation.Server

namespace Conversation

open Simulation (Server)

variable {identity : Identity} {settings : ChatSettings} {s : Server} {room : Room}
  {c c' : Conversation} {shown : List Message} {q : HistoryRequest}

/-! ## What is shown of a log -/

/-- The timeline shows an end of the log of the room and nothing else. -/
structure Shows (c : Conversation) (s : Server) (room : Room) (shown : List Message) : Prop where
  active : c.room = some room
  suffix : shown <:+ s.log room
  timeline : c.timeline = shown.map (Entry.ofMessage room.number)

namespace Shows

theorem ids (h : c.Shows s room shown) : c.timeline.ids <:+ (s.log room).map Message.id := by
  rw [h.timeline, Timeline.ids_ofMessages]
  exact h.suffix.map Message.id

theorem length (h : c.Shows s room shown) : c.timeline.length = shown.length := by
  rw [h.timeline, List.length_map]

theorem confirmedCount (h : c.Shows s room shown) :
    c.timeline.confirmedCount = c.timeline.length := by
  rw [h.timeline, Timeline.confirmedCount_ofMessages, List.length_map]

end Shows

/-- A load asks for the page that comes next after what is shown, or for the newest one. -/
structure Asks (c : Conversation) (q : HistoryRequest) : Prop where
  limit : q.limit = c.settings.pageSize
  offset : q.offset = match q.kind with
    | .newest => 0
    | .older => c.timeline.length

/-- There is an older page exactly if not all of the log is shown. -/
def KnowsOlder (c : Conversation) (s : Server) (room : Room) : Prop :=
  c.hasOlder = true ↔ c.timeline.length < (s.log room).length

/-- The messages that stay while a page is taken in. -/
def kept (kind : LoadKind) (shown : List Message) : List Message :=
  match kind with
  | .newest => []
  | .older => shown

theorem length_kept (h : c.Shows s room shown) (asks : c.Asks q) :
    (kept q.kind shown).length = q.offset := by
  rw [asks.offset]
  unfold kept
  cases q.kind with
  | newest => rfl
  | older => exact h.length.symm

theorem kept_suffix (h : c.Shows s room shown) (kind : LoadKind) :
    kept kind shown <:+ s.log room := by
  cases kind with
  | newest => exact List.nil_suffix
  | older => exact h.suffix

theorem applyPage_hasOlder (q : HistoryRequest) (page : Page) :
    (c.applyPage q page).1.hasOlder = (decide (c.settings.pageSize ≤ page.messages.length) &&
      decide ((c.applyPage q page).1.timeline.confirmedCount < page.total.toNat)) := rfl

/-- A page of messages that are not shown is put in front of what stays. -/
theorem timeline_applyPage (h : c.Shows s room shown) (here : q.room = room) (page : Page)
    (nodup : ((page.messages ++ kept q.kind shown).map Message.id).Nodup) :
    (c.applyPage q page).1.timeline =
      (page.messages ++ kept q.kind shown).map (Entry.ofMessage room.number) := by
  rw [List.map_append, List.nodup_append] at nodup
  obtain ⟨hpage, -, hnew⟩ := nodup
  cases hkind : q.kind with
  | newest =>
      rw [applyPage_newest hkind, here, Timeline.reload, Timeline.fresh_eq_self hpage (by simp),
        h.timeline, Timeline.pending_ofMessages, kept, List.append_nil, List.append_nil]
  | older =>
      rw [hkind] at hnew
      have hfresh : ∀ id ∈ page.messages.map Message.id, id ∉ c.timeline.ids := by
        rw [h.timeline, Timeline.ids_ofMessages]
        exact fun id hid hid' => hnew id hid id hid' rfl
      rw [applyPage_older hkind, here, Timeline.missing, Timeline.fresh_eq_self hpage hfresh,
        h.timeline, kept, List.map_append]

theorem Shows.applyPage (h : c.Shows s room shown) {user : UserId} (reachable : s.Reachable user)
    (asks : c.Asks q) (here : q.room = room) :
    (∃ shown', (c.applyPage q (s.page room q.limit q.offset)).1.Shows s room shown' ∧
      shown'.length = q.offset + min c.settings.pageSize ((s.log room).length - q.offset)) ∧
    (c.applyPage q (s.page room q.limit q.offset)).1.KnowsOlder s room := by
  have ordered := reachable.ordered room
  obtain ⟨front, split⟩ := kept_suffix h q.kind
  have hkept := length_kept h asks
  have hlog : (s.log room).length = front.length + q.offset := by
    rw [← split, List.length_append, hkept]
  have hpage : s.page room q.limit q.offset =
      ⟨front.drop (front.length - c.settings.pageSize), .ofNat (s.log room).length⟩ := by
    rw [← hkept, asks.limit]
    exact Server.page_before split.symm _
  rw [hpage]
  generalize hmessages : front.drop (front.length - c.settings.pageSize) = messages
  have hlength : messages.length = min c.settings.pageSize front.length := by
    rw [← hmessages, List.length_drop]
    omega
  have hsuffix : messages ++ kept q.kind shown <:+ s.log room := by
    rw [← split, ← hmessages]
    exact ⟨front.take _, by rw [← List.append_assoc, List.take_append_drop]⟩
  have htimeline := timeline_applyPage h here ⟨messages, .ofNat (s.log room).length⟩
    ((hsuffix.map Message.id).sublist.nodup ordered.nodup)
  refine ⟨⟨_, ⟨h.active, hsuffix, htimeline⟩, ?_⟩, ?_⟩
  · rw [List.length_append, hlength, hkept, hlog]
    omega
  · have hcount := congrArg Timeline.confirmedCount htimeline
    rw [Timeline.confirmedCount_ofMessages] at hcount
    have hall := congrArg List.length htimeline
    rw [List.length_map] at hall
    unfold KnowsOlder
    rw [applyPage_hasOlder, hcount, hall, ordered.total, Bool.and_eq_true, decide_eq_true_iff,
      decide_eq_true_iff, List.length_append, hkept, hlength, hlog]
    omega

/-! ## Loads -/

theorem beginLoad_asks (h : c.Shows s room shown) (kind : LoadKind) :
    ∃ q, (c.beginLoad room kind).2 = [.fetch q] ∧ q.kind = kind ∧
      (c.beginLoad room kind).1.Awaits q ∧ (c.beginLoad room kind).1.Asks q := by
  refine ⟨_, rfl, rfl, ⟨h.active, rfl, rfl, rfl⟩, rfl, ?_⟩
  cases kind with
  | newest => rfl
  | older => exact h.confirmedCount

theorem loadOlder_of_busy (busy : c.loading ≠ none) : c.loadOlder = (c, []) := by
  unfold loadOlder
  cases c.room with
  | none => rfl
  | some room => simp [Option.isSome_iff_ne_none.2 busy]

theorem loadOlder_of_whole (whole : c.hasOlder = false) : c.loadOlder = (c, []) := by
  unfold loadOlder
  cases c.room with
  | none => rfl
  | some room => simp [whole]

theorem loadOlder_of_idle (active : c.room = some room) (idle : c.loading = none)
    (older : c.hasOlder = true) : c.loadOlder = c.beginLoad room .older := by
  simp [loadOlder, active, idle, older]

/-! ## Taking in a page -/

structure Rests (c : Conversation) (s : Server) (room : Room) : Prop where
  shows : ∃ shown, c.Shows s room shown
  idle : c.loading = none
  older : c.KnowsOlder s room

variable {user : UserId}

def takePage (s : Server) (c : Conversation) (q : HistoryRequest) : Conversation :=
  (c.historyLoaded q (.ok (s.page q.room q.limit q.offset))).1

theorem Shows.takePage (h : c.Shows s room shown) (reachable : s.Reachable user)
    (awaits : c.Awaits q) (asks : c.Asks q) :
    (c.takePage s q).Rests s room ∧ (c.takePage s q).settings = c.settings ∧
      (c.takePage s q).timeline.length =
        q.offset + min c.settings.pageSize ((s.log room).length - q.offset) := by
  have here : q.room = room := Option.some.inj (awaits.room.symm.trans h.active)
  have hidle : { c with loading := none }.Shows s room shown := ⟨h.active, h.suffix, h.timeline⟩
  have hasks : { c with loading := none }.Asks q := ⟨asks.limit, asks.offset⟩
  obtain ⟨⟨shown', hshows, hlength⟩, hknows⟩ := hidle.applyPage reachable hasks here
  unfold Conversation.takePage
  rw [historyLoaded_of_awaits awaits, here]
  exact ⟨⟨⟨shown', hshows⟩, rfl, hknows⟩, rfl, hshows.length.trans hlength⟩

/-! ## Paging back -/

/-- Asks for the page before what is shown, and takes it in. -/
def pageBack (s : Server) (c : Conversation) : Conversation :=
  (c.loadOlder.2.filterMap ChatEffect.fetch?).foldl (takePage s) c.loadOlder.1

namespace Rests

theorem length_le (h : c.Rests s room) : c.timeline.length ≤ (s.log room).length := by
  obtain ⟨shown, hshows⟩ := h.shows
  rw [hshows.length]
  exact hshows.suffix.length_le

theorem loadOlder_of_whole (h : c.Rests s room) (whole : c.timeline.length = (s.log room).length) :
    c.loadOlder = (c, []) := by
  refine Conversation.loadOlder_of_whole (Bool.eq_false_iff.2 fun older => ?_)
  exact Nat.ne_of_lt (h.older.1 older) whole

theorem pageBack (h : c.Rests s room) (reachable : s.Reachable user) :
    (c.pageBack s).Rests s room ∧ (c.pageBack s).settings = c.settings ∧
      (c.pageBack s).timeline.length = c.timeline.length +
        min c.settings.pageSize ((s.log room).length - c.timeline.length) := by
  unfold Conversation.pageBack
  by_cases whole : c.timeline.length = (s.log room).length
  · rw [h.loadOlder_of_whole whole]
    refine ⟨h, rfl, ?_⟩
    rw [whole, Nat.sub_self, Nat.min_zero]
    exact whole
  · have older : c.hasOlder = true := h.older.2 (Nat.lt_of_le_of_ne h.length_le whole)
    obtain ⟨shown, hshows⟩ := h.shows
    obtain ⟨q, heffects, hkind, awaits, asks⟩ := beginLoad_asks hshows .older
    have hloading : (c.beginLoad room .older).1.Shows s room shown :=
      ⟨hshows.active, hshows.suffix, hshows.timeline⟩
    have hoffset : q.offset = c.timeline.length := by rw [asks.offset, hkind]; rfl
    rw [loadOlder_of_idle hshows.active h.idle older, heffects]
    have htaken := hloading.takePage reachable awaits asks
    rw [hoffset] at htaken
    exact htaken

/-- Paging back shows a page more each time until the whole log is shown. -/
theorem iterate (h : c.Rests s room) (reachable : s.Reachable user) (n : Nat) :
    ((Conversation.pageBack s)^[n] c).Rests s room ∧
      ((Conversation.pageBack s)^[n] c).settings = c.settings ∧
      ((Conversation.pageBack s)^[n] c).timeline.length =
        min (s.log room).length (c.timeline.length + n * c.settings.pageSize) := by
  induction n with
  | zero =>
      refine ⟨h, rfl, ?_⟩
      have := h.length_le
      show c.timeline.length = _
      omega
  | succ n ih =>
      obtain ⟨hrests, hsettings, hlength⟩ := ih
      obtain ⟨hrests', hsettings', hlength'⟩ := hrests.pageBack reachable
      rw [Function.iterate_succ_apply']
      refine ⟨hrests', hsettings'.trans hsettings, ?_⟩
      rw [hlength', hsettings, hlength, Nat.succ_mul]
      omega

end Rests

/-! ## Stays -/

/-- Whether an operation pages through the log of a room: it loads history, or it is the answer to
a load, which if the load belongs to the stay brings the page as the service has it. -/
def Operation.Pages (s : Server) (room : Room) (stay : Nat) : Operation → Prop
  | .loadOlder | .loadNewest => True
  | .historyLoaded q (.ok page) =>
    q.room = room → q.stay = stay → page = s.page room q.limit q.offset
  | .historyLoaded _ (.error _) => True
  | _ => False

/-- A page was taken in: the answer to a load came while the load was awaited. -/
def Journal.Paged (before after : Journal) : Prop :=
  ∃ earlier m later, after = earlier ++ m :: later ∧
    ∃ q page, m.op = .historyLoaded q (.ok page) ∧ Journal.Awaits (before ++ earlier) q

theorem Journal.paged_snoc {before after : Journal} {m : Moment} :
    before.Paged (after ++ [m]) ↔ before.Paged after ∨
      ∃ q page, m.op = .historyLoaded q (.ok page) ∧ Journal.Awaits (before ++ after) q := by
  constructor
  · rintro ⟨earlier, n, later, heq, hpage⟩
    rcases snoc_eq_split_iff.1 heq with ⟨rfl, rfl, -⟩ | ⟨later', -, hafter⟩
    · exact .inr hpage
    · exact .inl ⟨earlier, n, later', hafter, hpage⟩
  · rintro (⟨earlier, n, later, rfl, hpage⟩ | hpage)
    · exact ⟨earlier, n, later ++ [m], by simp, hpage⟩
    · exact ⟨after, m, [], rfl, hpage⟩

theorem Journal.paged_snoc_of_ne {before after : Journal} {m : Moment}
    (other : ∀ q page, m.op ≠ .historyLoaded q (.ok page)) :
    before.Paged (after ++ [m]) ↔ before.Paged after := by
  rw [Journal.paged_snoc, or_iff_left]
  rintro ⟨q, page, hop, -⟩
  exact other q page hop

/-- What holds throughout a stay in which only pages are loaded. -/
structure Browses (s : Server) (room : Room) (stay : Nat) (log : Journal) (paged : Prop)
    (c : Conversation) : Prop where
  shows : ∃ shown, c.Shows s room shown
  stay : c.stay = stay
  unpaged : ¬ paged → c.timeline = [] ∧ c.hasOlder = false
  paged : paged → c.KnowsOlder s room
  asks : ∀ q ∈ log.fetches, c.Awaits q → c.Asks q

namespace Browses

variable {stay : Nat} {log before after : Journal} {paged : Prop} {m : Moment}

/-- A room that was just entered shows nothing, and its newest page is asked for. -/
theorem entered (run : Run identity settings (log ++ [m]) c) (enters : m.op = .enter room) :
    Browses s room m.state.stay (log ++ [m]) False c := by
  have tracks := run.tracks
  obtain ⟨away, -, perform, hstate, -⟩ := run.of_snoc
  rw [enters] at perform
  obtain ⟨rfl, heffects⟩ := eq_of_ok perform
  refine ⟨⟨[], rfl, List.nil_suffix, rfl⟩, by rw [hstate], fun _ => ⟨rfl, rfl⟩, False.elim,
    fun q hq awaits => ?_⟩
  obtain rfl := tracks.eq_of_issued (by rw [heffects]; rfl) hq awaits
  exact ⟨rfl, rfl⟩

theorem same (h : Browses s room stay log paged c) (quiet : m.effects = []) :
    Browses s room stay (log ++ [m]) paged c := by
  refine ⟨h.shows, h.stay, h.unpaged, h.paged, fun q hq => h.asks q ?_⟩
  rwa [Journal.fetches_snoc, quiet, List.filterMap_nil, List.append_nil] at hq

theorem beginLoad (h : Browses s room stay log paged c) {kind : LoadKind}
    (tracks : Tracks (log ++ [m]) (c.beginLoad room kind).1)
    (issues : m.effects = (c.beginLoad room kind).2) :
    Browses s room stay (log ++ [m]) paged (c.beginLoad room kind).1 := by
  obtain ⟨shown, hshows⟩ := h.shows
  obtain ⟨r, heffects, -, -, asks⟩ := beginLoad_asks hshows kind
  refine ⟨⟨shown, hshows.active, hshows.suffix, hshows.timeline⟩, h.stay, h.unpaged, h.paged,
    fun q hq awaits => ?_⟩
  obtain rfl := tracks.eq_of_issued (by rw [issues, heffects]; rfl) hq awaits
  exact asks

theorem failed (h : Browses s room stay log paged c) :
    Browses s room stay (log ++ [m]) paged { c with loading := none } := by
  obtain ⟨shown, hshows⟩ := h.shows
  refine ⟨⟨shown, hshows.active, hshows.suffix, hshows.timeline⟩, h.stay, h.unpaged, h.paged,
    fun q _ awaits => ?_⟩
  cases awaits.loading

theorem of_rests (h : c.Rests s room) (current : c.stay = stay) :
    Browses s room stay log True c := by
  refine ⟨h.shows, current, fun not => absurd trivial not, fun _ => h.older, fun q _ awaits => ?_⟩
  have hloading := awaits.loading
  rw [h.idle] at hloading
  cases hloading

/-- A load that is asked for is issued, or dropped because nothing is to be loaded now. -/
theorem load (h : Browses s room stay log paged c) (run : Run identity settings (log ++ [m]) c')
    (perform : c.perform m.op = .ok (c', m.effects))
    (loads : m.op = .loadNewest ∨ m.op = .loadOlder) :
    Browses s room stay (log ++ [m]) paged c' := by
  obtain ⟨shown, hshows⟩ := h.shows
  have hload : (c', m.effects) = (c, []) ∨ ∃ kind, (c', m.effects) = c.beginLoad room kind := by
    rcases loads with hop | hop <;> rw [hop] at perform <;> rw [← Except.ok.inj perform]
    · unfold loadNewest
      rw [hshows.active]
      dsimp only
      split
      · exact .inl rfl
      · exact .inr ⟨.newest, rfl⟩
    · unfold loadOlder
      rw [hshows.active]
      dsimp only
      split
      · exact .inl rfl
      · exact .inr ⟨.older, rfl⟩
  rcases hload with hsame | ⟨kind, hissued⟩
  · obtain ⟨rfl, hquiet⟩ := Prod.mk.inj hsame
    exact h.same hquiet
  · obtain ⟨rfl, hissues⟩ := Prod.mk.inj hissued
    exact h.beginLoad run.tracks hissues

theorem answered (h : Browses s room stay (before ++ after) (before.Paged after) c)
    (reachable : s.Reachable user) (run : Run identity settings (before ++ after) c)
    (hq : q ∈ Journal.fetches (before ++ after)) {result : Except RequestError Page}
    (pages : (Operation.historyLoaded q result).Pages s room stay)
    (answers : m.op = .historyLoaded q result)
    (perform : c.perform m.op = .ok (c', m.effects)) :
    Browses s room stay (before ++ after ++ [m]) (before.Paged (after ++ [m])) c' := by
  rw [answers] at perform
  obtain ⟨hc', heffects⟩ := eq_of_ok perform
  have hawaits := run.tracks.awaits_iff hq
  by_cases awaits : c.Awaits q
  · cases result with
    | error e =>
        rw [Journal.paged_snoc_of_ne fun q page hop => ?_]
        · rw [hc', historyLoaded_of_awaits awaits]
          exact h.failed
        · rw [answers] at hop
          cases hop
    | ok page =>
        obtain ⟨shown, hshows⟩ := h.shows
        obtain rfl : q.room = room := Option.some.inj (awaits.room.symm.trans hshows.active)
        have htaken : before.Paged (after ++ [m]) :=
          Journal.paged_snoc.2 (.inr ⟨q, page, answers, hawaits.1 awaits⟩)
        obtain ⟨hrests, -⟩ := hshows.takePage reachable awaits (h.asks q hq awaits)
        rw [eq_true htaken, hc', pages rfl (awaits.stay.symm.trans h.stay)]
        refine of_rests hrests ?_
        rw [historyLoaded_of_awaits awaits]
        exact h.stay
  · rw [historyLoaded_of_not_awaits awaits] at hc' heffects
    rw [hc', Journal.paged_snoc, or_iff_left]
    · exact h.same heffects
    · rintro ⟨q', page, hop, hawaited⟩
      obtain ⟨rfl, -⟩ := Operation.historyLoaded.inj (answers.symm.trans hop)
      exact awaits (hawaits.2 hawaited)

theorem step (h : Browses s room stay (before ++ after) (before.Paged after) c)
    (reachable : s.Reachable user) (prior : Run identity settings (before ++ after) c)
    (run : Run identity settings (before ++ after ++ [m]) c')
    (perform : c.perform m.op = .ok (c', m.effects)) (pages : m.op.Pages s room stay)
    (answers : ∀ q result, m.op = .historyLoaded q result →
      q ∈ Journal.fetches (before ++ after)) :
    Browses s room stay (before ++ after ++ [m]) (before.Paged (after ++ [m])) c' := by
  cases hop : m.op with
  | loadNewest | loadOlder =>
      rw [Journal.paged_snoc_of_ne (by simp [hop])]
      exact h.load run perform (by simp [hop])
  | historyLoaded q result =>
      rw [hop] at pages
      exact h.answered reachable prior (answers q result hop) pages hop perform
  | _ =>
      rw [hop] at pages
      exact False.elim pages

end Browses

theorem Run.browses {user : UserId} (reachable : s.Reachable user) {log after : Journal}
    {entry : Moment} (run : Run identity settings (log ++ [entry] ++ after) c)
    (enters : entry.op = .enter room) (pages : ∀ m ∈ after, m.op.Pages s room entry.state.stay) :
    Browses s room entry.state.stay (log ++ [entry] ++ after)
      (Journal.Paged (log ++ [entry]) after) c := by
  induction after using List.reverseRecOn generalizing c with
  | nil =>
      have hnone : Journal.Paged (log ++ [entry]) [] ↔ False := by
        simp [Journal.Paged]
      rw [hnone, List.append_nil]
      rw [List.append_nil] at run
      exact .entered run enters
  | append_singleton after m ih =>
      rw [← List.append_assoc] at run ⊢
      obtain ⟨prior, hrun, perform, -, answers⟩ := run.of_snoc
      have hbrowses := ih hrun fun m hm => pages m (List.mem_append_left _ hm)
      exact hbrowses.step reachable hrun run perform
        (pages m (List.mem_append_right _ List.mem_cons_self)) answers

theorem Rests.of_browses {stay : Nat} {log : Journal} (h : Browses s room stay log True c)
    (idle : c.loading = none) : c.Rests s room :=
  ⟨h.shows, idle, h.paged trivial⟩

/-- In a stay that only loads history of a log that stays the same, the timeline shows an end of the
log at every moment, and nothing before the first page is taken in. From then on there is an older
page exactly if not all is shown. While a load is in flight no older page is asked for; its page
leaves no load in flight, and an older one shows a page more. While none is in flight, each older
page shows a page more until the whole log is shown, and then nothing is asked for. -/
theorem paging_reaches_the_start (identity : Identity) (settings : ChatSettings)
    (positive : 1 ≤ settings.pageSize) (user : UserId) (s : Server) (reachable : s.Reachable user)
    (room : Room) (log : Journal) (entry : Moment) (enters : entry.op = .enter room)
    (after : Journal) (pages : ∀ m ∈ after, m.op.Pages s room entry.state.stay) (c : Conversation)
    (run : Run identity settings (log ++ [entry] ++ after) c) :
    let ids := (s.log room).map Message.id
    c.timeline.ids <:+ ids ∧
    (¬ Journal.Paged (log ++ [entry]) after → c.timeline = []) ∧
    (Journal.Paged (log ++ [entry]) after →
      (c.hasOlder = true ↔ c.timeline.length < ids.length) ∧
      (∀ q, Journal.Awaits (log ++ [entry] ++ after) q →
        c.loadOlder = (c, []) ∧ (c.takePage s q).loading = none ∧
          (q.kind = .older → (c.takePage s q).timeline.length =
            c.timeline.length + min settings.pageSize (ids.length - c.timeline.length))) ∧
      (c.loading = none →
        (∀ n, let c' := (pageBack s)^[n] c
          c'.timeline.ids <:+ ids ∧
          (c'.pageBack s).timeline.length =
            c'.timeline.length + min settings.pageSize (ids.length - c'.timeline.length) ∧
          (c'.timeline.length = ids.length → c'.loadOlder = (c', []))) ∧
        ∃ n, ((pageBack s)^[n] c).timeline.ids = ids)) := by
  intro ids
  have hids : ids.length = (s.log room).length := List.length_map _
  have browses := run.browses reachable enters pages
  have hsettings := run.settings_eq
  obtain ⟨shown, hshows⟩ := browses.shows
  refine ⟨hshows.ids, fun unpaged => (browses.unpaged unpaged).1, fun paged => ⟨?_, ?_, ?_⟩⟩
  · rw [hids]
    exact browses.paged paged
  · intro q hq
    have hmem : q ∈ Journal.fetches _ := List.mem_of_getLast? hq.1
    have awaits := (run.tracks.awaits_iff hmem).2 hq
    have asks := browses.asks q hmem awaits
    obtain ⟨hrests, -, hlength⟩ := hshows.takePage reachable awaits asks
    refine ⟨loadOlder_of_busy (by simp [awaits.loading]), hrests.idle, fun older => ?_⟩
    rw [hlength, asks.offset, older, hsettings, hids]
  · intro idle
    rw [eq_true paged] at browses
    have hrests := Rests.of_browses browses idle
    refine ⟨fun n => ?_, (s.log room).length, ?_⟩
    · obtain ⟨hrests', hsettings', -⟩ := hrests.iterate reachable n
      obtain ⟨shown', hshows'⟩ := hrests'.shows
      refine ⟨hshows'.ids, ?_, fun whole => hrests'.loadOlder_of_whole (whole.trans hids)⟩
      rw [(hrests'.pageBack reachable).2.2, hsettings', hsettings, hids]
    · obtain ⟨hrests', -, hlength⟩ := hrests.iterate reachable (s.log room).length
      obtain ⟨shown', hshows'⟩ := hrests'.shows
      refine hshows'.ids.eq_of_length ?_
      -- As many rounds as there are messages are enough, since each shows one message at least.
      have hall : (s.log room).length ≤ (s.log room).length * settings.pageSize :=
        Nat.le_mul_of_pos_right _ positive
      rw [Timeline.ids, List.length_map, List.length_map, hlength, hsettings]
      omega

/-- The page of an older load comes after a reload has overtaken it, and does nothing. The reload
then shows the newest page again, and from there paging back shows the rest. -/
theorem overtaken_page_and_the_rest :
    ∃ s, (Server.new 9).seed ⟨1, 2⟩ 7 5 = .ok (s, [1, 2, 3, 4, 5]) ∧
      let room : Room := ⟨1, 2⟩
      let settings : ChatSettings := { ChatSettings.standard with pageSize := 2 }
      let entered := (new ⟨9, "ada"⟩ settings).enter room
      let shown := entered.1.historyLoaded ⟨room, 1, 1, .newest, 2, 0⟩ (.ok (s.page room 2 0))
      let asked := shown.1.loadOlder
      let overtaken := asked.1.loadNewest
      let late := overtaken.1.historyLoaded ⟨room, 1, 2, .older, 2, 2⟩ (.ok (s.page room 2 2))
      let reloaded := late.1.historyLoaded ⟨room, 1, 3, .newest, 2, 0⟩ (.ok (s.page room 2 0))
      late = (overtaken.1, []) ∧ reloaded.1.timeline.ids = [4, 5] ∧
        ∃ n, ((pageBack s)^[n] reloaded.1).timeline.ids = [1, 2, 3, 4, 5] := by
  let s : Server := match (Server.new 9).seed ⟨1, 2⟩ 7 5 with
    | .ok (s, _) => s
    | .error _ => .new 9
  have hseed : (Server.new 9).seed ⟨1, 2⟩ 7 5 = .ok (s, [1, 2, 3, 4, 5]) := rfl
  have reachable : s.Reachable 9 := .seed .new hseed
  refine ⟨s, hseed, ?_⟩
  intro room settings entered shown asked overtaken late reloaded
  let first : HistoryRequest := ⟨room, 1, 1, .newest, 2, 0⟩
  let second : HistoryRequest := ⟨room, 1, 2, .older, 2, 2⟩
  let third : HistoryRequest := ⟨room, 1, 3, .newest, 2, 0⟩
  have fresh : Run ⟨9, "ada"⟩ settings [] _ := .start
  have run₁ := fresh.next (.enter room) entered rfl (by intro q result h; cases h)
  have run₂ := run₁.next (.historyLoaded first (.ok (s.page room 2 0))) shown rfl
    (by intro q result h; cases h; decide)
  have run₃ := run₂.next .loadOlder asked rfl (by intro q result h; cases h)
  have run₄ := run₃.next .loadNewest overtaken rfl (by intro q result h; cases h)
  have run₅ := run₄.next (.historyLoaded second (.ok (s.page room 2 2))) late rfl
    (by intro q result h; cases h; decide)
  have run₆ := run₅.next (.historyLoaded third (.ok (s.page room 2 0))) reloaded rfl
    (by intro q result h; cases h; decide)
  obtain ⟨-, -, hpaged⟩ := paging_reaches_the_start ⟨9, "ada"⟩ settings (by decide) 9 s reachable
    room [] ⟨.enter room, entered.1, entered.2⟩ rfl
    [⟨.historyLoaded first (.ok (s.page room 2 0)), shown.1, shown.2⟩,
      ⟨.loadOlder, asked.1, asked.2⟩, ⟨.loadNewest, overtaken.1, overtaken.2⟩,
      ⟨.historyLoaded second (.ok (s.page room 2 2)), late.1, late.2⟩,
      ⟨.historyLoaded third (.ok (s.page room 2 0)), reloaded.1, reloaded.2⟩]
    (by simp [Operation.Pages, first, second, third]) reloaded.1 run₆
  have awaited : Journal.Awaits [⟨.enter room, entered.1, entered.2⟩] first :=
    (run₁.tracks.awaits_iff (by decide)).1 ⟨rfl, rfl, rfl, rfl⟩
  obtain ⟨-, -, hrest⟩ := hpaged ⟨[], _, _, rfl, first, _, rfl, awaited⟩
  have hloading : reloaded.1.loading = none := by decide +kernel
  have hids : (s.log room).map Message.id = [1, 2, 3, 4, 5] := by decide +kernel
  obtain ⟨n, hn⟩ := (hrest hloading).2
  exact ⟨by decide +kernel, by decide +kernel, n, hn.trans hids⟩

end Conversation

end LiveChat
