import LiveChat.Proofs.Chat.Reception
import LiveChat.Proofs.Simulation.Paging
import LiveChat.Proofs.Simulation.Session

/-!
# What holds within a stay

A regime says what is to hold of what is shown during a stay, of the pages that are awaited, and
what is asked of the messages and pages that come. Whatever keeps its laws holds throughout the
stay if the moves that are made during it are allowed, whatever was done before and will be done
after: answers that belong to another stay do nothing.
-/

namespace LiveChat

open Client (Event Action Handles Loads fetches)
open Simulation (Server)

def ServerFrame.message? (text : String) : Option Message :=
  match decode text with
  | some (.message m) => some m
  | _ => none

theorem Simulation.Server.log_post {s s' : Server} {room : Room} {sender : UserId} {body : String}
    {ref : Option Ref} {m : Message} (stored : s.post room sender body ref = .ok (s', m)) :
    s'.log = Logs.store s.log room m := funext (post_stores stored).2.2.2

namespace Conversation

variable {c c' : Conversation} {logs : Logs}

theorem Reflects.of_view (h : c.Reflects logs) (same : c.SameView c') : c'.Reflects logs where
  settled := same.timeline ▸ h.settled
  stored := by
    rw [same.timeline, same.room]
    exact h.stored

instance (c : Conversation) (q : HistoryRequest) : Decidable (c.Awaits q) :=
  decidable_of_iff (c.room = some q.room ∧ c.stay = q.stay ∧ q.load = c.load ∧
      c.loading = some q.kind)
    ⟨fun ⟨room, stay, load, loading⟩ => ⟨room, stay, load, loading⟩,
      fun ⟨room, stay, load, loading⟩ => ⟨room, stay, load, loading⟩⟩

theorem loadOlder_asks {q : HistoryRequest} (asks : c.loadOlder.2 = [.fetch q]) :
    c.hasOlder = true ∧ q.kind = .older ∧ c.SameView c.loadOlder.1 ∧ c.loadOlder.1.Issues q := by
  unfold loadOlder at asks ⊢
  split at asks
  · cases asks
  · next room active =>
    split at asks
    · cases asks
    · next free =>
      obtain ⟨q', heffects, hkind, -, issues⟩ := beginLoad_issues active .older
      obtain rfl : q' = q := by
        rw [heffects] at asks
        exact ChatEffect.fetch.inj (List.singleton_inj.1 asks)
      rw [if_neg free]
      rw [Bool.or_eq_true, not_or, Bool.not_eq_true', Bool.not_eq_false] at free
      exact ⟨free.2, hkind, ⟨rfl, rfl, rfl, rfl, rfl⟩, issues⟩

end Conversation

namespace Simulation

structure Regime where
  shown : Conversation → Logs → Prop
  /-- Of a page that is awaited. -/
  awaited : Conversation → Logs → HistoryRequest → Page → Prop
  /-- Of an awaited page that is taken in, and the log of the room. -/
  ready : List Message → HistoryRequest → Page → Prop
  /-- Of what is shown and the log of the room, when a message comes on its channel. -/
  expected : Timeline → List Message → Message → Prop
  /-- Of what is shown and the messages of an older page that is asked for. -/
  older : Timeline → List Message → Prop
  /-- Whether messages of the room may be stored that its channel does not bring. -/
  misses : Prop

namespace Regime

variable {g : Regime} {c c' : Conversation} {logs logs' : Logs} {e : Event} {q : HistoryRequest}
  {requests : List HistoryRequest} {page : Page} {stay : Nat} {s : Server} {user : UserId}

/-- What happens to what is shown, and to the logs, while a load stays in flight. -/
inductive Change (g : Regime) (c : Conversation) (logs : Logs) : Conversation → Logs → Prop
  | none {c' : Conversation} (same : c.SameView c') : Change g c logs c' logs
  | received {room : Room} {m : Message} (active : c.room = some room)
      (expected : g.expected c.timeline (logs room) m) : Change g c logs (c.received m).1 logs
  | missed {room : Room} {m : Message} (may : c.room = some room → g.misses) :
      Change g c logs c (logs.store room m)
  | brought {room : Room} {m : Message} {entry : Entry} {c' : Conversation}
      (active : c.room = some room) (new : ∀ id ∈ (logs room).map Message.id, id < m.id)
      (confirmed : entry.isPending = false) (number : entry.id = m.id)
      (behind : Conversation.SameView { c with timeline := c.timeline ++ [entry] } c') :
      Change g c logs c' (logs.store room m)

structure Laws (g : Regime) : Prop where
  reflects : ∀ {c logs}, g.shown c logs → c.Reflects logs
  blank : ∀ {c logs}, c.Blank → g.shown c logs
  changed : ∀ {c logs c' logs'}, g.shown c logs → g.Change c logs c' logs' → g.shown c' logs'
  taken : ∀ {c s user q page}, Server.Reachable user s → g.shown c s.log → c.Awaits q →
    g.awaited c s.log q page → g.ready (s.log q.room) q page →
    g.shown (c.historyLoaded q (.ok page)).1 s.log
  stillAwaited : ∀ {c logs c' logs' q page}, g.shown c logs → c.Awaits q →
    g.Change c logs c' logs' → g.awaited c logs q page → g.awaited c' logs' q page
  served : ∀ {c s user q}, Server.Reachable user s → c.Sound → g.shown c s.log → c.Issues q →
    (q.kind = .older → g.older c.timeline (s.page q.room q.limit q.offset).messages ∧
      c.hasOlder = true) →
    g.awaited c s.log q (s.page q.room q.limit q.offset) ∧
      g.ready (s.log q.room) q (s.page q.room q.limit q.offset)

structure Admits (g : Regime) (c : Conversation) (s : Server) (e : Event) : Prop where
  idle : ¬ e.Writes c
  page : ∀ q page, e = .historyLoaded q (.ok page) → c.Awaits q →
    g.awaited c s.log q page ∧ g.ready (s.log q.room) q page
  message : ∀ room text m, e = .frameReceived (.room room) text → c.room = some room →
    ServerFrame.decode text = some (.message m) → g.expected c.timeline (s.log room) m
  older : e = .loadOlder → ∀ q, c.loadOlder.2 = [.fetch q] →
    g.older c.timeline (s.page q.room q.limit q.offset).messages

def isPlain : Event → Bool
  | .send _ | .posted _ _ | .historyLoaded _ _ | .frameReceived _ _ | .loadOlder => false
  | _ => true

theorem Admits.of_plain (h : isPlain e = true) : g.Admits c s e where
  idle writes := by
    cases e with
    | send | posted => cases h
    | _ => exact writes
  page q page he _ := by
    rw [he] at h
    cases h
  message room text m he _ _ := by
    rw [he] at h
    cases h
  older he := by
    rw [he] at h
    cases h

/-! ## One event -/

theorem Laws.shown_loads (laws : g.Laws) (reachable : s.Reachable user)
    (shown : c.stay = stay → g.shown c s.log) (admits : c.stay = stay → g.Admits c s e)
    (step : Loads c e c' requests) (here : c'.stay = stay) : g.shown c' s.log := by
  rcases step.stay_or_blank with hstay | ⟨-, blank⟩
  · rw [hstay] at here
    have shown := shown here
    have admits := admits here
    cases step with
    | rests same => exact laws.changed shown (.none same.toSameView)
    | wrote writes => exact absurd writes admits.idle
    | left _ _ _ blank | entered _ blank => exact laws.blank blank
    | asked _ _ same => exact laws.changed shown (.none same)
    | @answered q result awaits =>
        cases result with
        | error error =>
            rw [Conversation.historyLoaded_of_awaits awaits]
            exact laws.changed shown (.none ⟨rfl, rfl, rfl, rfl, rfl⟩)
        | ok page =>
            obtain ⟨awaited, ready⟩ := admits.page q page rfl awaits
            exact laws.taken reachable shown awaits awaited ready
    | received active decodes =>
        exact laws.changed shown (.received active (admits.message _ _ _ rfl active decodes))
  · exact laws.blank blank

theorem Laws.awaited_loads (laws : g.Laws) (shown : c.stay = stay → g.shown c s.log)
    (admits : c.stay = stay → g.Admits c s e) (step : Loads c e c' requests)
    (earlier : q.load ≤ c.load) (awaited : c.stay = stay → c.Awaits q → g.awaited c s.log q page)
    (here : c'.stay = stay) (awaits : c'.Awaits q) : g.awaited c' s.log q page := by
  obtain ⟨hawaits, hstep⟩ := step.awaits earlier awaits
  have hstay : c.stay = stay := (hawaits.stay.trans awaits.stay.symm).trans here
  have change : g.Change c s.log c' s.log := by
    rcases hstep with same | writes | ⟨room, text, m, rfl, active, decodes, rfl⟩
    · exact .none same
    · exact absurd writes (admits hstay).idle
    · exact .received active ((admits hstay).message _ _ _ rfl active decodes)
  exact laws.stillAwaited (shown hstay) hawaits change (awaited hstay hawaits)

theorem Laws.served_loads (laws : g.Laws) (reachable : s.Reachable user) (sound : c'.Sound)
    (shown : c.stay = stay → g.shown c s.log) (admits : c.stay = stay → g.Admits c s e)
    (step : Loads c e c' requests) (asked : q ∈ requests) :
    q.load ≤ c'.load ∧ (c'.stay = stay →
      g.awaited c' s.log q (s.page q.room q.limit q.offset) ∧
        g.ready (s.log q.room) q (s.page q.room q.limit q.offset)) := by
  have shown' := laws.shown_loads reachable shown admits step
  cases step with
  | rests | wrote | left | answered | received => cases asked
  | entered active blank kind number issues =>
      obtain rfl := List.mem_singleton.1 asked
      refine ⟨Nat.le_of_eq issues.awaits.load, fun here => ?_⟩
      refine laws.served reachable sound (shown' here) issues fun older => ?_
      rw [kind] at older
      cases older
  | asked number issues same hstay older =>
      obtain rfl := List.mem_singleton.1 asked
      refine ⟨Nat.le_of_eq issues.awaits.load, fun here => ?_⟩
      refine laws.served reachable sound (shown' here) issues fun kind => ?_
      obtain ⟨rfl, hasks⟩ := older kind
      rw [same.timeline, same.hasOlder]
      exact ⟨(admits (hstay.symm.trans here)).older rfl q hasks,
        (Conversation.loadOlder_asks hasks).1⟩

/-! ## Answers that are still to come -/

/-- An event that is to come: that a transport is up, the answer to a load, or the answer to a post
of another stay. -/
inductive Held (g : Regime) (stay : Nat) (c : Conversation) (logs : Logs) : Event → Prop
  | opened (a : Address) : Held g stay c logs (.transportOpened a)
  | loaded {q : HistoryRequest} {result : Except RequestError Page} (earlier : q.load ≤ c.load)
      (awaited : ∀ page, result = .ok page → c.stay = stay → c.Awaits q →
        g.awaited c logs q page) : Held g stay c logs (.historyLoaded q result)
  | posted {q : PostRequest} {result : Except RequestError Message} (elsewhere : q.stay ≠ stay) :
      Held g stay c logs (.posted q result)

def Ready (g : Regime) (stay : Nat) (c : Conversation) (logs : Logs) (e : Event) : Prop :=
  ∀ q page, e = .historyLoaded q (.ok page) → c.stay = stay → c.Awaits q →
    g.ready (logs q.room) q page

def accord (g : Regime) (identity : Identity) (settings : LinkSettings) (stay : Nat) : Accord where
  holds c s := c.Sound identity settings ∧ s.Reachable identity.user ∧
    (c.conversation.stay = stay → g.shown c.conversation s.log)
  queued c s e := (g.Held stay c.conversation s.log e ∧ g.Ready stay c.conversation s.log e) ∨
    c.conversation.stay ≠ stay ∧ e.isAnswer = true
  held c s := g.Held stay c.conversation s.log

theorem Held.isAnswer (h : g.Held stay c logs e) : e.isAnswer = true := by
  cases h <;> rfl

theorem Held.of_elsewhere (h : g.Held stay c logs e) (elsewhere : c'.stay ≠ stay)
    (load : c.load ≤ c'.load) : g.Held stay c' logs' e := by
  cases h with
  | opened a => exact .opened a
  | loaded earlier =>
      exact .loaded (Nat.le_trans earlier load) fun _ _ here => absurd here elsewhere
  | posted other => exact .posted other

theorem Held.changed (h : g.Held stay c logs e) (laws : g.Laws) (shown : g.shown c logs)
    (change : g.Change c logs c' logs') (hstay : c'.stay = c.stay) (load : c'.load = c.load)
    (loading : c'.loading = c.loading) (room : c'.room = c.room) : g.Held stay c' logs' e := by
  cases h with
  | opened a => exact .opened a
  | loaded earlier awaited =>
      refine .loaded (load ▸ earlier) fun page hpage here awaits => ?_
      have hawaits : c.Awaits _ :=
        ⟨room ▸ awaits.room, hstay ▸ awaits.stay, load ▸ awaits.load, loading ▸ awaits.loading⟩
      exact laws.stillAwaited shown hawaits change (awaited page hpage (hstay ▸ here) hawaits)
  | posted other => exact .posted other

theorem Held.admits (h : g.Held stay c s.log e) (ready : g.Ready stay c s.log e)
    (here : c.stay = stay) : g.Admits c s e := by
  cases h with
  | opened a => exact .of_plain rfl
  | loaded earlier awaited =>
      refine ⟨id, fun q page he awaits => ?_, nofun, nofun⟩
      obtain ⟨rfl, rfl⟩ := Client.Event.historyLoaded.inj he
      exact ⟨awaited page rfl here awaits, ready _ page rfl here awaits⟩
  | posted other =>
      refine ⟨fun current => other ?_, nofun, nofun, nofun⟩
      exact (Conversation.isCurrent_iff.1 current).2.symm.trans here

variable {identity : Identity} {settings : LinkSettings} {t t' : Simulation}

theorem Laws.kept (laws : g.Laws)
    (holds : (g.accord identity settings stay).holds t.client t.server)
    (receives : e.isSend = false)
    (admits : t.client.conversation.stay = stay → g.Admits t.client.conversation t.server e)
    (ok : t.process e = .ok t') : (g.accord identity settings stay).Kept t t' := by
  obtain ⟨sound, reachable, shown⟩ := holds
  obtain ⟨actions, handles, carries, -⟩ := process_carries sound receives ok
  have step := Client.handle_loads handles.ok
  have hlog : t'.server.log = t.server.log := funext carries.server.log
  have shown' := laws.shown_loads reachable shown admits step
  have arisen : ∀ e', Arises t.server (fetches actions) e' →
      g.Held stay t'.client.conversation t.server.log e' ∧
        g.Ready stay t'.client.conversation t.server.log e' := by
    rintro e' (a | @⟨q, result, asked, served⟩)
    · exact ⟨.opened a, nofun⟩
    · obtain ⟨hload, hserved⟩ :=
        laws.served_loads reachable handles.sound.conversation shown admits step asked
      refine ⟨.loaded hload fun page hpage here _ => ?_, fun q' page he here _ => ?_⟩
      · exact served page hpage ▸ (hserved here).1
      · obtain ⟨rfl, rfl⟩ := Client.Event.historyLoaded.inj he
        exact served page rfl ▸ (hserved here).2
  refine ⟨⟨handles.sound, carries.reachable _ reachable, ?_⟩, fun e' he' => ?_, fun e' he' => ?_,
    fun e' he' => ?_⟩
  · rw [hlog]
    exact shown'
  · show g.Held stay t'.client.conversation t'.server.log e'
    rw [hlog]
    cases he' with
    | opened a => exact .opened a
    | loaded earlier awaited =>
        exact .loaded (Nat.le_trans earlier step.load_le) fun page hpage here awaits =>
          laws.awaited_loads shown admits step earlier (awaited page hpage) here awaits
    | posted elsewhere => exact .posted elsewhere
  · refine (carries.queue e' he').imp id fun he' => .inl ?_
    rw [hlog]
    exact arisen e' he'
  · refine (carries.held e' he').imp id fun he' => ?_
    show g.Held stay t'.client.conversation t'.server.log e'
    rw [hlog]
    exact (arisen e' he').1

/-- Answers that were held back are still to come, and what is in the queue is to be heard. -/
theorem Laws.lasts (laws : g.Laws) (identity : Identity) (settings : LinkSettings) (stay : Nat) :
    (g.accord identity settings stay).Lasts := by
  intro t e t' holds queued ok
  have answers : e.isAnswer = true := queued.elim (fun queued => queued.1.isAnswer) And.right
  have receives : e.isSend = false := by cases e <;> first | rfl | cases answers
  have admits : t.client.conversation.stay = stay →
      g.Admits t.client.conversation t.server e := fun here =>
    queued.elim (fun queued => queued.1.admits queued.2 here) fun queued => absurd here queued.1
  obtain ⟨actions, handles, carries, hqueue⟩ := process_carries holds.1 receives ok
  have kept := laws.kept holds receives admits ok
  have step := Client.handle_loads handles.ok
  have hlog : t'.server.log = t.server.log := funext carries.server.log
  have hstay : t'.client.conversation.stay = t.client.conversation.stay :=
    step.stay_or_blank.resolve_right fun left => by rw [answers] at left; cases left.1
  refine ⟨kept, hqueue answers, ?_⟩
  rintro e' (⟨held, ready⟩ | ⟨elsewhere, answers'⟩)
  · refine .inl ⟨kept.stillHeld e' held, fun q page he' here awaits => ?_⟩
    rw [hlog]
    cases he'
    cases held with
    | loaded earlier =>
        exact ready q page rfl (hstay ▸ here) (step.awaits earlier awaits).1
  · exact .inr ⟨hstay ▸ elsewhere, answers'⟩

theorem kept_sends {text : String}
    (holds : (g.accord identity settings stay).holds t.client t.server)
    (elsewhere : t.client.conversation.stay ≠ stay) (ok : t.process (.send text) = .ok t') :
    (g.accord identity settings stay).Kept t t' := by
  rcases process_sends holds.1 ok with
    rfl | ⟨room, wall, ref, client, sending, -, sound, hsent, carries, hqueue, conveyed⟩
  · exact ⟨holds, fun _ => id, fun _ => .inl, fun _ => .inl⟩
  · obtain ⟨hclient, hreachable, hmore, hheld⟩ := conveyed.leaves
    obtain rfl : t'.client = client := hclient.trans carries.client
    have elsewhere' : t'.client.conversation.stay ≠ stay := by rwa [hsent]
    refine ⟨⟨sound, hreachable _ (carries.reachable _ holds.2.1), fun here => ?_⟩, fun e' he' => ?_,
      fun e' he' => ?_, fun e' he' => ?_⟩
    · exact absurd here elsewhere'
    · refine Held.of_elsewhere he' elsewhere' ?_
      rw [hsent]
      exact Nat.le_refl _
    · refine (hmore e' he').imp (fun he' => ?_) fun answers => .inr ⟨elsewhere', answers⟩
      rwa [← hqueue]
    · rcases hheld e' he' with he' | ⟨result, rfl⟩
      · refine (carries.held e' he').imp id ?_
        rintro (a | ⟨asked, -⟩)
        · exact .opened a
        · cases asked
      · exact .inr (.posted elsewhere)

/-! ## Messages that are brought -/

variable {s₁ : Simulation} {room : Room} {m m' : Message}

theorem conversation_of_message {c c' : Client} {r : Client.Reading} {actions : List Action}
    (sound : c.Sound identity settings) (active : c.conversation.room = some room)
    (handles : Handles identity settings c r
      (.frameReceived (.room room) (ServerFrame.message m).encode) c' actions) :
    c'.conversation = (c.conversation.received m).1 := by
  have performs : c.conversation.Performs
      (c.frameOperations r (.room room) (ServerFrame.message m).encode) c'.conversation :=
    handles.performs
  rw [Client.frameOperations_message sound active] at performs
  obtain ⟨effects, hstep⟩ := performs.of_one
  exact (Conversation.eq_of_ok hstep).1

/-- A message that was stored in the room comes on its channel at once, and goes behind all that was
shown before. -/
theorem Laws.kept_arrival (laws : g.Laws)
    (holds : (g.accord identity settings stay).holds t.client t.server)
    (here : t.client.conversation.stay = stay) (active : t.client.conversation.room = some room)
    (stored : s₁.server.log = Logs.store t.server.log room m)
    (reachable : s₁.server.Reachable identity.user)
    (new : ∀ id ∈ (t.server.log room).map Message.id, id < m.id) (number : m'.id = m.id)
    (sound : s₁.client.Sound identity settings)
    (comes : Conversation.SameHistory { t.client.conversation with
      timeline := t.client.conversation.timeline ++ [Entry.ofMessage room.number m'] }
      (s₁.client.conversation.received m').1)
    (active₁ : s₁.client.conversation.room = some room) (queue : s₁.queue = [])
    (held : ∀ e ∈ s₁.held, e ∈ t.held ∨ ∃ a, e = .transportOpened a)
    (ok : s₁.process (.frameReceived (.room room) (ServerFrame.message m').encode) = .ok t') :
    (g.accord identity settings stay).Kept t t' := by
  obtain ⟨actions, handles, carries, hqueue⟩ := process_carries sound rfl ok
  rw [← conversation_of_message sound active₁ handles] at comes
  have hlog : t'.server.log = Logs.store t.server.log room m :=
    (funext carries.server.log).trans stored
  have shown := holds.2.2 here
  have change : g.Change t.client.conversation t.server.log t'.client.conversation
      (Logs.store t.server.log room m) := .brought active new rfl number comes.toSameView
  have hnone : fetches actions = [] := Client.fetches_of_modest (handles.modest rfl)
  refine ⟨⟨handles.sound, carries.reachable _ reachable, fun _ => ?_⟩, fun e' he' => ?_,
    fun e' he' => ?_, fun e' he' => ?_⟩
  · rw [hlog]
    exact laws.changed shown change
  · show g.Held stay t'.client.conversation t'.server.log e'
    rw [hlog]
    exact Held.changed he' laws shown change comes.stay comes.load comes.loading comes.room
  · rw [hqueue rfl, queue] at he'
    cases he'
  · rcases carries.held e' he' with he' | harises
    · refine (held e' he').imp id ?_
      rintro ⟨a, rfl⟩
      exact .opened a
    · rw [hnone] at harises
      cases harises with
      | opened a => exact .inr (.opened a)
      | served asked => cases asked

/-! ## Moves -/

/-- What the regime allows to happen: a message is sent only if the channel takes it and brings it
back, an older page is asked for only where the regime lets it be, a message comes only where it is
expected, and no answer is made up. -/
def AllowsEvent (g : Regime) (s : Simulation) : Event → Prop
  | .send text => s.client.accepts? s.clock.now text = none ∨
      s.client.isRoomLive = true ∧ s.options.echoMessages = true
  | .loadOlder => ∀ q ∈ s.client.conversation.loadOlder.2.filterMap ChatEffect.fetch?,
      g.older s.client.conversation.timeline (s.server.page q.room q.limit q.offset).messages
  | .frameReceived a text => ∀ m ∈ ServerFrame.message? text, ∀ room ∈ s.client.conversation.room,
      a = .room room → g.expected s.client.conversation.timeline (s.server.log room) m
  | .historyLoaded q _ => ¬ s.client.conversation.Awaits q
  | .posted q _ => s.client.conversation.isCurrent q.room q.stay = false
  | _ => True

def page? : Event → Option (HistoryRequest × Page)
  | .historyLoaded q (.ok page) => some (q, page)
  | _ => none

theorem page?_eq_some (h : page? e = some (q, page)) : e = .historyLoaded q (.ok page) := by
  unfold page? at h
  split at h
  · cases h
    rfl
  · cases h

def Allows (g : Regime) (s : Simulation) : Move → Prop
  | .call (.dispatch e) => g.AllowsEvent s e
  | .call (.deliver a f) => g.AllowsEvent s (.frameReceived a f.encode)
  | .store room _ _ _ => s.client.conversation.room = some room → g.misses
  | .release | .releaseReversed => ∀ e ∈ s.held, ∀ p ∈ page? e,
      s.client.conversation.Awaits p.1 → g.ready (s.server.log p.1.room) p.1 p.2
  | _ => True

/-- Moves outside the stay are not restricted. -/
def Permits (g : Regime) (stay : Nat) (s : Simulation) (m : Move) : Prop :=
  s.client.conversation.stay = stay → g.Allows s m

class Decides (g : Regime) where
  ready : ∀ log q page, Decidable (g.ready log q page)
  expected : ∀ t log m, Decidable (g.expected t log m)
  older : ∀ t log, Decidable (g.older t log)
  misses : Decidable g.misses

attribute [reducible, instance] Decides.ready Decides.expected Decides.older Decides.misses

section

variable [g.Decides]

instance (s : Simulation) (e : Event) : Decidable (g.AllowsEvent s e) :=
  match e with
  | .send _ => inferInstanceAs (Decidable (_ ∨ _ ∧ _))
  | .loadOlder => inferInstanceAs (Decidable (∀ _ ∈ List.filterMap _ _, _))
  | .frameReceived _ text => inferInstanceAs
      (Decidable (∀ _ ∈ ServerFrame.message? text, ∀ _ ∈ s.client.conversation.room, _ → _))
  | .historyLoaded _ _ => inferInstanceAs (Decidable (¬ _))
  | .posted _ _ => inferInstanceAs (Decidable (_ = false))
  | .start | .shutdown | .transportOpened _ | .transportClosed _ | .tick _ | .enterRoom _
  | .leaveRoom | .reloadHistory | .input _ | .activity | .setAvailability _ | .setNote _ _
  | .watch _ => inferInstanceAs (Decidable True)

instance (s : Simulation) (m : Move) : Decidable (g.Allows s m) :=
  match m with
  | .call (.dispatch e) => inferInstanceAs (Decidable (g.AllowsEvent s e))
  | .call (.deliver a f) =>
    inferInstanceAs (Decidable (g.AllowsEvent s (.frameReceived a f.encode)))
  | .store _ _ _ _ => inferInstanceAs (Decidable (_ → _))
  | .release | .releaseReversed => inferInstanceAs (Decidable (∀ _ ∈ s.held, ∀ _ ∈ page? _, _ → _))
  | .call (.advance _) | .call (.drop _) | .call (.openTransport _) | .call (.failPosts _)
  | .call (.failHistory _) | .call (.autoOpen _) | .set _ | .bring _ _ _ _ =>
    inferInstanceAs (Decidable True)

instance (stay : Nat) (s : Simulation) : DecidablePred (g.Permits stay s) :=
  fun m => inferInstanceAs (Decidable (s.client.conversation.stay = stay → g.Allows s m))

end

theorem AllowsEvent.admits (allows : g.AllowsEvent t e) (receives : e.isSend = false) :
    g.Admits t.client.conversation t.server e := by
  cases e with
  | send text => cases receives
  | loadOlder =>
      refine ⟨id, nofun, nofun, fun _ q asks => allows q ?_⟩
      rw [asks]
      exact List.mem_singleton.2 rfl
  | frameReceived a text =>
      refine ⟨id, nofun, fun room text' m he active decodes => ?_, nofun⟩
      obtain ⟨rfl, rfl⟩ := Client.Event.frameReceived.inj he
      have hmessage : m ∈ ServerFrame.message? text := by
        unfold ServerFrame.message?
        rw [decodes]
        rfl
      exact allows m hmessage room active rfl
  | historyLoaded q result =>
      refine ⟨id, fun q' page he awaits => ?_, nofun, nofun⟩
      obtain ⟨rfl, -⟩ := Client.Event.historyLoaded.inj he
      exact absurd awaits allows
  | posted q result =>
      refine ⟨fun current => ?_, nofun, nofun, nofun⟩
      exact Bool.false_ne_true (Eq.trans (Eq.symm allows) current)
  | _ => exact .of_plain rfl

theorem Allows.admits {call : Call} (allows : g.Allows t (.call call)) (hands : call.Hands e)
    (receives : e.isSend = false) : g.Admits t.client.conversation t.server e := by
  cases hands with
  | dispatch e => exact AllowsEvent.admits allows receives
  | deliver a f => exact AllowsEvent.admits allows rfl
  | advance | drop | openTransport => exact .of_plain rfl

theorem lt_stored {server server' : Server} {sender : UserId} {body : String} {ref : Option Ref}
    (reachable : server.Reachable user)
    (stored : server.post room sender body ref = .ok (server', m)) :
    ∀ id ∈ (server.log room).map Message.id, id < m.id := by
  rw [(Server.post_stores stored).2.1]
  exact (reachable.ordered room).below

/-- A message that was sent and stored, brought back under its number or under none, takes the place
behind all that was shown before it was sent. -/
theorem received_echo {client : Client} {server server' : Server} {text : String} {now : Instant}
    {wall : Int64} {ref : Ref} (sound : client.Sound identity settings)
    (active : c.room = some room) (settled : c.timeline.pending = [])
    (own : c.identity.user = identity.user)
    (sent : client.conversation = c.afterSend room text now wall ref)
    (stored : server.post room client.identity.user text (some ref) = .ok (server', m))
    (number : m' = m ∨ m' = { m with ref := none }) (unseen : m'.id ∉ c.timeline.ids) :
    (client.conversation.received m').1 = { client.conversation with
      timeline := c.timeline ++ [Entry.ofMessage room.number m'] } := by
  obtain ⟨hm, -, -⟩ := Server.post_spec stored
  have hown : m.sender = some c.identity.user := by
    rw [hm, sound.self, own]
    rfl
  refine Conversation.received_of_sent (by rw [sent]; exact active) settled (by rw [sent]; rfl)
    (by rw [sent]; rfl) ?_ ?_ ?_ unseen
  · rcases number with rfl | rfl <;> exact hown
  · rcases number with rfl | rfl <;> rw [hm] <;> rfl
  · rcases number with rfl | rfl
    · exact .inl (by rw [hm]; rfl)
    · exact .inr rfl

theorem Laws.kept_echo (laws : g.Laws)
    (holds : (g.accord identity settings stay).holds t.client t.server)
    (here : t.client.conversation.stay = stay) {text : String} {now : Instant} {wall : Int64}
    {ref : Ref} {client : Client} {sending : Simulation} {server : Server}
    (active : t.client.conversation.room = some room) (sound : client.Sound identity settings)
    (sent : client.conversation = t.client.conversation.afterSend room text now wall ref)
    (carries : Carries [] { t with client := client } sending)
    (stored : sending.server.post room sending.client.identity.user text (some ref) =
      .ok (server, m))
    (number : m' = m ∨ m' = { m with ref := none }) {frames : List (Address × ClientFrame)}
    (ok : { sending with server := server, queue := [], sent := frames }.process
      (.frameReceived (.room room) (ServerFrame.message m').encode) = .ok t') :
    (g.accord identity settings stay).Kept t t' := by
  obtain ⟨hsound, reachable, shown⟩ := holds
  have reflects := laws.reflects (shown here)
  have hclient : sending.client = client := carries.client
  have hlog : sending.server.log = t.server.log := funext carries.server.log
  have hnumber : m'.id = m.id := by rcases number with rfl | rfl <;> rfl
  have new : ∀ id ∈ (t.server.log room).map Message.id, id < m.id := by
    rw [← hlog]
    exact lt_stored (carries.reachable _ reachable) stored
  have unseen : m'.id ∉ t.client.conversation.timeline.ids := fun shown =>
    UInt64.lt_irrefl _ (hnumber ▸ new _ (reflects.stored room active shown))
  have hreceived := received_echo sound active reflects.settled
    (congrArg Identity.user hsound.owner) sent (hclient ▸ stored) number unseen
  refine laws.kept_arrival ⟨hsound, reachable, shown⟩ here active ?_ ?_ new hnumber ?_ ?_ ?_ rfl
    (fun e he => ?_) ok
  · exact (Server.log_post stored).trans (by rw [hlog])
  · exact .post (carries.reachable _ reachable) stored
  · exact hclient ▸ sound
  · show Conversation.SameHistory _ (sending.client.conversation.received m').1
    rw [hclient, hreceived, sent]
    exact ⟨⟨rfl, rfl, rfl, rfl, rfl⟩, rfl, rfl, rfl⟩
  · show sending.client.conversation.room = some room
    rw [hclient, sent]
    exact active
  · refine (carries.held e he).imp id ?_
    rintro (a | ⟨asked, -⟩)
    · exact ⟨a, rfl⟩
    · cases asked

theorem Laws.rests_send (laws : g.Laws) (rests : (g.accord identity settings stay).Rests t)
    {text : String} (permits : g.Permits stay t (.call (.dispatch (.send text))))
    (ok : t.dispatch (.send text) = .ok t') : (g.accord identity settings stay).Rests t' := by
  have lasts := laws.lasts identity settings stay
  by_cases here : t.client.conversation.stay = stay
  · obtain ⟨next, hfirst, -⟩ := bind_eq_ok.1 (dispatch_of_empty rests.queue (.send text) ▸ ok)
    rcases process_sends rests.holds.1 hfirst with rfl |
      ⟨room, wall, ref, client, sending, accepted, sound, sent, carries, hqueue, conveyed⟩
    · refine rests.dispatch lasts rests.queue (fun t' hprocess => ?_) ok
      obtain rfl := Except.ok.inj (hfirst.symm.trans hprocess)
      exact ⟨rests.holds, fun _ => id, fun _ => .inl, fun _ => .inl⟩
    · obtain ⟨live, echoes⟩ : t.client.isRoomLive = true ∧ t.options.echoMessages = true :=
        (permits here).resolve_left (by simp [accepted])
      have active := (Client.accepts?_eq_some accepted).2
      have hoptions : sending.options = t.options := carries.options
      cases conveyed with
      | lost _ mute =>
          rw [hoptions, echoes] at mute
          cases mute
      | requested down =>
          rw [live] at down
          cases down
      | @echoed server m m' _ stored number frames =>
          let back : Event := .frameReceived (.room room) (ServerFrame.message m').encode
          have follows : sending.queue ++ [back] = [back] := by
            rw [hqueue, rests.queue]
            rfl
          exact rests.dispatch_two lasts hfirst follows (fun _ =>
            laws.kept_echo rests.holds here active sound sent carries stored number) ok
  · exact rests.dispatch lasts rests.queue (fun t' => kept_sends rests.holds here) ok

theorem Laws.rests_call (laws : g.Laws) (rests : (g.accord identity settings stay).Rests t)
    {call : Call} (permits : g.Permits stay t (.call call)) (ok : t.call call = .ok t') :
    (g.accord identity settings stay).Rests t' := by
  have switched : ∀ failPosts failHistory, (g.accord identity settings stay).Rests
      { t with server :=
          { t.server with failPosts := failPosts, failHistory := failHistory } } := by
    intro failPosts failHistory
    exact rests.served ⟨rests.holds.1, .fails _ _ rests.holds.2.1, rests.holds.2.2⟩ fun _ => id
  have receives (others : ∀ e, call.Hands e → e.isSend = false) :
      (g.accord identity settings stay).Rests t' := by
    refine rests.call (laws.lasts identity settings stay)
      (fun e t₁ t₂ hands hclient hserver hprocess => ?_) switched ok
    have receives := others e hands
    refine laws.kept ?_ receives ?_ hprocess
    · rw [hclient, hserver]
      exact rests.holds
    · rw [hclient, hserver]
      exact fun here => Allows.admits (permits here) hands receives
  cases call with
  | dispatch e =>
      cases e with
      | send text => exact laws.rests_send rests permits ok
      | _ =>
          refine receives fun e hands => ?_
          cases hands
          rfl
  | _ =>
      refine receives fun e hands => ?_
      cases hands <;> rfl

theorem Laws.rests_store (laws : g.Laws) (rests : (g.accord identity settings stay).Rests t)
    {server : Server} {sender : UserId} {body : String} {ref : Option Ref}
    (may : t.client.conversation.stay = stay → t.client.conversation.room = some room → g.misses)
    (stored : t.server.post room sender body ref = .ok (server, m)) :
    (g.accord identity settings stay).Rests { t with server := server } := by
  obtain ⟨sound, reachable, shown⟩ := rests.holds
  have hlog : server.log = Logs.store t.server.log room m := Server.log_post stored
  have change (here : t.client.conversation.stay = stay) : g.Change t.client.conversation
      t.server.log t.client.conversation (Logs.store t.server.log room m) := .missed (may here)
  refine rests.served ⟨sound, .post reachable stored, fun here => ?_⟩ fun e held => ?_
  · rw [hlog]
    exact laws.changed (shown here) (change here)
  · show g.Held stay t.client.conversation server.log e
    rw [hlog]
    by_cases here : t.client.conversation.stay = stay
    · exact Held.changed held laws (shown here) (change here) rfl rfl rfl rfl
    · exact Held.of_elsewhere held here (Nat.le_refl _)

theorem Laws.rests_bring (laws : g.Laws) (rests : (g.accord identity settings stay).Rests t)
    {server : Server} {sender : UserId} {body : String} {ref : Option Ref}
    (stored : t.server.post room sender body ref = .ok (server, m))
    (ok : { t with server := server }.deliver (.room room) (.message m) = .ok t') :
    (g.accord identity settings stay).Rests t' := by
  have lasts := laws.lasts identity settings stay
  obtain ⟨sound, reachable, shown⟩ := rests.holds
  by_cases active : t.client.conversation.stay = stay ∧ t.client.conversation.room = some room
  · obtain ⟨here, active⟩ := active
    have new := lt_stored reachable stored
    have reflects := laws.reflects (shown here)
    have unseen : m.id ∉ t.client.conversation.timeline.ids := fun hshown =>
      UInt64.lt_irrefl _ (new _ (reflects.stored room active hshown))
    refine rests.dispatch lasts (t := { t with server := server }) rests.queue (fun t'' => ?_) ok
    refine laws.kept_arrival rests.holds here active (Server.log_post stored)
      (.post reachable stored) new rfl sound ?_ active rests.queue fun _ => .inl
    rw [Conversation.received_of_settled active reflects.settled,
      if_neg (mt Timeline.holds_iff.1 unseen)]
    exact .refl _
  · have rests' := laws.rests_store rests (fun here hroom => absurd ⟨here, hroom⟩ active) stored
    refine rests'.dispatch lasts rests'.queue (fun t'' => ?_) ok
    refine laws.kept rests'.holds rfl fun here => ⟨id, nofun, ?_, nofun⟩
    intro room' text m' he hroom
    obtain ⟨hroom', -⟩ := Client.Event.frameReceived.inj he
    obtain rfl := Address.room.inj hroom'
    exact absurd ⟨here, hroom⟩ active

theorem Laws.rests_move (laws : g.Laws) (rests : (g.accord identity settings stay).Rests t)
    {move : Move} (permits : g.Permits stay t move) (ok : t.move move = .ok t') :
    (g.accord identity settings stay).Rests t' := by
  have lasts := laws.lasts identity settings stay
  have released (permits : t.client.conversation.stay = stay → ∀ e ∈ t.held, ∀ p ∈ page? e,
      t.client.conversation.Awaits p.1 → g.ready (t.server.log p.1.room) p.1 p.2) :
      ∀ e ∈ t.held, (g.accord identity settings stay).queued t.client t.server e := by
    refine fun e he => .inl ⟨rests.held e he, ?_⟩
    rintro q page rfl here awaits
    exact permits here _ he (q, page) rfl awaits
  cases move with
  | call call => exact laws.rests_call rests permits ok
  | set options =>
      cases ok
      exact rests.same rfl rfl rfl rfl
  | store room sender body ref =>
      obtain ⟨stored, hpost, hmade⟩ := bind_eq_ok.1 ok
      cases hmade
      exact laws.rests_store rests permits (liftFault_eq_ok.1 hpost)
  | bring room sender body ref =>
      obtain ⟨stored, hpost, hbrought⟩ := bind_eq_ok.1 ok
      exact laws.rests_bring rests (liftFault_eq_ok.1 hpost) hbrought
  | release => exact rests.release lasts (released permits) (fun _ => id) ok
  | releaseReversed =>
      exact rests.release lasts (released permits) (fun _ => List.mem_reverse.1) ok

/-- Throughout a stay what is to hold holds, whatever was done before. -/
theorem Laws.plays (laws : g.Laws) (identity : Identity) (settings : Settings) (epoch : Int64)
    (entropy : Entropy) (options : Options) (audited : Bool) (stay : Nat)
    (plays : Plays (g.Permits stay) (new identity settings epoch entropy options audited) t) :
    (g.accord identity settings.link stay).Rests t := by
  refine plays.rests ⟨⟨Client.sound_new _ _ _ _, .new, fun _ => ?_⟩, rfl, nofun⟩
    fun _ _ _ rests permits => laws.rests_move rests permits
  exact laws.blank ⟨rfl, rfl, rfl⟩

end Regime

end Simulation

end LiveChat
