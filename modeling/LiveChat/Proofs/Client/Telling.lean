import LiveChat.Proofs.Chat.Telling
import LiveChat.Proofs.Client.Effects
import LiveChat.Proofs.Client.Run
import LiveChat.Proofs.Wire.RoundTrip

/-!
# What the display is told of an event

The display shows what it was last told of. A change of the timeline, of the record of a user and of
the feed is told with the event that makes it. A change of who is seen typing is told too, unless
the event goes over from one room to another.
-/

namespace LiveChat

namespace Client

variable {identity : Identity} {settings : LinkSettings} {c c' : Client} {r : Reading} {e : Event}
  {actions : List Action} {ops : List Conversation.Operation} {log : List Turn}

/-! ## In no room -/

/-- In no room only entering one has anything to do. -/
theorem Does.perform_of_vacant {op : Conversation.Operation} (does : Does c r e op)
    (vacant : c.conversation.Vacant) :
    c.conversation.perform op = .ok (c.conversation, []) := by
  have inactive : ∀ {room}, c.room? ≠ some room := fun active => by
    have hnone : c.room? = none := vacant.room
    rw [hnone] at active
    cases active
  refine vacant.perform ?_ ?_
  · rintro room rfl
    cases does
  · cases does with
    | typing active => exact absurd active inactive
    | _ => rfl

theorem vacant_handle (vacant : c.room? = none → c.conversation.Vacant)
    (ok : c.handle r e = .ok (c', actions)) : c'.room? = none → c'.conversation.Vacant := by
  intro hnone
  obtain ⟨effects, passes, -⟩ := handle_passes ok
  unfold room? at hnone
  generalize c'.conversation = conversation at passes hnone
  cases passes with
  | rests => exact vacant hnone
  | leaves active => exact Conversation.vacant_leave active
  | enters | switches => cases hnone
  | does does perform =>
      cases hroom : c.room? with
      | none =>
          rw [does.perform_of_vacant (vacant hroom)] at perform
          cases perform
          exact vacant hroom
      | some room =>
          have hsame := (does.same_stay perform).1
          exact absurd (hroom.symm.trans (hsame.symm.trans hnone)) nofun

theorem Run.vacant {start : Client} (run : Run start log c) (fresh : start.conversation.Vacant) :
    c.room? = none → c.conversation.Vacant := by
  induction run with
  | start => exact fun _ => fresh
  | turn run handled ih => exact vacant_handle ih handled

/-! ## Typists -/

/-- The display is told of every change of who is seen typing in the active room, unless the event
goes over from one room to another: then it is told nothing, and goes on showing those who typed in
the room before. -/
theorem typists_told_but_on_switch (identity : Identity) (settings : Settings) (start : Instant)
    (entropy : Entropy) (log : List Turn) (c : Client)
    (run : Run (new identity settings start entropy) log c) (r : Reading) (e : Event) (c' : Client)
    (actions : List Action) (ok : c.handle r e = .ok (c', actions))
    (changed : c'.conversation.typists.visible ≠ c.conversation.typists.visible) :
    .typistsChanged ∈ actions ↔ ¬ ∃ old room, c.room? = some old ∧ e = .enterRoom room := by
  obtain ⟨effects, passes, hin⟩ := handle_passes ok
  rw [mem_iff_of_effectsIn (x := .typistsChanged) hin rfl]
  generalize c'.conversation = conversation at passes changed
  cases passes with
  | rests => exact absurd rfl changed
  | leaves active leaves vacates =>
      have htold := (Conversation.perform_typists_told .leave rfl nofun).resolve_left changed
      refine iff_of_true (List.mem_append_right _ htold) ?_
      rintro ⟨old, room, -, rfl⟩
      exact vacates room rfl
  | enters vacant =>
      have hnobody := (run.vacant (Conversation.vacant_new identity settings.chat) vacant).typists
      rw [hnobody] at changed
      exact absurd rfl changed
  | @switches old room active =>
      refine iff_of_false (fun htold => ?_) (not_not_intro ⟨old, room, active, rfl⟩)
      rcases List.mem_append.1 htold with htold | htold
      · exact Conversation.stopTyping_untold htold
      · exact Conversation.enter_untold room htold
  | does does perform =>
      have stays : ∀ room, e ≠ .enterRoom room := by
        rintro room rfl
        cases does
      refine iff_of_true ?_ fun ⟨_, room, _, henter⟩ => stays room henter
      refine (Conversation.perform_typists_told _ perform ?_).resolve_left changed
      rintro room rfl
      cases does

theorem leaving_tells_of_typist :
    let typing := (ServerFrame.typing 2 "bo").encode
    ∃ log c c' actions, Run (new ⟨1, "ada"⟩ .standard .zero (.cycle [])) log c ∧
      log.map Turn.event = [.enterRoom ⟨1, 2⟩, .frameReceived (.room ⟨1, 2⟩) typing] ∧
      c.handle ⟨.zero, none⟩ .leaveRoom = .ok (c', actions) ∧
      c.conversation.typists.visible = [(2, "bo")] ∧ c'.conversation.typists.visible = [] ∧
      .typistsChanged ∈ actions := by
  intro typing
  obtain ⟨log, c, run, hevents, hshown⟩ := Run.of_replay
    (new ⟨1, "ada"⟩ .standard .zero (.cycle []))
    [(⟨.zero, none⟩, .enterRoom ⟨1, 2⟩), (⟨.zero, none⟩, .frameReceived (.room ⟨1, 2⟩) typing)]
    (f := fun _ c => c.conversation.typists.visible) (a := [(2, "bo")])
    (by decide +kernel)
  obtain ⟨c', actions, hleave, -, -, hnone, -⟩ := (run.sound (sound_new _ _ _ _)).leaveRoom
  have handled : c.handle ⟨.zero, none⟩ .leaveRoom = .ok (c', actions) := hleave
  have hvacant := (run.turn handled).vacant (Conversation.vacant_new _ _) hnone
  have hcleared : c'.conversation.typists.visible = [] := by
    rw [hvacant.typists]
    rfl
  refine ⟨log, c, c', actions, run, hevents, handled, hshown, hcleared, ?_⟩
  refine (typists_told_but_on_switch _ _ _ _ log c run _ _ c' actions handled ?_).2 ?_
  · rw [hshown, hcleared]
    decide
  · rintro ⟨_, _, _, ⟨⟩⟩

/-- The client goes over to another room from one where someone types. -/
theorem switch_leaves_typist_shown :
    ¬ ∀ (identity : Identity) (settings : Settings) (start : Instant) (entropy : Entropy)
      (log : List Turn) (c : Client), Run (new identity settings start entropy) log c →
      ∀ r e c' actions, c.handle r e = .ok (c', actions) →
        c'.conversation.typists.visible ≠ c.conversation.typists.visible →
        .typistsChanged ∈ actions := by
  intro told
  obtain ⟨log, c, run, -, hends⟩ := Run.of_replay
    (new ⟨1, "ada"⟩ .standard .zero (.cycle []))
    [(⟨.zero, none⟩, .enterRoom ⟨1, 2⟩),
      (⟨.zero, none⟩, .frameReceived (.room ⟨1, 2⟩) (ServerFrame.typing 2 "bo").encode)]
    (f := fun _ c => (c.conversation.typists.visible,
      (c.handle ⟨.zero, none⟩ (.enterRoom ⟨1, 3⟩)).toOption.map fun next : Client × List Action =>
        (next.1.conversation.typists.visible, decide (Action.typistsChanged ∈ next.2))))
    (a := ([(2, "bo")], some ([], false))) (by decide +kernel)
  obtain ⟨hshown, hswitched⟩ := Prod.mk.inj hends
  cases handled : c.handle ⟨.zero, none⟩ (.enterRoom ⟨1, 3⟩) with
  | error failure => simp [handled, Except.toOption] at hswitched
  | ok next =>
      simp only [handled, Except.toOption, Option.map_some, Option.some.injEq,
        Prod.mk.injEq, decide_eq_false_iff_not] at hswitched
      refine hswitched.2 (told _ _ _ _ log c run _ _ next.1 next.2 handled ?_)
      rw [hshown, hswitched.1]
      decide

/-! ## Timeline, presence and notices -/

def Action.notice? : Action → Option Notice
  | .noticePublished n => some n
  | _ => none

def notices (actions : List Action) : List Notice := actions.filterMap Action.notice?

@[simp] theorem notices_append (actions actions' : List Action) :
    notices (actions ++ actions') = notices actions ++ notices actions' := List.filterMap_append

@[simp] theorem notices_ofLinks (actions : List LinkAction) : notices (ofLinks actions) = [] := by
  refine List.filterMap_eq_nil_iff.2 fun x hx => ?_
  obtain ⟨y, -, rfl⟩ := List.mem_map.1 hx
  cases y <;> rfl

@[simp] theorem notices_sendGlobal (frame : Option ClientFrame) :
    notices (c.sendGlobal frame) = [] := by
  cases frame with
  | none => rfl
  | some f => exact notices_ofLinks _

@[simp] theorem notices_applyChat (step : Conversation × List ChatEffect) :
    notices (c.applyChat step).2 = [] := by
  refine List.filterMap_eq_nil_iff.2 fun x hx => ?_
  obtain ⟨effect, -, hx⟩ := List.mem_flatMap.1 hx
  cases effect with
  | transmit f =>
      unfold effectActions at hx
      dsimp only at hx
      split at hx
      · cases hx
      · exact List.filterMap_eq_nil_iff.1 (notices_ofLinks _) x hx
  | _ =>
      obtain rfl := List.mem_singleton.1 hx
      rfl

/-- Nothing that is told of the roster and the feed has changed. -/
structure Calm (c c' : Client) (actions : List Action) : Prop where
  identity : c'.identity = c.identity
  self : c'.roster.self = c.roster.self
  records : c'.roster.records = c.roster.records
  feed : c'.feed = c.feed
  unpublished : notices actions = []

theorem Moves.calm (h : Moves c ops c' actions) : Calm c c' actions := by
  induction h with
  | nil c => exact ⟨rfl, rfl, rfl, rfl, rfl⟩
  | links => exact ⟨rfl, rfl, rfl, rfl, notices_ofLinks _⟩
  | chat => exact ⟨rfl, rfl, rfl, rfl, notices_applyChat _⟩
  | append _ _ first second =>
      refine ⟨second.identity.trans first.identity, second.self.trans first.self,
        second.records.trans first.records, second.feed.trans first.feed, ?_⟩
      rw [notices_append, first.unpublished, second.unpublished]
      rfl

theorem Passes.timeline_told {conversation : Conversation} {effects : List ChatEffect}
    (h : Passes c r e conversation effects) :
    conversation.timeline = c.conversation.timeline ∨ .timelineChanged ∈ effects := by
  cases h with
  | rests => exact .inl rfl
  | leaves =>
      have htold := Conversation.perform_timeline_told (c := c.conversation) .leave rfl
      exact htold.imp id (List.mem_append_right _)
  | enters => exact .inr List.mem_cons_self
  | switches => exact .inr (List.mem_append_right _ List.mem_cons_self)
  | does _ perform => exact Conversation.perform_timeline_told _ perform

/-- What an event does to the records of the roster and to the feed is told. -/
structure Tells (c c' : Client) (actions : List Action) : Prop where
  presence : ∀ user, c'.roster.record? user ≠ c.roster.record? user →
    ∃ users, .presenceChanged users ∈ actions ∧ user ∈ users
  feed : (notices actions = [] ∧ c'.feed = c.feed) ∨
    ∃ n, notices actions = [n] ∧ c'.feed.entries = n :: c.feed.entries

theorem Calm.tells (h : Calm c c' actions) : Tells c c' actions := by
  refine ⟨fun user changed => ?_, .inl ⟨h.unpublished, h.feed⟩⟩
  unfold Roster.record? at changed
  rw [h.records] at changed
  exact absurd rfl changed

theorem Takes.tells {f : ServerFrame} (takes : Takes c r .global f c' actions) :
    Tells c c' actions := by
  cases takes with
  | presence p =>
      refine ⟨fun user changed => ⟨_, List.mem_cons_self, ?_⟩, .inl ⟨rfl, rfl⟩⟩
      refine List.mem_singleton.2 (Decidable.not_not.1 fun other => changed ?_)
      exact Roster.update_record?_of_ne other
  | presences batch =>
      refine ⟨fun user changed => ?_, .inl ⟨?_, rfl⟩⟩
      · have hmem : user ∈ (c.roster.merge batch.entries).2 :=
          Decidable.not_not.1 fun absent => changed (Roster.merge_record?_of_notMem absent)
        have hsome : (c.roster.merge batch.entries).2.isEmpty = false :=
          List.isEmpty_eq_false_iff_exists_mem.2 ⟨user, hmem⟩
        refine ⟨_, ?_, hmem⟩
        rw [hsome]
        exact List.mem_cons_self
      · split <;> rfl
  | notice n =>
      refine ⟨fun user changed => absurd rfl changed, ?_⟩
      unfold Feed.take
      split
      · exact .inl ⟨rfl, rfl⟩
      · exact .inr ⟨n, rfl, rfl⟩

theorem Parts.tells (h : Parts c r e c' actions) (self : c.roster.self = c.identity.user) :
    Tells c c' actions := by
  cases h with
  | moves moves => exact moves.calm.tells
  | global takes => exact takes.tells
  | @note note emoji wall =>
      refine ⟨fun user changed => ⟨_, List.mem_append_right _ List.mem_cons_self, ?_⟩, .inl ?_⟩
      · refine List.mem_singleton.2 (Decidable.not_not.1 fun other => changed ?_)
        exact Roster.update_record?_of_ne (self ▸ other)
      · rw [notices_append, notices_sendGlobal]
        exact ⟨rfl, rfl⟩

/-- The local user stays the same, and the one whose roster it is. -/
theorem Parts.self (h : Parts c r e c' actions) :
    c'.identity = c.identity ∧ c'.roster.self = c.roster.self := by
  cases h with
  | moves moves => exact ⟨moves.calm.identity, moves.calm.self⟩
  | note => exact ⟨rfl, rfl⟩
  | global takes =>
      have footprint := takes.footprint
      unfold Footprint at footprint
      rw [footprint]
      exact ⟨rfl, rfl⟩

theorem Run.self {start : Client} (run : Run start log c)
    (fresh : start.roster.self = start.identity.user) : c.roster.self = c.identity.user := by
  induction run with
  | start => exact fresh
  | turn _ handled ih =>
      obtain ⟨hidentity, hself⟩ := (handle_parts handled).self
      rw [hidentity, hself, ih]

/-- The display is told of every change of the timeline and of every record of presence that is new
or has changed, and the feed changes exactly if one notice is published, which is then its newest.
-/
theorem changes_told (identity : Identity) (settings : Settings) (start : Instant)
    (entropy : Entropy) (log : List Turn) (c : Client)
    (run : Run (new identity settings start entropy) log c) (r : Reading) (e : Event) (c' : Client)
    (actions : List Action) (ok : c.handle r e = .ok (c', actions)) :
    (c'.conversation.timeline ≠ c.conversation.timeline → .timelineChanged ∈ actions) ∧
      (∀ user, c'.roster.record? user ≠ c.roster.record? user →
        ∃ users, .presenceChanged users ∈ actions ∧ user ∈ users) ∧
      ((notices actions = [] ∧ c'.feed = c.feed) ∨
        ∃ n, notices actions = [n] ∧ c'.feed.entries = n :: c.feed.entries) := by
  have tells := (handle_parts ok).tells (run.self rfl)
  refine ⟨fun changed => ?_, tells.presence, tells.feed⟩
  obtain ⟨effects, passes, hin⟩ := handle_passes ok
  exact (mem_iff_of_effectsIn hin rfl).2 (passes.timeline_told.resolve_left changed)

/-- A message of another user comes in a room that has just been entered. -/
theorem message_tells_of_timeline :
    let m : Message := ⟨7, none, some 2, some "bo", none, "hi", .text, 0, none⟩
    let text := (ServerFrame.message m).encode
    ∃ log c c' actions, Run (new ⟨1, "ada"⟩ .standard .zero (.cycle [])) log c ∧
      log.map Turn.event = [.enterRoom ⟨1, 2⟩] ∧
      c.handle ⟨.zero, none⟩ (.frameReceived (.room ⟨1, 2⟩) text) = .ok (c', actions) ∧
      c.conversation.timeline = [] ∧ c'.conversation.timeline = [.ofMessage 2 m] ∧
      .timelineChanged ∈ actions := by
  intro m text
  let start := new ⟨1, "ada"⟩ .standard .zero (.cycle [])
  let c := (start.join [] ⟨1, 2⟩).1
  have entered : start.handle ⟨.zero, none⟩ (.enterRoom ⟨1, 2⟩) = .ok (start.join [] ⟨1, 2⟩) := rfl
  have run := Run.start.turn entered
  have active : c.room? = some ⟨1, 2⟩ := rfl
  have takes := Takes.message (r := ⟨.zero, none⟩) active m
  have handled : c.handle ⟨.zero, none⟩ (.frameReceived (.room ⟨1, 2⟩) text) =
      .ok (c.applyChat (c.conversation.received m)) :=
    congrArg Except.ok (takes.frameReceived rfl (ServerFrame.decode_encode_message m))
  refine ⟨_, c, _, _, run, rfl, handled, rfl, rfl, ?_⟩
  exact (changes_told _ _ _ _ _ c run _ _ _ _ handled).1 nofun

end Client

end LiveChat
