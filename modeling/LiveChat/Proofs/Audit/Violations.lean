import LiveChat.Proofs.Audit.Check

/-!
# What the checks report

Nothing is reported exactly if every client is in order. Otherwise each check that some client fails
is reported once, in the order of the checks, at the first client that fails it, wherever that
client stands.
-/

namespace LiveChat.Audit

variable {s : Snapshot} {c : ClientView} {check : Check}

/-! ## Clients in order -/

structure ClientView.InOrder (c : ClientView) : Prop where
  messages : c.messages.Pairwise fun m n => m.ref = none → n.ref = none → m.id ≠ n.id
  refs : c.messages.Pairwise fun m n => m.ref ≠ none → m.ref ≠ n.ref
  timers : ∀ channel ∈ c.channels, ¬ (channel.beatArmed = true ∧ channel.retryArmed = true) ∧
    (channel.beatArmed = true → channel.state = "Connected")
  rooms : c.channels.filter (·.room.isSome) = [] ∨
    ∃ channel, c.channels.filter (·.room.isSome) = [channel] ∧ channel.room = c.activeRoom
  typing : c.user ∉ c.typing

theorem nodup_confirmedIds_iff : c.confirmedIds.Nodup ↔
    c.messages.Pairwise fun m n => m.ref = none → n.ref = none → m.id ≠ n.id := by
  rw [ClientView.confirmedIds, List.Nodup, List.pairwise_map, List.pairwise_filter]
  simp

theorem nodup_pendingRefs_iff : c.pendingRefs.Nodup ↔
    c.messages.Pairwise fun m n => m.ref ≠ none → m.ref ≠ n.ref := by
  rw [ClientView.pendingRefs, List.Nodup, List.pairwise_filterMap]
  refine List.Pairwise.iff fun m n => ?_
  cases m.ref <;> cases n.ref <;> simp

theorem map_room_filter (channels : List ChannelView) :
    (channels.filter (·.room.isSome)).map ChannelView.room =
      (channels.filterMap ChannelView.room).map some := by
  induction channels with
  | nil => rfl
  | cons channel channels ih => cases hroom : channel.room <;> simp [hroom, ih]

theorem rooms_iff : (c.rooms = [] ∨ ∃ room, c.rooms = [room] ∧ c.activeRoom = some room) ↔
    c.channels.filter (·.room.isSome) = [] ∨
      ∃ channel, c.channels.filter (·.room.isSome) = [channel] ∧ channel.room = c.activeRoom := by
  have hrooms : (c.channels.filter (·.room.isSome)).map ChannelView.room = c.rooms.map some :=
    map_room_filter c.channels
  constructor
  · rintro (hnone | ⟨room, hone, hactive⟩)
    · rw [hnone] at hrooms
      exact .inl (List.map_eq_nil_iff.1 hrooms)
    · rw [hone] at hrooms
      obtain ⟨channel, hchannel, hroom⟩ := List.map_eq_singleton_iff.1 hrooms
      exact .inr ⟨channel, hchannel, hroom.trans hactive.symm⟩
  · rintro (hnone | ⟨channel, hone, hactive⟩)
    · rw [hnone] at hrooms
      exact .inl (List.map_eq_nil_iff.1 hrooms.symm)
    · rw [hone] at hrooms
      obtain ⟨room, hroom, hsome⟩ := List.map_eq_singleton_iff.1 hrooms.symm
      exact .inr ⟨room, hroom, hactive.symm.trans hsome.symm⟩

theorem inOrder_iff : c.InOrder ↔ ∀ check : Check, check.Holds c := by
  constructor
  · intro h check
    cases check with
    | distinctMessages => exact nodup_confirmedIds_iff.2 h.messages
    | distinctRefs => exact nodup_pendingRefs_iff.2 h.refs
    | exclusiveTimers => exact h.timers
    | singleRoomChannel => exact rooms_iff.2 h.rooms
    | typingExcludesSelf => exact h.typing
  · intro h
    exact {
      messages := nodup_confirmedIds_iff.1 (h .distinctMessages)
      refs := nodup_pendingRefs_iff.1 (h .distinctRefs)
      timers := h .exclusiveTimers
      rooms := rooms_iff.1 (h .singleRoomChannel)
      typing := h .typingExcludesSelf }

/-! ## What is reported -/

instance (check : Check) (c : ClientView) : Decidable (check.Holds c) :=
  decidable_of_iff _ offence?_eq_none_iff

theorem run_isSome_iff : (check.run s).isSome = true ↔ ∃ c ∈ s.clients, ¬ check.Holds c := by
  rw [← Option.ne_none_iff_isSome, Ne, run_eq_none_iff]
  simp only [Classical.not_forall, exists_prop]

/-- The checks that are reported are those that some client fails, in their order. -/
theorem map_check_violations (s : Snapshot) : (violations s).map Violation.check =
    Check.all.filter fun check => ∃ c ∈ s.clients, ¬ check.Holds c := by
  unfold violations
  induction Check.all with
  | nil => rfl
  | cons check checks ih =>
      rw [List.filterMap_cons, List.filter_cons, ← ih]
      cases hrun : check.run s with
      | none =>
          have passes : ¬ ∃ c ∈ s.clients, ¬ check.Holds c := by
            rw [← run_isSome_iff, hrun]
            exact Bool.false_ne_true
          rw [if_neg (mt of_decide_eq_true passes)]
          rfl
      | some message =>
          have fails : ∃ c ∈ s.clients, ¬ check.Holds c := by
            rw [← run_isSome_iff, hrun]
            rfl
          rw [if_pos (decide_eq_true fails)]
          rfl

/-- A check is reported at the first client that fails it. -/
theorem mem_violations_of_first {earlier later : List ClientView}
    (split : s.clients = earlier ++ c :: later) (clean : ∀ b ∈ earlier, check.Holds b)
    (fails : ¬ check.Holds c) : ∃ offence, check.offence? c = some offence ∧
      ⟨check, "client " ++ toString c.user ++ offence⟩ ∈ violations s := by
  obtain ⟨offence, hoffence⟩ := Option.ne_none_iff_exists'.1 (mt offence?_eq_none_iff.1 fails)
  have hrun : check.run s = some ("client " ++ toString c.user ++ offence) := by
    refine List.findSome?_eq_some_iff.2 ⟨earlier, c, later, split, ?_, fun b hb => ?_⟩
    · rw [hoffence]
      rfl
    · rw [offence?_eq_none_iff.2 (clean b hb)]
      rfl
  refine ⟨offence, hoffence, List.mem_filterMap.2 ⟨check, Check.mem_all check, ?_⟩⟩
  rw [hrun]
  rfl

/-- No check is reported exactly if every client is in order. The checks that are reported are those
that some client fails, each once and in their order, and a check is reported at the first client
that fails it, whatever clients stand before that one or behind it. -/
theorem failed_checks_reported (s : Snapshot) :
    (violations s = [] ↔ ∀ c ∈ s.clients, c.InOrder) ∧
      (violations s).map Violation.check =
        Check.all.filter (fun check => ∃ c ∈ s.clients, ¬ check.Holds c) ∧
      ∀ check earlier c later, s.clients = earlier ++ c :: later →
        (∀ b ∈ earlier, check.Holds b) → ¬ check.Holds c →
          ∃ offence, check.offence? c = some offence ∧
            ⟨check, "client " ++ toString c.user ++ offence⟩ ∈ violations s := by
  refine ⟨?_, map_check_violations s, fun check earlier c later split clean fails => ?_⟩
  · rw [violations_eq_nil_iff, forall_comm]
    simp only [inOrder_iff, forall_comm (α := Check)]
  · exact mem_violations_of_first split clean fails

/-- The first client is in order, the second one lists a message twice and shows itself typing. -/
theorem offences_of_second_client :
    let clean : ClientView := ⟨1, none, [], [2], [], [], []⟩
    let entry : MessageView := ⟨5, some 1, "hi", none⟩
    let odd : ClientView := ⟨2, none, [entry, ⟨5, some 2, "ho", some 5⟩, entry], [2], [], [], []⟩
    let s : Snapshot := ⟨[clean, odd]⟩
    s.clients = [clean] ++ odd :: [] ∧ (∀ b ∈ [clean], Check.typingExcludesSelf.Holds b) ∧
      ¬ Check.typingExcludesSelf.Holds odd ∧
      (violations s).map Violation.check = [.distinctMessages, .typingExcludesSelf] ∧
      ⟨.typingExcludesSelf, "client 2: shown as typing to themselves"⟩ ∈ violations s := by
  intro clean entry odd s
  obtain ⟨-, reported, first⟩ := failed_checks_reported s
  have passes : ∀ b ∈ [clean], Check.typingExcludesSelf.Holds b := by decide
  have fails : ¬ Check.typingExcludesSelf.Holds odd := by decide
  obtain ⟨offence, hoffence, hmem⟩ := first .typingExcludesSelf [clean] odd [] rfl passes fails
  cases hoffence
  have hmessage : "client " ++ toString odd.user ++ ": shown as typing to themselves" =
      "client 2: shown as typing to themselves" := by decide
  rw [hmessage] at hmem
  exact ⟨rfl, passes, fails, reported.trans (by decide), hmem⟩

end LiveChat.Audit
