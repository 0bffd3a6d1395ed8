import LiveChat.Proofs.Audit.Check
import LiveChat.Proofs.Client.Sound

/-!
# The checks hold of every client

A client that hears one event after another handles them all as long as no count of events, no wait
and no clock is out of range, and none of the checks ever finds an offence.
-/

namespace LiveChat

open Audit

/-! ## What can be seen of a sound client -/

theorem Audit.confirmedIds_ofClient (c : Client) :
    (ClientView.ofClient c).confirmedIds = c.conversation.timeline.confirmedIds := by
  have hpending : ∀ e : Entry, (MessageView.ofEntry e).ref.isNone = !e.isPending := by
    intro e
    show e.ref?.isNone = !e.ref?.isSome
    cases e.ref? <;> rfl
  unfold ClientView.confirmedIds ClientView.ofClient
  rw [List.filter_map, List.map_map]
  exact congrArg (List.map Entry.id) (List.filter_congr fun e _ => hpending e)

theorem Audit.pendingRefs_ofClient (c : Client) :
    (ClientView.ofClient c).pendingRefs = c.conversation.timeline.refs := by
  unfold ClientView.pendingRefs ClientView.ofClient
  rw [List.filterMap_map]
  rfl

theorem Audit.rooms_ofClient (c : Client) : (ClientView.ofClient c).rooms =
    (c.switchboard.lines.keys.filterMap Address.room?).map Room.text := by
  unfold ClientView.rooms ClientView.ofClient Table.keys
  rw [List.filterMap_map, List.filterMap_map, List.map_filterMap]
  rfl

theorem Link.beatArmed_exclusive (l : Link) :
    ¬ (l.beatArmed = true ∧ l.retryArmed = true) ∧
      (l.beatArmed = true → l.phase.name = "Connected") := by
  unfold beatArmed isLive retryArmed retryDelay?
  cases l.phase <;> simp [Phase.name]

/-- A list without repetition that holds exactly what an option holds. -/
theorem eq_toList_of_nodup {l : List α} {o : Option α} (nodup : l.Nodup)
    (mem : ∀ a, a ∈ l ↔ o = some a) : l = o.toList := by
  match l with
  | [] =>
      cases o with
      | none => rfl
      | some a => cases (mem a).2 rfl
  | [a] =>
      rw [(mem a).1 List.mem_cons_self]
      rfl
  | a :: b :: rest =>
      have ha := (mem a).1 List.mem_cons_self
      have hb := (mem b).1 (List.mem_cons_of_mem _ List.mem_cons_self)
      obtain rfl : a = b := Option.some.inj (ha.symm.trans hb)
      simp at nodup

namespace Client

variable {identity : Identity} {settings : LinkSettings} {c : Client}

theorem Sound.held_rooms (h : c.Sound identity settings) :
    c.switchboard.lines.keys.filterMap Address.room? = c.room?.toList := by
  refine eq_toList_of_nodup ?_ fun room => ?_
  · refine List.Pairwise.filterMap _ ?_ (Table.keys_nodup c.switchboard.lines)
    rintro (_ | a) (_ | b) hne r hr r' hr' heq <;> cases hr <;> cases hr'
    exact hne (congrArg Address.room heq)
  · have hheld : Address.room room ∈ c.switchboard.lines.keys ↔ c.room? = some room := by
      rw [Table.mem_keys_iff, ← Switchboard.link?_isSome, h.switchboard.link?_isSome_iff, h.rooms]
      by_cases hroom : c.room? = some room <;> simp [hroom]
    rw [← hheld, List.mem_filterMap]
    constructor
    · rintro ⟨_ | r, hr, heq⟩ <;> cases heq
      exact hr
    · exact fun hr => ⟨_, hr, rfl⟩

theorem Sound.check (h : c.Sound identity settings) (check : Check) :
    check.Holds (.ofClient c) := by
  cases check with
  | distinctMessages =>
      show List.Nodup _
      rw [Audit.confirmedIds_ofClient]
      exact h.conversation.ids
  | distinctRefs =>
      show List.Nodup _
      rw [Audit.pendingRefs_ofClient]
      exact h.conversation.refs
  | exclusiveTimers =>
      intro channel hchannel
      obtain ⟨⟨a, line⟩, -, rfl⟩ := List.mem_map.1 hchannel
      exact line.link.beatArmed_exclusive
  | singleRoomChannel =>
      show _ = [] ∨ ∃ room, _ = [room] ∧ c.room?.map Room.text = some room
      rw [Audit.rooms_ofClient, h.held_rooms]
      cases c.room? with
      | none => exact .inl rfl
      | some room => exact .inr ⟨room.text, rfl, rfl⟩
  | typingExcludesSelf =>
      show c.identity.user ∉ c.conversation.typists.table.keys
      have hself := h.conversation.typists
      rw [h.owner, ← h.self] at hself
      rw [Table.mem_keys_iff]
      exact Bool.eq_false_iff.1 hself

/-! ## Runs -/

/-- An event with the clocks as they stand when it is handled. -/
structure Occasion where
  now : Instant
  wall : Int64
  event : Event

def Occasion.reading (o : Occasion) : Reading := ⟨o.now, some o.wall⟩

def handleAll (c : Client) (occasions : List Occasion) : Except Error Client :=
  occasions.foldlM (fun c o => do .ok (← c.handle o.reading o.event).1) c

theorem handleAll_cons {c c' : Client} {o : Occasion} {actions : List Action}
    (h : c.handle o.reading o.event = .ok (c', actions)) (rest : List Occasion) :
    c.handleAll (o :: rest) = c'.handleAll rest := by
  unfold handleAll
  rw [List.foldlM_cons, h]
  rfl

/-- The last number given exceeds the greatest time stamp by the number of events at most. -/
theorem performs_lastRef {c c' : Conversation} {ops : List Conversation.Operation}
    (h : c.Performs ops c')
    (sends : (∃ op, ops = [op]) ∨ ∀ op ∈ ops, op.isSend = false) :
    c'.lastRef.toNat ≤ max (UInt64.size / 2 - 1) (c.lastRef.toNat + 1) := by
  induction h with
  | nil => omega
  | @cons c c₁ c₂ op ops effects head tail ih =>
      obtain ⟨-, hkept, hnext⟩ := Conversation.perform_lastRef head
      rcases sends with ⟨_, hone⟩ | hnone
      · obtain ⟨rfl, rfl⟩ := List.cons.inj hone
        cases tail
        exact hnext
      · have hrest := ih (.inr fun op hop => hnone op (List.mem_cons_of_mem _ hop))
        rw [hkept (hnone _ List.mem_cons_self)] at hrest
        exact hrest

theorem Sound.handleAll (h : c.Sound identity settings) (never : settings.retry.NeverOverflows)
    (occasions : List Occasion)
    (few : max (UInt64.size / 2 - 1) c.conversation.lastRef.toNat + occasions.length + 1 <
      UInt64.size) :
    ∃ c', c.handleAll occasions = .ok c' ∧ c'.Sound identity settings := by
  induction occasions generalizing c with
  | nil => exact ⟨c, rfl, h⟩
  | cons o rest ih =>
      rw [List.length_cons] at few
      rcases h.handle o.reading o.event with ⟨c', actions, handles⟩ | ⟨-, overflows⟩
      · have hnumber := performs_lastRef handles.performs (operations_sends _ _ _)
        obtain ⟨c'', hrest, hsound⟩ := ih handles.sound (by omega)
        exact ⟨c'', (handleAll_cons handles.ok rest).trans hrest, hsound⟩
      · generalize o.event = event at overflows
        cases overflows with
        | clock hwall => cases hwall
        | wait hwait =>
            rw [h.settings] at hwait
            exact absurd never hwait
        | number hfull => omega

/-- Whatever the events and the clocks, a client handles fewer than `2 ^ 63` events, and after each
of them no check finds an offence. -/
theorem checks_hold_after_every_event (identity : Identity) (settings : Settings) (start : Instant)
    (entropy : Entropy) (never : settings.link.retry.NeverOverflows) (occasions : List Occasion)
    (few : occasions.length < UInt64.size / 2) (n : Nat) :
    ∃ c, (new identity settings start entropy).handleAll (occasions.take n) = .ok c ∧
      violations (.ofClient c) = [] ∧ ∀ check : Check, check.Holds (.ofClient c) := by
  have hstart := sound_new identity settings start entropy
  have hlast : (new identity settings start entropy).conversation.lastRef.toNat = 0 := rfl
  have hlength : (occasions.take n).length ≤ occasions.length := List.length_take_le' n occasions
  have hsize : UInt64.size = 18446744073709551616 := rfl
  obtain ⟨c, hrun, hsound⟩ := hstart.handleAll never (occasions.take n) (by omega)
  refine ⟨c, hrun, violations_eq_nil_iff.2 fun check v hv => ?_, hsound.check⟩
  rw [List.mem_singleton.1 hv]
  exact hsound.check check

/-- Two rooms, a message that is sent and one that is forged for its number. -/
theorem checks_hold_with_forged_echo :
    let forged : Message := ⟨1, none, some 1, none, none, "hi", .text, 0, some 5⟩
    let occasions : List Occasion :=
      [⟨.zero, 0, .start⟩, ⟨.zero, 0, .enterRoom ⟨1, 2⟩⟩, ⟨.zero, 5, .send "hi"⟩,
        ⟨.zero, 0, .frameReceived (.room ⟨1, 2⟩) (ServerFrame.message forged).encode⟩,
        ⟨.zero, 0, .transportClosed (.room ⟨1, 2⟩)⟩, ⟨.zero, 0, .enterRoom ⟨1, 3⟩⟩]
    Retry.standard.NeverOverflows ∧ occasions.length < UInt64.size / 2 ∧
      ∃ c, (new ⟨1, "ada"⟩ .standard .zero (.cycle [])).handleAll (occasions.take 6) = .ok c ∧
        violations (.ofClient c) = [] ∧ ∀ check : Check, check.Holds (.ofClient c) := by
  intro forged occasions
  have few : occasions.length < UInt64.size / 2 := by decide
  exact ⟨Retry.neverOverflows_standard, few, checks_hold_after_every_event ⟨1, "ada"⟩ .standard
    .zero (.cycle []) Retry.neverOverflows_standard occasions few 6⟩

end Client

end LiveChat
