import LiveChat.Proofs.Chat.Sound

/-!
# What the display is told

An operation that changes the timeline tells so, and one that changes who is seen typing tells so
too, but for entering a room: that clears the typists in silence. A conversation that is in no room
has nothing to show, and no operation but entering a room and a frame of a typist changes that.
-/

namespace LiveChat

namespace Conversation

variable {c c' : Conversation} {op : Operation} {effects : List ChatEffect}

/-! ## Changes of the timeline -/

theorem retract_told (place : Option Nat) :
    (c.retract place).1.timeline = c.timeline ∨ .timelineChanged ∈ (c.retract place).2 := by
  cases place with
  | none => exact .inl rfl
  | some i => exact .inr List.mem_cons_self

theorem settle_told (m : Message) :
    (c.settle m).1.timeline = c.timeline ∨ .timelineChanged ∈ (c.settle m).2 := by
  unfold settle
  split
  · exact .inl rfl
  · dsimp only
    split
    · exact retract_told _
    · generalize (if m.ref.isSome = true then _ else _ : Option Nat) = place
      cases place <;> exact .inr List.mem_cons_self

theorem applyPage_told (q : HistoryRequest) (page : Page) :
    .timelineChanged ∈ (c.applyPage q page).2 := by
  unfold applyPage
  cases q.kind with
  | newest => exact List.mem_cons_self
  | older =>
      dsimp only
      split <;> exact List.mem_cons_self

theorem perform_timeline_told (op : Operation) (h : c.perform op = .ok (c', effects)) :
    c'.timeline = c.timeline ∨ .timelineChanged ∈ effects := by
  cases op with
  | enter room =>
      obtain ⟨-, rfl⟩ := eq_of_ok h
      exact .inr List.mem_cons_self
  | leave =>
      obtain ⟨rfl, rfl⟩ := eq_of_ok h
      unfold leave
      split
      · exact .inl rfl
      · exact .inr List.mem_cons_self
  | historyLoaded q result =>
      obtain ⟨rfl, rfl⟩ := eq_of_ok h
      by_cases awaits : c.Awaits q
      · rw [historyLoaded_of_awaits awaits]
        cases result with
        | ok page => exact .inr (applyPage_told q page)
        | error e => exact .inl rfl
      · rw [historyLoaded_of_not_awaits awaits]
        exact .inl rfl
  | send text now wall live =>
      rcases send_cases h with ⟨-, rfl, -⟩ | ⟨room, ref, -, -, -, -, rfl⟩
      · exact .inl rfl
      · exact .inr (List.mem_append_right _ List.mem_cons_self)
  | posted q result =>
      obtain ⟨rfl, rfl⟩ := eq_of_ok h
      unfold posted
      split
      · exact .inl rfl
      · cases result with
        | ok m => exact settle_told _
        | error e => exact retract_told _
  | received m =>
      obtain ⟨rfl, rfl⟩ := eq_of_ok h
      unfold received
      split
      · exact .inl rfl
      · split
        · exact settle_told m
        · split
          · exact .inl rfl
          · exact .inr List.mem_cons_self
  | _ =>
      obtain ⟨load, loading, typists, signal, rfl⟩ := perform_frame h rfl
      exact .inl rfl

/-! ## Changes of who types -/

theorem typistsEffect_told {changed : Bool} {before after : Typists}
    (h : changed = false → after.visible = before.visible) :
    after.visible = before.visible ∨ .typistsChanged ∈ typistsEffect changed := by
  cases changed with
  | false => exact .inl (h rfl)
  | true => exact .inr List.mem_cons_self

theorem perform_typists_told (op : Operation) (h : c.perform op = .ok (c', effects))
    (stays : ∀ room, op ≠ .enter room) :
    c'.typists.visible = c.typists.visible ∨ .typistsChanged ∈ effects := by
  cases op with
  | enter room => exact absurd rfl (stays room)
  | leave =>
      obtain ⟨rfl, rfl⟩ := eq_of_ok h
      unfold leave
      split
      · exact .inl rfl
      · exact .inr (by simp)
  | otherTyping user nickname now =>
      obtain ⟨rfl, rfl⟩ := eq_of_ok h
      unfold otherTyping
      split
      · exact .inl rfl
      · exact typistsEffect_told Typists.insert_visible
  | otherStopped user =>
      obtain ⟨rfl, rfl⟩ := eq_of_ok h
      exact typistsEffect_told Typists.remove_visible
  | tick now =>
      obtain ⟨rfl, rfl⟩ := eq_of_ok h
      exact (typistsEffect_told Typists.expire_visible).imp id (List.mem_append_right _)
  | _ =>
      cases (perform_typistStep h).2 with
      | kept typists => exact .inl (by rw [typists])
      | cleared switches => cases switches

/-- Entering a room and falling silent say nothing of who types. -/
theorem enter_untold (room : Room) : .typistsChanged ∉ (c.enter room).2 := by
  simp [enter, beginLoad]

theorem stopTyping_untold : .typistsChanged ∉ c.stopTyping.2 := by
  unfold stopTyping
  cases c.signal.stop.2 <;> simp

/-! ## In no room -/

/-- The conversation is in no room, and there is nothing to show. -/
structure Vacant (c : Conversation) : Prop where
  room : c.room = none
  timeline : c.timeline = []
  typists : c.typists = .empty
  loading : c.loading = none
  signal : c.signal = .silent

theorem vacant_new (identity : Identity) (settings : ChatSettings) :
    (new identity settings).Vacant := ⟨rfl, rfl, rfl, rfl, rfl⟩

theorem vacant_leave {room : Room} (active : c.room = some room) : c.leave.1.Vacant := by
  unfold leave
  rw [active]
  exact ⟨rfl, rfl, rfl, rfl, rfl⟩

/-- Whether an operation shows another user as typing. -/
def Operation.isTyping : Operation → Bool
  | .otherTyping .. => true
  | _ => false

/-- Of the operations, only entering a room and showing someone as typing do anything. -/
theorem Vacant.perform (h : c.Vacant) (stays : ∀ room, op ≠ .enter room)
    (quiet : op.isTyping = false) : c.perform op = .ok (c, []) := by
  obtain ⟨identity, settings, room, stay, load, timeline, total, hasOlder, loading, lastSend,
    lastRef, typists, signal⟩ := c
  obtain ⟨rfl, rfl, rfl, rfl, rfl⟩ := h
  cases op with
  | enter room => exact absurd rfl (stays room)
  | otherTyping => cases quiet
  | _ => rfl

end Conversation

end LiveChat
