import LiveChat.Audit.Check

/-!
# What the checks look for

A check finds no offence in a client exactly if the property that it stands for holds of what can be
seen of the client.
-/

namespace LiveChat.Audit

/-- The property of a client that a check stands for. -/
def Check.Holds (c : ClientView) : Check → Prop
  | distinctMessages => c.confirmedIds.Nodup
  | distinctRefs => c.pendingRefs.Nodup
  | exclusiveTimers => ∀ channel ∈ c.channels,
      ¬ (channel.beatArmed = true ∧ channel.retryArmed = true) ∧
        (channel.beatArmed = true → channel.state = "Connected")
  | singleRoomChannel => c.rooms = [] ∨ ∃ room, c.rooms = [room] ∧ c.activeRoom = some room
  | typingExcludesSelf => c.user ∉ c.typing

theorem firstRepeat?_eq_none_iff [BEq α] [LawfulBEq α] {seen l : List α} :
    firstRepeat? seen l = none ↔ l.Nodup ∧ ∀ a ∈ l, a ∉ seen := by
  induction l generalizing seen with
  | nil => simp [firstRepeat?]
  | cons a l ih =>
      unfold firstRepeat?
      by_cases ha : a ∈ seen
      · rw [if_pos (List.contains_iff_mem.2 ha)]
        refine iff_of_false nofun fun h => ?_
        exact h.2 a List.mem_cons_self ha
      · rw [if_neg (by simpa using ha), ih, List.nodup_cons]
        constructor
        · rintro ⟨hnodup, hfresh⟩
          refine ⟨⟨fun hl => hfresh a hl List.mem_cons_self, hnodup⟩, fun b hb => ?_⟩
          rcases List.mem_cons.1 hb with rfl | hb
          · exact ha
          · exact fun hseen => hfresh b hb (List.mem_cons_of_mem a hseen)
        · rintro ⟨⟨hal, hnodup⟩, hfresh⟩
          refine ⟨hnodup, fun b hb hseen => ?_⟩
          rcases List.mem_cons.1 hseen with rfl | hseen
          · exact hal hb
          · exact hfresh b (List.mem_cons_of_mem a hb) hseen

theorem firstRepeat?_nil_eq_none_iff [BEq α] [LawfulBEq α] {l : List α} :
    firstRepeat? [] l = none ↔ l.Nodup := by
  simp [firstRepeat?_eq_none_iff]

theorem timerFault?_eq_none_iff {c : ChannelView} :
    c.timerFault? = none ↔ ¬ (c.beatArmed = true ∧ c.retryArmed = true) ∧
      (c.beatArmed = true → c.state = "Connected") := by
  unfold ChannelView.timerFault?
  cases c.beatArmed with
  | false => simp
  | true => cases c.retryArmed <;> simp

theorem roomFault?_eq_none_iff {c : ClientView} :
    c.roomFault? = none ↔ c.rooms = [] ∨ ∃ room, c.rooms = [room] ∧ c.activeRoom = some room := by
  unfold ClientView.roomFault?
  match hrooms : c.rooms with
  | [] => simp
  | [room] =>
      dsimp only
      by_cases hactive : c.activeRoom = some room <;> simp [hactive]
  | _ :: _ :: _ => simp

theorem offence?_eq_none_iff {check : Check} {c : ClientView} :
    check.offence? c = none ↔ check.Holds c := by
  cases check with
  | distinctMessages => exact Option.map_eq_none_iff.trans firstRepeat?_nil_eq_none_iff
  | distinctRefs => exact Option.map_eq_none_iff.trans firstRepeat?_nil_eq_none_iff
  | exclusiveTimers =>
      unfold Check.offence? Check.Holds
      simp only [List.findSome?_eq_none_iff, Option.map_eq_none_iff, timerFault?_eq_none_iff]
  | singleRoomChannel => exact Option.map_eq_none_iff.trans roomFault?_eq_none_iff
  | typingExcludesSelf => simp [Check.offence?, Check.Holds]

theorem run_eq_none_iff {check : Check} {s : Snapshot} :
    check.run s = none ↔ ∀ c ∈ s.clients, check.Holds c := by
  unfold Check.run
  simp only [List.findSome?_eq_none_iff, Option.map_eq_none_iff, offence?_eq_none_iff]

theorem Check.mem_all (check : Check) : check ∈ Check.all := by cases check <;> decide

theorem violations_eq_nil_iff {s : Snapshot} :
    violations s = [] ↔ ∀ check : Check, ∀ c ∈ s.clients, check.Holds c := by
  unfold violations
  simp only [List.filterMap_eq_nil_iff, Option.map_eq_none_iff, run_eq_none_iff, Check.mem_all,
    true_implies]

end LiveChat.Audit
