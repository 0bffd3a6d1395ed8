import LiveChat.Proofs.Chat.Operation
import LiveChat.Proofs.Chat.Typists

/-!
# Sound conversations

A conversation is sound if no message is listed twice, no number is waited for twice, and the local
user is not among those who type. That numbers stay distinct rests on the last number given being
the greatest. Every operation keeps a conversation sound, and none but a sending one can fail.
-/

namespace LiveChat

namespace Conversation

variable {c c' : Conversation} {op : Operation} {effects : List ChatEffect}

/-! ## What stays, and who types -/

theorem historyLoaded_identity (r : HistoryRequest) (result : Except RequestError Page) :
    (c.historyLoaded r result).1.identity = c.identity ∧
      (c.historyLoaded r result).1.typists = c.typists := by
  by_cases h : c.Awaits r
  · rw [historyLoaded_of_awaits h]
    cases result <;> exact ⟨rfl, rfl⟩
  · rw [historyLoaded_of_not_awaits h]
    exact ⟨rfl, rfl⟩

/-- What an operation does to the set of those who type. -/
inductive TypistStep (c c' : Conversation) : Operation → Prop
  | kept {op : Operation} (typists : c'.typists = c.typists) : TypistStep c c' op
  | cleared {op : Operation} (switches : op.switches = true) (typists : c'.typists = .empty) :
      TypistStep c c' op
  | joined {user : UserId} {nickname : String} {now : Instant} (other : user ≠ c.identity.user)
      (typists : c'.typists = (c.typists.insert user nickname now).1) :
      TypistStep c c' (.otherTyping user nickname now)
  | left {user : UserId} (typists : c'.typists = (c.typists.remove user).1) :
      TypistStep c c' (.otherStopped user)
  | expired {now : Instant}
      (typists : c'.typists = (c.typists.expire now c.settings.typistTtl).1) :
      TypistStep c c' (.tick now)

theorem perform_typistStep (h : c.perform op = .ok (c', effects)) :
    c'.identity = c.identity ∧ TypistStep c c' op := by
  cases op with
  | send text now wall live =>
      rcases send_cases h with ⟨-, rfl, -⟩ | ⟨room, ref, -, -, -, rfl, -⟩
      · exact ⟨rfl, .kept rfl⟩
      · exact ⟨rfl, .kept rfl⟩
  | enter room =>
      obtain ⟨rfl, -⟩ := eq_of_ok h
      exact ⟨rfl, .cleared rfl rfl⟩
  | leave =>
      obtain ⟨rfl, -⟩ := eq_of_ok h
      unfold leave
      split
      · exact ⟨rfl, .kept rfl⟩
      · exact ⟨rfl, .cleared rfl rfl⟩
  | loadNewest =>
      obtain ⟨rfl, -⟩ := eq_of_ok h
      unfold loadNewest
      split
      · exact ⟨rfl, .kept rfl⟩
      · split <;> exact ⟨rfl, .kept rfl⟩
  | loadOlder =>
      obtain ⟨rfl, -⟩ := eq_of_ok h
      unfold loadOlder
      split
      · exact ⟨rfl, .kept rfl⟩
      · split <;> exact ⟨rfl, .kept rfl⟩
  | historyLoaded r result =>
      obtain ⟨rfl, -⟩ := eq_of_ok h
      obtain ⟨hidentity, htypists⟩ := historyLoaded_identity (c := c) r result
      exact ⟨hidentity, .kept htypists⟩
  | posted r result =>
      obtain ⟨rfl, -⟩ := eq_of_ok h
      obtain ⟨t, ht⟩ := posted_frame (c := c) r result
      exact ⟨by rw [ht], .kept (by rw [ht])⟩
  | received m =>
      obtain ⟨rfl, -⟩ := eq_of_ok h
      obtain ⟨t, ht⟩ := received_frame (c := c) m
      exact ⟨by rw [ht], .kept (by rw [ht])⟩
  | otherTyping user nickname now =>
      obtain ⟨rfl, -⟩ := eq_of_ok h
      unfold otherTyping
      split
      · exact ⟨rfl, .kept rfl⟩
      · next hother => exact ⟨rfl, .joined hother rfl⟩
  | otherStopped user =>
      obtain ⟨rfl, -⟩ := eq_of_ok h
      exact ⟨rfl, .left rfl⟩
  | input text now =>
      obtain ⟨rfl, -⟩ := eq_of_ok h
      unfold input
      split <;> exact ⟨rfl, .kept rfl⟩
  | stopTyping =>
      obtain ⟨rfl, -⟩ := eq_of_ok h
      exact ⟨rfl, .kept rfl⟩
  | tick now =>
      obtain ⟨rfl, -⟩ := eq_of_ok h
      exact ⟨rfl, .expired rfl⟩

/-! ## Soundness -/

structure Sound (c : Conversation) : Prop where
  ids : c.timeline.confirmedIds.Nodup
  refs : c.timeline.refs.Nodup
  /-- No pending entry has a number above the last one given. -/
  numbered : ∀ ref ∈ c.timeline.refs, ref.toNat ≤ c.lastRef.toNat
  typists : c.typists.contains c.identity.user = false

theorem sound_new (identity : Identity) (settings : ChatSettings) : (new identity settings).Sound :=
  ⟨.nil, .nil, nofun, rfl⟩

theorem Sound.typistStep (h : c.Sound) (step : TypistStep c c' op) :
    c'.typists.contains c.identity.user = false := by
  have hself := h.typists
  cases step with
  | kept typists => rw [typists, hself]
  | cleared _ typists =>
      rw [typists]
      rfl
  | joined other typists =>
      rw [typists, Typists.contains_insert, hself, Bool.or_false, decide_eq_false_iff_not]
      exact Ne.symm other
  | left typists => rw [typists, Typists.contains_remove, hself, Bool.and_false]
  | expired typists =>
      rw [typists, Bool.eq_false_iff]
      intro hexpired
      rw [Typists.contains_of_expire hexpired] at hself
      cases hself

/-- The entry of a message that was sent has a number that no other entry has. -/
theorem Sound.refs_sent (h : c.Sound) {ref : Ref} {wall : Int64} {room : Room} {text : String}
    (number : nextRef c.lastRef wall = .ok ref) :
    (c.timeline ++ [c.pendingEntry room text wall ref]).refs.Nodup ∧
      ∀ r ∈ (c.timeline ++ [c.pendingEntry room text wall ref]).refs, r.toNat ≤ ref.toNat := by
  have hgt := nextRef_gt number
  have hrefs : (c.timeline ++ [c.pendingEntry room text wall ref]).refs =
      c.timeline.refs ++ [ref] := Timeline.refs_append _ _
  rw [hrefs]
  constructor
  · rw [List.nodup_append]
    refine ⟨h.refs, by simp, fun a ha b hb hab => ?_⟩
    have hle := h.numbered a ha
    rw [hab, List.mem_singleton.1 hb] at hle
    omega
  · intro r hr
    rcases List.mem_append.1 hr with hr | hr
    · have hle := h.numbered r hr
      omega
    · exact Nat.le_of_eq (congrArg UInt64.toNat (List.mem_singleton.1 hr))

theorem Sound.perform (h : c.Sound) (ok : c.perform op = .ok (c', effects)) : c'.Sound := by
  obtain ⟨hidentity, hstep⟩ := perform_typistStep ok
  have htypists : c'.typists.contains c'.identity.user = false := by
    rw [hidentity]
    exact h.typistStep hstep
  cases perform_timelineStep ok with
  | edited lastRef edit =>
      have hsub := edit.refs_sublist
      refine ⟨edit.confirmedIds_nodup h.ids, hsub.nodup h.refs, fun ref href => ?_, htypists⟩
      rw [lastRef]
      exact h.numbered ref (hsub.subset href)
  | cleared _ _ timeline =>
      exact ⟨by simp [timeline], by simp [timeline], by simp [timeline], htypists⟩
  | reloaded _ _ lastRef timeline =>
      refine ⟨?_, ?_, ?_, htypists⟩
      · rw [timeline, Timeline.confirmedIds_reload]
        exact Timeline.nodup_fresh _ _
      · rw [timeline, Timeline.refs_reload]
        exact h.refs
      · rw [timeline, Timeline.refs_reload, lastRef]
        exact h.numbered
  | sent number lastRef timeline =>
      obtain ⟨hnodup, hle⟩ := h.refs_sent number
      rw [← timeline] at hnodup hle
      refine ⟨?_, hnodup, ?_, htypists⟩
      · rw [timeline, Timeline.confirmedIds_append]
        simpa [Timeline.confirmedIds_cons, pendingEntry, Entry.isPending, Entry.ref?] using h.ids
      · rw [lastRef]
        exact hle

/-- The last number given grows only when a message is sent: by one, or to the wall clock's time. -/
theorem perform_lastRef (h : c.perform op = .ok (c', effects)) :
    c.lastRef.toNat ≤ c'.lastRef.toNat ∧ (op.isSend = false → c'.lastRef = c.lastRef) ∧
      c'.lastRef.toNat ≤ max (UInt64.size / 2 - 1) (c.lastRef.toNat + 1) := by
  have hsize : UInt64.size = 18446744073709551616 := rfl
  cases perform_timelineStep h with
  | edited lastRef | cleared _ lastRef | reloaded _ _ lastRef =>
      rw [lastRef]
      exact ⟨Nat.le_refl _, fun _ => rfl, by omega⟩
  | @sent text now wall live room ref number lastRef =>
      have hspec := nextRef_spec number
      have hwall := wall.toInt_lt
      rw [lastRef]
      refine ⟨by omega, ?_, by omega⟩
      intro hsend
      cases hsend

/-! ## What can be reached -/

theorem Performs.sound {ops : List Operation} (h : c.Performs ops c') (sound : c.Sound) :
    c'.Sound := by
  induction h with
  | nil => exact sound
  | cons op head tail ih => exact ih (sound.perform head)

end Conversation

end LiveChat
