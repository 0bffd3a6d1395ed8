import LiveChat.Proofs.Chat.Operation

/-!
# Settling what is pending

A message with the number of a pending entry takes that entry out, whether or not its own number is
taken already, and so does the answer to the entry's post. No operation but sending adds to what is
pending.
-/

namespace LiveChat.Conversation

variable {c c' : Conversation} {op : Operation} {effects : List ChatEffect} {room : Room}
  {ref : Ref}

/-- One of the pending entries is gone, and the others are left in their order. -/
def Settled (ref : Ref) (c c' : Conversation) : Prop :=
  ∃ before after, c.timeline.refs = before ++ ref :: after ∧ c'.timeline.refs = before ++ after

/-- What is left when the entry at a place with this number is taken out. -/
theorem refs_split_at {t : Timeline} {i : Nat} {p : Entry} (hp : t[i]? = some p)
    (href : p.ref? = some ref) :
    t.refs = (Timeline.refs (t.take i)) ++ ref :: (Timeline.refs (t.drop (i + 1))) := by
  have hsplit : t.refs = Timeline.refs (t.take i ++ p :: t.drop (i + 1)) :=
    congrArg Timeline.refs (Timeline.split_at hp)
  rw [hsplit, Timeline.refs_append, Timeline.refs_cons, href]
  rfl

theorem retract_settled (hmem : ref ∈ c.timeline.refs) :
    Settled ref c (c.retract (c.timeline.placeOfRef? ref)).1 := by
  obtain ⟨i, hi⟩ := Option.isSome_iff_exists.1 (Timeline.placeOfRef?_isSome_of_mem hmem)
  obtain ⟨p, hp, href⟩ := Timeline.placeOfRef?_spec hi
  refine ⟨_, _, refs_split_at hp href, ?_⟩
  rw [hi]
  show Timeline.refs (c.timeline.eraseIdx i) = _
  rw [List.eraseIdx_eq_take_drop_succ, Timeline.refs_append]

theorem settle_settled {m : Message} (hroom : c.room = some room) (href : m.ref = some ref)
    (hmem : ref ∈ c.timeline.refs) : Settled ref c (c.settle m).1 := by
  unfold settle
  rw [hroom, href]
  dsimp only [Option.bind_some, Option.isSome_some]
  by_cases hheld : c.timeline.holdsConfirmed m.id = true
  · rw [if_pos hheld]
    exact retract_settled hmem
  · rw [if_neg hheld, if_pos rfl]
    obtain ⟨i, hi⟩ := Option.isSome_iff_exists.1 (Timeline.placeOfRef?_isSome_of_mem hmem)
    obtain ⟨p, hp, hpref⟩ := Timeline.placeOfRef?_spec hi
    refine ⟨_, _, refs_split_at hp hpref, ?_⟩
    rw [hi]
    show Timeline.refs (c.timeline.set i (Entry.ofMessage room.number m)) = _
    rw [Timeline.set_at hp, Timeline.refs_append, Timeline.refs_cons, Entry.ref?_ofMessage]
    rfl

theorem received_settled {m : Message} (hroom : c.room = some room)
    (sender : m.sender = some c.identity.user) (href : m.ref = some ref)
    (hmem : ref ∈ c.timeline.refs) : Settled ref c (c.received m).1 := by
  rw [received_of_own hroom sender]
  exact settle_settled hroom href hmem

theorem posted_settled {r : PostRequest} (current : c.isCurrent r.room r.stay = true)
    {result : Except RequestError Message} (href : ∀ m, result = .ok m → m.ref = some r.ref)
    (hmem : r.ref ∈ c.timeline.refs) : Settled r.ref c (c.posted r result).1 := by
  unfold posted
  rw [if_neg (by simp [current])]
  cases result with
  | error e => exact retract_settled hmem
  | ok m =>
      refine settle_settled (isCurrent_iff.1 current).1 ?_ hmem
      simp [href m rfl]

theorem Settled.refs_eq_nil (h : Settled ref c c') (only : c.timeline.refs = [ref]) :
    c'.timeline.refs = [] := by
  obtain ⟨before, after, hbefore, hafter⟩ := h
  rw [only] at hbefore
  cases before with
  | nil =>
      obtain ⟨-, rfl⟩ := List.cons.inj hbefore
      exact hafter
  | cons r before =>
      have hnil := (List.cons.inj hbefore).2
      simp at hnil

theorem perform_refs (h : c.perform op = .ok (c', effects)) (receives : op.isSend = false) :
    c'.timeline.refs.Sublist c.timeline.refs := by
  cases perform_timelineStep h with
  | edited _ edit => exact edit.refs_sublist
  | cleared _ _ timeline =>
      rw [timeline]
      exact List.nil_sublist _
  | reloaded _ _ _ timeline =>
      have hrefs : c'.timeline.refs = c.timeline.refs := by
        rw [timeline, Timeline.refs_reload]
      exact hrefs ▸ .refl _
  | sent => cases receives

end LiveChat.Conversation
