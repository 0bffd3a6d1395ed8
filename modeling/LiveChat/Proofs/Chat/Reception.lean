import LiveChat.Proofs.Chat.Confirmation

/-!
# Receiving while nothing is pending

While nothing is pending what is shown are confirmed messages of the log of the room. A message that
comes is then put behind what is shown, unless it is shown already, and a page goes in front of what
is shown or in its place. The user's own message that comes back takes the place of the entry that
alone is pending, whether it carries the number it was sent with or none.
-/

namespace LiveChat

/-- The messages of each room, oldest first. -/
abbrev Logs := Room → List Message

namespace Logs

/-- The logs once a message has been stored in a room. -/
def store (logs : Logs) (room : Room) (m : Message) : Logs :=
  fun r => if r = room then logs room ++ [m] else logs r

theorem store_self (logs : Logs) (room : Room) (m : Message) :
    logs.store room m room = logs room ++ [m] := if_pos rfl

theorem store_of_ne {other room : Room} (h : other ≠ room) (logs : Logs) (m : Message) :
    logs.store room m other = logs other := if_neg h

theorem prefix_store (logs : Logs) (room : Room) (m : Message) (other : Room) :
    logs other <+: logs.store room m other := by
  unfold store
  split
  · next h => exact h ▸ List.prefix_append _ _
  · exact List.prefix_rfl

theorem subset_store (logs : Logs) (room : Room) (m : Message) (other : Room) :
    (logs other).map Message.id ⊆ (logs.store room m other).map Message.id :=
  List.map_subset _ (prefix_store logs room m other).subset

theorem mem_store (logs : Logs) (room : Room) (m : Message) :
    m.id ∈ (logs.store room m room).map Message.id := by
  rw [store_self]
  exact List.mem_map_of_mem (List.mem_append_right _ List.mem_cons_self)

end Logs

namespace Timeline

variable {t : Timeline}

theorem lastIdx?_snoc {p : α → Bool} {l : List α} {a : α} (h : p a = true) :
    lastIdx? p (l ++ [a]) = some l.length := by
  induction l with
  | nil => simp [lastIdx?, h]
  | cons b l ih => simp [lastIdx?, ih]

theorem holds_eq_holdsConfirmed (settled : t.pending = []) (id : MessageId) :
    t.holdsConfirmed id = t.holds id := by
  rw [Bool.eq_iff_iff, holdsConfirmed_iff, holds_iff, confirmedIds_eq_ids settled]

theorem placeOfRef?_of_settled (settled : t.pending = []) (ref : Ref) :
    t.placeOfRef? ref = none := by
  refine placeOfRef?_eq_none ?_
  rw [(refs_eq_nil_iff t).2 settled]
  exact List.not_mem_nil

theorem placeOfBody?_of_settled (settled : t.pending = []) (sender : UserId) (body : String) :
    t.placeOfBody? sender body = none := by
  cases hplace : t.placeOfBody? sender body with
  | none => rfl
  | some i =>
      obtain ⟨p, hp, pending, -⟩ := placeOfBody?_spec hplace
      have hmem : p ∈ t.pending := List.mem_filter.2 ⟨List.mem_of_getElem? hp, pending⟩
      rw [settled] at hmem
      cases hmem

end Timeline

namespace Conversation

variable {c : Conversation} {logs logs' : Logs} {room : Room} {q : HistoryRequest} {page : Page}
  {m : Message}

/-- What is shown are confirmed messages of the log of the room. -/
structure Reflects (c : Conversation) (logs : Logs) : Prop where
  settled : c.timeline.pending = []
  stored : ∀ room, c.room = some room → c.timeline.ids ⊆ (logs room).map Message.id

namespace Reflects

theorem of_more (h : c.Reflects logs)
    (more : ∀ room, (logs room).map Message.id ⊆ (logs' room).map Message.id) : c.Reflects logs' :=
  { h with stored := fun room active => List.Subset.trans (h.stored room active) (more room) }

theorem confirmedCount (h : c.Reflects logs) :
    c.timeline.confirmedCount = c.timeline.length := by
  have hids := congrArg List.length (Timeline.confirmedIds_eq_ids h.settled)
  rwa [Timeline.confirmedIds, Timeline.ids, Timeline.ids, List.length_map, List.length_map] at hids

theorem behind (h : c.Reflects logs) (active : c.room = some room) {entry : Entry}
    (confirmed : entry.isPending = false) (stored : entry.id ∈ (logs room).map Message.id) :
    { c with timeline := c.timeline ++ [entry] }.Reflects logs := by
  refine ⟨?_, fun room' hroom => ?_⟩
  · rw [Timeline.pending_append, h.settled, Timeline.pending,
      List.filter_cons_of_neg (by simp [confirmed])]
    rfl
  · obtain rfl : room = room' := Option.some.inj (active.symm.trans hroom)
    rw [Timeline.ids_append, List.append_subset]
    exact ⟨h.stored _ active, List.cons_subset.2 ⟨stored, List.nil_subset _⟩⟩

/-- Which messages are shown once a page has come. -/
theorem ids_applyPage (h : c.Reflects logs) (q : HistoryRequest) (page : Page) :
    (c.applyPage q page).1.timeline.ids = match q.kind with
      | .newest => (Timeline.fresh [] page.messages).map Message.id
      | .older => (Timeline.fresh c.timeline.ids page.messages).map Message.id ++
          c.timeline.ids := by
  cases hkind : q.kind with
  | newest =>
      rw [applyPage_newest hkind, Timeline.reload, h.settled, List.append_nil,
        Timeline.ids_ofMessages]
  | older =>
      rw [applyPage_older hkind, Timeline.ids_append, Timeline.missing, Timeline.ids_ofMessages]

/-- A message of the page is shown, whether it was before or not. -/
theorem mem_ids_applyPage (h : c.Reflects logs) (hm : m ∈ page.messages) :
    m.id ∈ (c.applyPage q page).1.timeline.ids := by
  have hid : m.id ∈ page.messages.map Message.id := List.mem_map_of_mem hm
  rw [h.ids_applyPage]
  cases q.kind with
  | newest => exact Timeline.mem_fresh_iff.2 ⟨hid, List.not_mem_nil⟩
  | older =>
      rw [List.mem_append]
      by_cases hshown : m.id ∈ c.timeline.ids
      · exact .inr hshown
      · exact .inl (Timeline.mem_fresh_iff.2 ⟨hid, hshown⟩)

theorem applyPage (h : c.Reflects logs) (active : c.room = some q.room)
    (stored : page.messages.map Message.id ⊆ (logs q.room).map Message.id) :
    (c.applyPage q page).1.Reflects logs := by
  have hnew : ∀ seen, (Timeline.fresh seen page.messages).map Message.id ⊆
      (logs q.room).map Message.id :=
    fun seen => List.Subset.trans (fun _ hid => (Timeline.mem_fresh_iff.1 hid).1) stored
  refine ⟨?_, fun room hroom => ?_⟩
  · cases hkind : q.kind with
    | newest =>
        rw [applyPage_newest hkind, Timeline.reload, h.settled, List.append_nil,
          Timeline.pending_ofMessages]
    | older =>
        rw [applyPage_older hkind, Timeline.pending_append, Timeline.missing,
          Timeline.pending_ofMessages, h.settled, List.append_nil]
  · obtain rfl : q.room = room := Option.some.inj (active.symm.trans hroom)
    rw [h.ids_applyPage]
    cases q.kind with
    | newest => exact hnew []
    | older => exact List.append_subset.2 ⟨hnew _, h.stored _ active⟩

end Reflects

theorem settle_of_settled (active : c.room = some room) (settled : c.timeline.pending = [])
    (m : Message) : (c.settle m).1 = { c with
      timeline := if c.timeline.holds m.id then c.timeline
        else c.timeline ++ [Entry.ofMessage room.number m] } := by
  have hbyRef : m.ref.bind c.timeline.placeOfRef? = none := by
    cases m.ref with
    | none => rfl
    | some ref => exact Timeline.placeOfRef?_of_settled settled ref
  have hbyBody := Timeline.placeOfBody?_of_settled settled c.identity.user m.body
  unfold settle
  split
  · next hnone =>
    rw [active] at hnone
    cases hnone
  · next room' hroom =>
    obtain rfl : room = room' := Option.some.inj (active.symm.trans hroom)
    dsimp only
    rw [Timeline.holds_eq_holdsConfirmed settled, hbyRef, hbyBody, ite_self]
    split <;> rfl

/-- While nothing is pending a message comes in behind all others, once. -/
theorem received_of_settled (active : c.room = some room) (settled : c.timeline.pending = [])
    (m : Message) : (c.received m).1 = { c with
      timeline := if c.timeline.holds m.id then c.timeline
        else c.timeline ++ [Entry.ofMessage room.number m] } := by
  unfold received
  split
  · next hnone =>
    rw [active] at hnone
    cases hnone
  · next room' hroom =>
    obtain rfl : room = room' := Option.some.inj (active.symm.trans hroom)
    split
    · exact settle_of_settled active settled m
    · split <;> rfl

/-- The message that alone is pending comes back, under its number or with none. -/
theorem received_of_sent {sent : Conversation} {text : String} {wall : Int64} {ref : Ref}
    {m : Message} (active : sent.room = some room) (settled : c.timeline.pending = [])
    (identity : sent.identity = c.identity)
    (pending : sent.timeline = c.timeline ++ [c.pendingEntry room text wall ref])
    (own : m.sender = some c.identity.user) (body : m.body = text)
    (number : m.ref = some ref ∨ m.ref = none) (new : m.id ∉ c.timeline.ids) :
    (sent.received m).1 = { sent with
      timeline := c.timeline ++ [Entry.ofMessage room.number m] } := by
  have hheld : sent.timeline.holdsConfirmed m.id = false := by
    refine Bool.eq_false_iff.2 fun held => new ?_
    rw [Timeline.holdsConfirmed_iff, pending, Timeline.confirmedIds_append,
      Timeline.confirmedIds_eq_ids settled] at held
    simpa [Timeline.confirmedIds_cons, pendingEntry, Entry.isPending, Entry.ref?] using held
  have hrefs : ref ∉ c.timeline.refs := by
    rw [(Timeline.refs_eq_nil_iff _).2 settled]
    exact List.not_mem_nil
  have hplace : (if m.ref.isSome then m.ref.bind sent.timeline.placeOfRef?
      else sent.timeline.placeOfBody? sent.identity.user m.body) = some c.timeline.length := by
    rcases number with href | href
    · rw [href, pending]
      exact Timeline.placeOfRef?_append hrefs rfl
    · rw [href, pending, identity, body]
      exact Timeline.lastIdx?_snoc (by simp [pendingEntry, Entry.isPending, Entry.ref?])
  unfold received
  rw [active]
  dsimp only
  rw [if_pos (by rw [own, identity])]
  unfold settle
  rw [active]
  dsimp only
  rw [hheld, if_neg (by simp), hplace]
  dsimp only
  rw [pending, List.set_append_right _ _ (Nat.le_refl _), Nat.sub_self]
  rfl

end Conversation

end LiveChat
