import LiveChat.Proofs.Chat.Sound

/-!
# Where entries come from

An entry that an operation adds to the timeline is that of a message which comes in with the
operation, or of the message that is sent. A typist that it adds is the one whom it shows. Nothing
else gets in, and what belongs to a room is gone when another is entered.
-/

namespace LiveChat

/-- A message that answers a post, with what it does not say of its sender and its number. -/
def PostRequest.complete (q : PostRequest) (self : UserId) (m : Message) : Message :=
  { m with ref := m.ref.or (some q.ref), sender := m.sender.or (some self) }

namespace Conversation

variable {c c' : Conversation} {op : Operation} {effects : List ChatEffect} {e : Entry}

/-- The operation brings an entry into the timeline. -/
inductive Adds (c : Conversation) : Operation → Entry → Prop
  | received {room : Room} (active : c.room = some room) (m : Message) :
      Adds c (.received m) (.ofMessage room.number m)
  | loaded {q : HistoryRequest} {page : Page} {m : Message} (awaits : c.Awaits q)
      (listed : m ∈ page.messages) :
      Adds c (.historyLoaded q (.ok page)) (.ofMessage q.room.number m)
  | answered {q : PostRequest} (current : c.isCurrent q.room q.stay = true) (m : Message) :
      Adds c (.posted q (.ok m)) (.ofMessage q.room.number (q.complete c.identity.user m))
  | sent {room : Room} {text : String} {now : Instant} {wall : Int64} {live : Bool} {ref : Ref}
      (active : c.room = some room) :
      Adds c (.send text now wall live) (c.pendingEntry room text wall ref)

theorem mem_retract {place : Option Nat} (h : e ∈ (c.retract place).1.timeline) :
    e ∈ c.timeline := by
  cases place with
  | none => exact h
  | some i => exact List.mem_of_mem_eraseIdx h

theorem mem_settle {m : Message} (h : e ∈ (c.settle m).1.timeline) :
    e ∈ c.timeline ∨ ∃ room, c.room = some room ∧ e = .ofMessage room.number m := by
  unfold settle at h
  split at h
  · exact .inl h
  · next room active =>
    dsimp only at h
    split at h
    · exact .inl (mem_retract h)
    · generalize (if m.ref.isSome = true then _ else _ : Option Nat) = place at h
      cases place with
      | none =>
          rcases List.mem_append.1 h with h | h
          · exact .inl h
          · exact .inr ⟨room, active, List.mem_singleton.1 h⟩
      | some i => exact (List.mem_or_eq_of_mem_set h).imp id fun h => ⟨room, active, h⟩

theorem mem_applyPage {q : HistoryRequest} {page : Page}
    (h : e ∈ (c.applyPage q page).1.timeline) :
    e ∈ c.timeline ∨ ∃ m ∈ page.messages, e = .ofMessage q.room.number m := by
  have listed : ∀ seen, e ∈ (Timeline.fresh seen page.messages).map (.ofMessage q.room.number) →
      ∃ m ∈ page.messages, e = .ofMessage q.room.number m := fun seen h => by
    obtain ⟨m, hm, rfl⟩ := List.mem_map.1 h
    exact ⟨m, (Timeline.fresh_sublist seen _).subset hm, rfl⟩
  cases hkind : q.kind with
  | newest =>
      rw [applyPage_newest hkind] at h
      rcases List.mem_append.1 h with h | h
      · exact .inr (listed [] h)
      · exact .inl (List.mem_filter.1 h).1
  | older =>
      rw [applyPage_older hkind] at h
      rcases List.mem_append.1 h with h | h
      · exact .inr (listed _ h)
      · exact .inl h

theorem perform_adds (h : c.perform op = .ok (c', effects)) (mem : e ∈ c'.timeline) :
    e ∈ c.timeline ∨ c.Adds op e := by
  cases op with
  | historyLoaded q result =>
      obtain ⟨rfl, -⟩ := eq_of_ok h
      by_cases awaits : c.Awaits q
      · rw [historyLoaded_of_awaits awaits] at mem
        cases result with
        | error failure => exact .inl mem
        | ok page =>
            rcases mem_applyPage mem with mem | ⟨m, listed, rfl⟩
            · exact .inl mem
            · exact .inr (.loaded awaits listed)
      · rw [historyLoaded_of_not_awaits awaits] at mem
        exact .inl mem
  | send text now wall live =>
      rcases send_cases h with ⟨-, rfl, -⟩ | ⟨room, ref, active, -, -, rfl, -⟩
      · exact .inl mem
      · rcases List.mem_append.1 mem with mem | mem
        · exact .inl mem
        · exact .inr (List.mem_singleton.1 mem ▸ .sent active)
  | posted q result =>
      obtain ⟨rfl, -⟩ := eq_of_ok h
      unfold posted at mem
      split at mem
      · exact .inl mem
      · next stale =>
        have current : c.isCurrent q.room q.stay = true := by simpa using stale
        cases result with
        | error failure => exact .inl (mem_retract mem)
        | ok m =>
            rcases mem_settle mem with mem | ⟨room, active, rfl⟩
            · exact .inl mem
            · obtain rfl := Option.some.inj (active.symm.trans (isCurrent_iff.1 current).1)
              exact .inr (.answered current m)
  | received m =>
      obtain ⟨rfl, -⟩ := eq_of_ok h
      unfold received at mem
      split at mem
      · exact .inl mem
      · next room active =>
        split at mem
        · rcases mem_settle mem with mem | ⟨room, active, rfl⟩
          · exact .inl mem
          · exact .inr (.received active m)
        · split at mem
          · exact .inl mem
          · rcases List.mem_append.1 mem with mem | mem
            · exact .inl mem
            · exact .inr (List.mem_singleton.1 mem ▸ .received active m)
  | enter room =>
      obtain ⟨rfl, -⟩ := eq_of_ok h
      cases mem
  | leave =>
      obtain ⟨rfl, -⟩ := eq_of_ok h
      unfold leave at mem
      split at mem
      · exact .inl mem
      · cases mem
  | _ =>
      obtain ⟨load, loading, typists, signal, rfl⟩ := perform_frame h rfl
      exact .inl mem

theorem perform_joins (h : c.perform op = .ok (c', effects)) {user : UserId} {typist : Typist}
    (found : c'.typists.table.find? user = some typist) :
    c.typists.table.find? user = some typist ∨
      user ≠ c.identity.user ∧ op = .otherTyping user typist.nickname typist.refreshedAt := by
  cases (perform_typistStep h).2 with
  | kept typists =>
      rw [typists] at found
      exact .inl found
  | cleared _ typists =>
      rw [typists] at found
      cases found
  | @joined other nickname now hother typists =>
      rw [typists] at found
      have hfound := (Table.find?_insert c.typists.table other user _).symm.trans found
      split at hfound
      · next heq =>
        subst heq
        cases hfound
        exact .inr ⟨hother, rfl⟩
      · exact .inl hfound
  | @left other typists =>
      rw [typists] at found
      have hfound := (Table.find?_erase c.typists.table other user).symm.trans found
      split at hfound
      · cases hfound
      · exact .inl hfound
  | expired typists =>
      rw [typists] at found
      have hfound := (Table.find?_filter _).symm.trans found
      exact .inl (Option.filter_eq_some_iff.1 hfound).1

end Conversation

end LiveChat
