import LiveChat.Proofs.Table
import LiveChat.Simulation.Server

/-!
# What a chat service stores

Whatever a service has been asked, the messages of a room are stored in the order of their numbers,
and every number is below the next one to be given. So no number is stored twice in a room, and the
count of a room's messages is a word.
-/

namespace LiveChat.Simulation.Server

/-- The states of the service of a user. -/
inductive Reachable (user : UserId) : Server → Prop
  | new : Reachable user (new user)
  | post {s s' : Server} {room : Room} {sender : UserId} {body : String} {ref : Option Ref}
      {m : Message} (reachable : Reachable user s)
      (stored : s.post room sender body ref = .ok (s', m)) : Reachable user s'
  | fails {s : Server} (failPosts failHistory : Bool) (reachable : Reachable user s) :
      Reachable user { s with failPosts, failHistory }
  | history {s : Server} (room : Room) (limit offset : Nat) (reachable : Reachable user s) :
      Reachable user (s.history room limit offset).1
  | markRead {s : Server} (room : Room) (reachable : Reachable user s) :
      Reachable user (s.markRead room)

/-- The messages are in the order of their numbers, all below the next one. -/
structure Ordered (log : List Message) (next : MessageId) : Prop where
  ascending : (log.map Message.id).Pairwise (· < ·)
  below : ∀ id ∈ log.map Message.id, id < next
  length : log.length < next.toNat

variable {log : List Message} {next : MessageId} {user : UserId} {s s' : Server} {m : Message}

theorem toNat_next (fits : next.toNat + 1 < UInt64.size) : (next + 1).toNat = next.toNat + 1 := by
  rw [UInt64.toNat_add]
  exact Nat.mod_eq_of_lt fits

theorem lt_next (fits : next.toNat + 1 < UInt64.size) : next < next + 1 := by
  rw [UInt64.lt_iff_toNat_lt, toNat_next fits]
  exact Nat.lt_succ_self _

theorem Ordered.later (h : Ordered log next) (fits : next.toNat + 1 < UInt64.size) :
    Ordered log (next + 1) where
  ascending := h.ascending
  below := fun id hid => UInt64.lt_trans (h.below id hid) (lt_next fits)
  length := by
    rw [toNat_next fits]
    exact Nat.lt_succ_of_lt h.length

theorem Ordered.snoc (h : Ordered log next) (fits : next.toNat + 1 < UInt64.size)
    (number : m.id = next) : Ordered (log ++ [m]) (next + 1) := by
  have hlater := h.later fits
  refine ⟨?_, ?_, ?_⟩
  · rw [List.map_append, List.pairwise_append]
    refine ⟨h.ascending, List.pairwise_singleton _ _, fun id hid id' hid' => ?_⟩
    obtain rfl : id' = next := (List.mem_singleton.1 hid').trans number
    exact h.below id hid
  · rw [List.map_append]
    intro id hid
    rcases List.mem_append.1 hid with hid | hid
    · exact hlater.below id hid
    · obtain rfl : id = next := (List.mem_singleton.1 hid).trans number
      exact lt_next fits
  · rw [List.length_append, List.length_singleton, toNat_next fits]
    exact Nat.succ_lt_succ h.length

theorem post_stores {room : Room} {sender : UserId} {body : String} {ref : Option Ref}
    (h : s.post room sender body ref = .ok (s', m)) :
    s.nextId.toNat + 1 < UInt64.size ∧ m.id = s.nextId ∧ s'.nextId = s.nextId + 1 ∧
      ∀ r, s'.log r = if r = room then s.log room ++ [m] else s.log r := by
  unfold post at h
  split at h
  · next fits =>
    cases h
    refine ⟨fits, rfl, rfl, fun r => ?_⟩
    simp only [Server.log, Table.find?_insert]
    split <;> rfl
  · cases h

theorem Reachable.ordered (h : Reachable user s) (room : Room) :
    Ordered (s.log room) s.nextId := by
  induction h with
  | new => exact ⟨.nil, nofun, Nat.one_pos⟩
  | @post s s' target sender body ref m reachable stored ih =>
      obtain ⟨fits, number, hnext, hlog⟩ := post_stores stored
      rw [hnext, hlog]
      split
      · next hroom => exact hroom ▸ ih.snoc fits number
      · exact ih.later fits
  | fails _ _ _ ih => exact ih
  | history _ _ _ _ ih => exact ih
  | markRead _ _ ih => exact ih

theorem page_sublist (s : Server) (room : Room) (limit offset : Nat) :
    (s.page room limit offset).messages.Sublist (s.log room) :=
  (List.drop_sublist _ _).trans (List.take_sublist _ _)

theorem length_page (s : Server) (room : Room) (limit offset : Nat) :
    (s.page room limit offset).messages.length = min limit ((s.log room).length - offset) := by
  unfold page
  dsimp only
  rw [List.length_drop, List.length_take]
  omega

/-- What every step keeps that succeeds, a run keeps that succeeds. -/
theorem kept_of_foldlM {f : β → α → Except Fault β} {p : β → Prop}
    (step : ∀ b a b', p b → f b a = .ok b' → p b') {l : List α} {b b' : β} (start : p b)
    (ok : l.foldlM f b = .ok b') : p b' := by
  induction l generalizing b with
  | nil =>
      cases ok
      exact start
  | cons a l ih =>
      rw [List.foldlM_cons] at ok
      cases hstep : f b a with
      | error fault =>
          rw [hstep] at ok
          cases ok
      | ok next =>
          rw [hstep] at ok
          exact ih (step b a next start hstep) ok

/-- Seeding a room posts its messages one after another. -/
theorem Reachable.seed (h : Reachable user s) {room : Room} {sender : UserId} {count : Nat}
    {ids : List MessageId} (ok : s.seed room sender count = .ok (s', ids)) :
    Reachable user s' := by
  refine kept_of_foldlM (p := fun stored => Reachable user stored.1) ?_ h ok
  rintro ⟨s, ids⟩ n ⟨s', ids'⟩ reachable hstep
  cases hpost : s.post room sender ("message " ++ toString n) none with
  | error f =>
      simp only [hpost, bind, Except.bind] at hstep
      cases hstep
  | ok stored =>
      simp only [hpost, bind, Except.bind] at hstep
      cases hstep
      exact .post reachable hpost

theorem Ordered.nodup (h : Ordered log next) : (log.map Message.id).Nodup :=
  h.ascending.imp UInt64.ne_of_lt

theorem Ordered.total (h : Ordered log next) : (UInt64.ofNat log.length).toNat = log.length :=
  UInt64.toNat_ofNat_of_lt' (Nat.lt_trans h.length next.toNat_lt_size)

end LiveChat.Simulation.Server
