import LiveChat.Presence.Roster
import LiveChat.Proofs.Table

/-!
# The users that are watched, and the records of users

Watching more users asks for those that are new and for no other, each once, and from then on they
are watched like the rest. Records that come in replace those of the users they are for, and leave
all else as it is.
-/

namespace LiveChat.Roster

variable {r r' : Roster} {known : Table UserId Unit} {users added : List UserId}

theorem mem_newcomers {u : UserId} :
    u ∈ newcomers known users ↔ u ∈ users ∧ u ∉ known.keys := by
  induction users generalizing known with
  | nil => simp [newcomers]
  | cons v users ih =>
      unfold newcomers
      by_cases hv : known.contains v = true
      · have hkeys := Table.contains_iff.1 hv
        rw [if_pos hv, ih]
        grind
      · rw [if_neg hv, List.mem_cons, ih, Table.mem_keys_insert]
        rw [Table.contains_iff] at hv
        grind

theorem nodup_newcomers (known : Table UserId Unit) (users : List UserId) :
    (newcomers known users).Nodup := by
  induction users generalizing known with
  | nil => exact .nil
  | cons v users ih =>
      unfold newcomers
      split
      · exact ih known
      · refine List.nodup_cons.2 ⟨fun hv => ?_, ih _⟩
        exact (mem_newcomers.1 hv).2 (Table.mem_keys_insert.2 (.inl rfl))

theorem mem_keys_foldl_insert {u : UserId} :
    u ∈ (added.foldl (fun t u => t.insert u ()) known).keys ↔ u ∈ known.keys ∨ u ∈ added := by
  induction added generalizing known with
  | nil => simp
  | cons v added ih =>
      rw [List.foldl_cons, ih, Table.mem_keys_insert, List.mem_cons]
      grind

/-- All users that were asked for are watched already, or the new ones are asked for and join those
that are watched. -/
theorem watch_cases (r : Roster) (users : List UserId) :
    (r.watch users = (r, none) ∧ ∀ u ∈ users, u ∈ r.watched.keys) ∨
      ∃ r' added, r.watch users = (r', some (.watch added)) ∧
        r'.watched.keys.Perm (r.watched.keys ++ added) ∧
        ∀ u, u ∈ added ↔ u ∈ users ∧ u ∉ r.watched.keys := by
  unfold watch
  cases hadded : newcomers r.watched users with
  | nil =>
      refine .inl ⟨rfl, fun u hu => Classical.byContradiction fun hnew => ?_⟩
      have hmem := mem_newcomers.2 ⟨hu, hnew⟩
      rw [hadded] at hmem
      cases hmem
  | cons first rest =>
      have hmem : ∀ u, u ∈ first :: rest ↔ u ∈ users ∧ u ∉ r.watched.keys := fun u => by
        rw [← hadded]
        exact mem_newcomers
      have hnodup : (r.watched.keys ++ first :: rest).Nodup := by
        refine List.nodup_append.2 ⟨r.watched.keys_nodup, ?_, fun u hu v hv heq => ?_⟩
        · rw [← hadded]
          exact nodup_newcomers _ _
        · exact ((hmem v).1 hv).2 (heq ▸ hu)
      refine .inr ⟨_, _, rfl, ?_, hmem⟩
      refine (List.perm_ext_iff_of_nodup (Table.keys_nodup _) hnodup).2 fun u => ?_
      rw [mem_keys_foldl_insert, List.mem_append]

/-! ## Records that come in -/

/-- A batch of records concerns the records alone. -/
theorem merge_eq (r : Roster) (batch : List (UserId × Presence)) :
    (r.merge batch).1 = { r with records := (r.merge batch).1.records } := by
  show batch.foldl (fun r e => r.store e.1 e.2) r =
    { r with records := (batch.foldl (fun r e => r.store e.1 e.2) r).records }
  induction batch generalizing r with
  | nil => rfl
  | cons e batch ih => exact ih (r.store e.1 e.2)

theorem update_record?_of_ne {p : Presence} {user : UserId} (other : user ≠ p.user) :
    (r.update p).record? user = r.record? user :=
  (Table.find?_insert _ _ _ _).trans (if_neg other)

theorem merge_record?_of_notMem {user : UserId} {batch : List (UserId × Presence)}
    (absent : user ∉ (r.merge batch).2) : (r.merge batch).1.record? user = r.record? user := by
  rw [merge, List.mem_mergeSort] at absent
  show (batch.foldl (fun r e => r.store e.1 e.2) r).record? user = r.record? user
  induction batch generalizing r with
  | nil => rfl
  | cons e batch ih =>
      obtain ⟨other, absent⟩ := not_or.1 (fun h => absent (List.mem_cons.2 h))
      exact (ih absent).trans (update_record?_of_ne other)

end LiveChat.Roster
