import LiveChat.Proofs.History
import LiveChat.Proofs.Presence.Roster

/-!
# What is known of users

The roster hears of users one at a time and in batches, and the local user's own note changes at
once. Of each user it knows what was written last, under the number of that user. Users that it
knows of or watches are never forgotten.
-/

namespace LiveChat.Roster

variable {r : Roster} {self user : UserId} {threshold : Duration} {start : Instant}
  {p q : Presence} {batch : List (UserId × Presence)}

/-! ## What an operation writes -/

inductive Operation where
  | update (p : Presence)
  | merge (batch : List (UserId × Presence))
  | setNote (note emoji : Option String) (wall : Int64)
  | watch (users : List UserId)
  | activity (now : Instant)
  | tick (now : Instant)
  deriving DecidableEq, Repr

def perform (r : Roster) : Operation → Roster
  | .update p => r.update p
  | .merge batch => (r.merge batch).1
  | .setNote note emoji wall => (r.setNote note emoji wall).1
  | .watch users => (r.watch users).1
  | .activity now => (r.activity now).1
  | .tick now => (r.tick now).1

def after (r : Roster) (ops : List Operation) : Roster := ops.foldl perform r

namespace Operation

/-- The users of whom something is written. -/
def users (self : UserId) : Operation → List UserId
  | update p => [p.user]
  | merge batch => batch.map Prod.fst
  | setNote _ _ _ => [self]
  | watch _ | activity _ | tick _ => []

/-- What is written of a user: the record that came, the last one of a batch that came for the user,
or the note of the local user, who is then as available as before. -/
def Writes (r : Roster) (user : UserId) (p : Presence) : Operation → Prop
  | update q => q.user = user ∧ p = q
  | merge batch => ∃ earlier e later, batch = earlier ++ e :: later ∧
      (e.1 = user ∧ p = { e.2 with user }) ∧ ∀ next ∈ later, next.1 ≠ user
  | setNote note emoji wall => r.self = user ∧
      p = ⟨user, ((r.record? user).map Presence.availability).getD .online, wall, note, emoji⟩
  | watch _ | activity _ | tick _ => False

theorem Writes.user_eq {op : Operation} (writes : op.Writes r user p) : p.user = user := by
  cases op with
  | update q =>
      obtain ⟨hq, rfl⟩ := writes
      exact hq
  | merge batch =>
      obtain ⟨-, e, -, -, ⟨-, rfl⟩, -⟩ := writes
      rfl
  | setNote note emoji wall =>
      obtain ⟨-, rfl⟩ := writes
      rfl
  | watch | activity | tick => cases writes

end Operation

variable {ops : List Operation} {op : Operation}

theorem after_snoc (r : Roster) (ops : List Operation) (op : Operation) :
    r.after (ops ++ [op]) = (r.after ops).perform op := by
  simp [after]

theorem watch_records (r : Roster) (users : List UserId) :
    (r.watch users).1.records = r.records := by
  unfold watch
  split <;> rfl

theorem perform_self (r : Roster) (op : Operation) : (r.perform op).self = r.self := by
  cases op with
  | merge batch =>
      show (r.merge batch).1.self = r.self
      rw [merge_eq]
  | watch users =>
      show (r.watch users).1.self = r.self
      unfold watch
      split <;> rfl
  | update | setNote | activity | tick => rfl

theorem after_self (r : Roster) (ops : List Operation) : (r.after ops).self = r.self := by
  induction ops using List.reverseRecOn with
  | nil => rfl
  | append_singleton ops op ih => rw [after_snoc, perform_self, ih]

/-! ## The last write -/

theorem record?_update : (r.update q).record? user = some p ↔
    (q.user = user ∧ p = q) ∨ r.record? user = some p ∧ q.user ≠ user := by
  show (r.records.insert q.user q).find? user = some p ↔ _
  rw [Table.find?_insert]
  by_cases own : user = q.user
  · simp [own, eq_comm]
  · simp [own, Ne.symm own, record?]

/-- A record that is known after a batch is the last of the batch for its user, or was known and
none in the batch is for the user. -/
theorem record?_merge : (r.merge batch).1.record? user = some p ↔
    (Operation.merge batch).Writes r user p ∨
      r.record? user = some p ∧ user ∉ batch.map Prod.fst := by
  have spared : user ∉ batch.map Prod.fst ↔ ∀ e ∈ batch, e.1 ≠ user := by
    simp only [List.mem_map, not_exists, not_and, ne_eq]
  rw [spared]
  show _ ↔ History.StandsFrom
    (fun _ (e : UserId × Presence) => e.1 = user ∧ p = { e.2 with user }) (·.1 ≠ user) batch ∨ _
  refine History.iff_standsFrom_or
    (fun batch : List (UserId × Presence) =>
      (batch.foldl (fun r e => r.store e.1 e.2) r).record? user = some p)
    fun batch e => ?_
  rw [List.foldl_append, List.foldl_cons, List.foldl_nil, store, record?_update]
  grind

/-- A record that is known after an operation is written by it, or was known and nothing is written
of its user. -/
theorem record?_perform : (r.perform op).record? user = some p ↔
    op.Writes r user p ∨ r.record? user = some p ∧ user ∉ op.users r.self := by
  cases op with
  | update q =>
      refine record?_update.trans ?_
      simp [Operation.Writes, Operation.users, eq_comm]
  | merge batch => exact record?_merge
  | setNote note emoji wall =>
      refine record?_update.trans ?_
      dsimp only [Operation.Writes, Operation.users]
      grind
  | watch users =>
      show (r.watch users).1.records.find? user = _ ↔ _
      simp [watch_records, Operation.Writes, Operation.users, record?]
  | activity now | tick now =>
      show r.record? user = _ ↔ _
      simp [Operation.Writes, Operation.users]

/-- The record of a user is what was written last. -/
theorem record?_after : ((new self threshold start).after ops).record? user = some p ↔
    ∃ past op future, ops = past ++ op :: future ∧
      op.Writes ((new self threshold start).after past) user p ∧
        ∀ later ∈ future, user ∉ later.users self := by
  show _ ↔ History.StandsFrom
    (fun past op => op.Writes ((new self threshold start).after past) user p)
    (user ∉ ·.users self) ops
  refine History.iff_standsFrom
    (fun ops => ((new self threshold start).after ops).record? user = some p) nofun fun ops op => ?_
  rw [after_snoc, record?_perform, after_self]
  rfl

/-! ## Users that are known and users that are watched -/

theorem mem_keys_update :
    user ∈ (r.update p).records.keys ↔ user = p.user ∨ user ∈ r.records.keys :=
  Table.mem_keys_insert

theorem mem_keys_merge : user ∈ (r.merge batch).1.records.keys ↔
    user ∈ batch.map Prod.fst ∨ user ∈ r.records.keys := by
  show user ∈ (batch.foldl (fun r e => r.store e.1 e.2) r).records.keys ↔ _
  induction batch generalizing r with
  | nil => simp
  | cons e batch ih =>
      rw [List.foldl_cons, ih, store, mem_keys_update, List.map_cons, List.mem_cons]
      tauto

theorem mem_keys_perform :
    user ∈ (r.perform op).records.keys ↔ user ∈ op.users r.self ∨ user ∈ r.records.keys := by
  cases op with
  | update q =>
      refine mem_keys_update.trans ?_
      simp [Operation.users]
  | merge batch => exact mem_keys_merge
  | setNote note emoji wall =>
      refine mem_keys_update.trans ?_
      simp [Operation.users]
  | watch users =>
      show user ∈ (r.watch users).1.records.keys ↔ _
      simp [watch_records, Operation.users]
  | activity now | tick now =>
      show user ∈ r.records.keys ↔ _
      simp [Operation.users]

theorem mem_watched_watch {users : List UserId} : user ∈ (r.watch users).1.watched.keys ↔
    user ∈ users ∨ user ∈ r.watched.keys := by
  rcases r.watch_cases users with ⟨hsame, hknown⟩ | ⟨r', added, hwatch, hperm, hadded⟩
  · rw [hsame]
    exact ⟨.inr, fun h => h.elim (hknown user) id⟩
  · rw [hwatch, hperm.mem_iff, List.mem_append, hadded]
    tauto

theorem mem_watched_perform : user ∈ (r.perform op).watched.keys ↔
    (∃ users, op = .watch users ∧ user ∈ users) ∨ user ∈ r.watched.keys := by
  cases op with
  | merge batch =>
      show user ∈ (r.merge batch).1.watched.keys ↔ _
      rw [merge_eq]
      simp
  | watch users =>
      refine mem_watched_watch.trans ?_
      simp
  | update q | setNote note emoji wall | activity now | tick now =>
      show user ∈ r.watched.keys ↔ _
      simp

theorem mem_keys_after : user ∈ ((new self threshold start).after ops).records.keys ↔
    ∃ op ∈ ops, user ∈ op.users self := by
  induction ops using List.reverseRecOn with
  | nil => exact iff_of_false nofun nofun
  | append_singleton ops op ih =>
      rw [after_snoc, mem_keys_perform, ih, after_self]
      show user ∈ op.users self ∨ _ ↔ _
      simp [or_and_right, exists_or, or_comm]

theorem mem_watched_after : user ∈ ((new self threshold start).after ops).watched.keys ↔
    ∃ users, Operation.watch users ∈ ops ∧ user ∈ users := by
  induction ops using List.reverseRecOn with
  | nil => exact iff_of_false nofun nofun
  | append_singleton ops op ih =>
      rw [after_snoc, mem_watched_perform, ih]
      simp [or_and_right, exists_or, or_comm, eq_comm]

theorem record?_eq_none (unwritten : ∀ op ∈ ops, user ∉ op.users self) :
    ((new self threshold start).after ops).record? user = none := by
  refine Option.not_isSome_iff_eq_none.1 fun hsome => ?_
  obtain ⟨op, hop, huser⟩ := mem_keys_after.1 (Table.mem_keys_iff.2 hsome)
  exact unwritten op hop huser

/-- The users that a batch came for, in ascending order. -/
theorem merge_answer (r : Roster) (batch : List (UserId × Presence)) :
    (r.merge batch).2.Perm (batch.map Prod.fst) ∧ (r.merge batch).2.Pairwise (· ≤ ·) := by
  refine ⟨List.mergeSort_perm _ _, ?_⟩
  refine (List.pairwise_mergeSort (fun a b c => ?_) (fun a b => ?_) _).imp of_decide_eq_true
  · simpa using UInt64.le_trans
  · simpa using UInt64.le_total a b

/-- What is known of a user is what was written last of the user, with the user's own number, and a
user of whom nothing was written counts as offline. Nobody is forgotten: those are known of whom
something was written, and those are watched whom a watch named. A batch is answered by the users it
came for, in ascending order, each as often as in the batch. -/
theorem last_write_known (self : UserId) (threshold : Duration) (start : Instant) :
    let known := (new self threshold start).after
    (∀ ops user p, (known ops).record? user = some p ↔
      ∃ past op future, ops = past ++ op :: future ∧ op.Writes (known past) user p ∧
        ∀ later ∈ future, user ∉ later.users self) ∧
    (∀ ops user p, (known ops).record? user = some p → p.user = user) ∧
    (∀ ops user, (∀ op ∈ ops, user ∉ op.users self) →
      (known ops).availabilityOf user = .offline) ∧
    (∀ ops more, (known ops).records.keys ⊆ (known (ops ++ more)).records.keys ∧
      (known ops).watched.keys ⊆ (known (ops ++ more)).watched.keys) ∧
    (∀ ops user, (user ∈ (known ops).records.keys ↔ ∃ op ∈ ops, user ∈ op.users self) ∧
      (user ∈ (known ops).watched.keys ↔ ∃ users, .watch users ∈ ops ∧ user ∈ users)) ∧
    ∀ ops batch, ((known ops).merge batch).2.Perm (batch.map Prod.fst) ∧
      ((known ops).merge batch).2.Pairwise (· ≤ ·) := by
  intro known
  refine ⟨fun ops user p => record?_after, fun ops user p hrecord => ?_,
    fun ops user unwritten => ?_, fun ops more => ⟨fun user hknown => ?_, fun user hwatched => ?_⟩,
    fun ops user => ⟨mem_keys_after, mem_watched_after⟩, fun ops => (known ops).merge_answer⟩
  · obtain ⟨past, op, future, -, writes, -⟩ := record?_after.1 hrecord
    exact writes.user_eq
  · rw [availabilityOf, record?_eq_none unwritten]
    rfl
  · obtain ⟨op, hop, huser⟩ := mem_keys_after.1 hknown
    exact mem_keys_after.2 ⟨op, List.mem_append_left more hop, huser⟩
  · obtain ⟨users, hop, huser⟩ := mem_watched_after.1 hwatched
    exact mem_watched_after.2 ⟨users, List.mem_append_left more hop, huser⟩

/-- The local user is told to be idle and then leaves a note, in a batch one user comes twice, once
with the number of another one, and a third user is watched only. -/
theorem note_and_batch_known :
    let known := (new 1 .zero .zero).after
    let told (user : UserId) (availability : Availability) : Presence :=
      ⟨user, availability, 0, none, none⟩
    let past : List Operation := [.update (told 1 .online),
      .merge [(2, told 2 .online), (1, told 1 .idle), (2, told 9 .doNotDisturb)]]
    let future : List Operation := [.watch [3, 2]]
    let ops := past ++ .setNote (some "lunch") none 42 :: future
    let own : Presence := ⟨1, .idle, 42, some "lunch", none⟩
    (known ops).record? 1 = some own ∧ own.user = 1 ∧
      (known ops).record? 2 = some (told 2 .doNotDisturb) ∧
      (∀ op ∈ ops, 3 ∉ op.users 1) ∧ (known ops).availabilityOf 3 = .offline ∧
      3 ∈ (known ops).watched.keys := by
  intro known told past future ops own
  obtain ⟨written, owned, offline, -, kept, -⟩ := last_write_known 1 .zero .zero
  have hown : (known ops).record? 1 = some own :=
    (written ops 1 own).2 ⟨past, _, future, rfl, ⟨rfl, by decide⟩, by decide⟩
  have unwritten : ∀ op ∈ ops, 3 ∉ op.users 1 := by decide
  exact ⟨hown, owned ops 1 own hown, by decide, unwritten, offline ops 3 unwritten,
    (kept ops 3).2.2 ⟨[3, 2], by decide, by decide⟩⟩

end LiveChat.Roster
