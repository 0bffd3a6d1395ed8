import LiveChat.Chat.Typists
import LiveChat.Proofs.History
import LiveChat.Proofs.Table

/-!
# Who is seen typing

A user is seen typing who was told of, and neither stopped nor went without being told of again for
too long since. The name that is seen is the one told last. Each operation answers truly whether
what is seen has changed.
-/

namespace LiveChat.Typists

variable {t : Typists} {user other : UserId} {nickname : String} {now since : Instant}
  {ttl : Duration}

/-! ## Membership -/

theorem contains_insert (nickname : String) (now : Instant) :
    (t.insert other nickname now).1.contains user = (decide (user = other) || t.contains user) := by
  simp only [contains, insert, Table.contains, Table.find?_insert]
  by_cases h : user = other <;> simp [h]

theorem contains_remove :
    (t.remove other).1.contains user = (!decide (user = other) && t.contains user) := by
  simp only [contains, remove, Table.contains, Table.find?_erase]
  by_cases h : user = other <;> simp [h]

theorem contains_of_expire (h : (t.expire now ttl).1.contains user = true) :
    t.contains user = true := by
  simp only [contains, expire, Table.contains, Table.find?_filter] at h ⊢
  exact Option.isSome_of_isSome_filter _ _ h

theorem mem_visible : (user, nickname) ∈ t.visible ↔
    ∃ since, t.table.find? user = some ⟨nickname, since⟩ := by
  unfold visible
  rw [List.mem_map]
  constructor
  · rintro ⟨⟨_, _, since⟩, hmem, heq⟩
    cases heq
    exact ⟨since, Table.find?_eq_some_iff.2 hmem⟩
  · rintro ⟨since, hfind⟩
    exact ⟨(user, ⟨nickname, since⟩), Table.find?_eq_some_iff.1 hfind, rfl⟩

theorem contains_iff : t.contains user = true ↔ ∃ nickname, (user, nickname) ∈ t.visible := by
  simp only [mem_visible, contains, Table.contains, Option.isSome_iff_exists]
  exact ⟨fun ⟨⟨nickname, since⟩, h⟩ => ⟨nickname, since, h⟩, fun ⟨nickname, since, h⟩ => ⟨_, h⟩⟩

theorem map_fst_visible (t : Typists) : t.visible.map Prod.fst = t.users := by
  simp [visible, users, Table.keys]

theorem users_ascending (t : Typists) : t.users.Pairwise (· < ·) :=
  t.table.keys_ascending.imp Std.compare_eq_lt.1

/-! ## What an operation answers -/

theorem visible_eq (t : Typists) :
    t.visible = (t.table.map fun _ typist => typist.nickname).entries := rfl

theorem insert_visible (unchanged : (t.insert user nickname now).2 = false) :
    (t.insert user nickname now).1.visible = t.visible := by
  have hname : (t.table.find? user).map Typist.nickname = some nickname := by
    simpa [insert] using unchanged
  rw [visible_eq, visible_eq]
  refine congrArg Table.entries (Table.ext_find? fun other => ?_)
  rw [Table.find?_map, Table.find?_map]
  show ((t.table.insert user ⟨nickname, now⟩).find? other).map Typist.nickname = _
  rw [Table.find?_insert]
  by_cases heq : other = user
  · rw [if_pos heq, heq]
    exact hname.symm
  · rw [if_neg heq]

theorem remove_visible (unchanged : (t.remove user).2 = false) :
    (t.remove user).1.visible = t.visible := by
  have habsent : t.table.find? user = none := by
    simpa [remove, contains, Table.contains] using unchanged
  refine congrArg visible (congrArg Typists.mk (Table.ext_find? fun other => ?_))
  rw [Table.find?_erase]
  by_cases heq : other = user
  · rw [if_pos heq, heq, habsent]
  · rw [if_neg heq]

theorem expire_visible (unchanged : (t.expire now ttl).2 = false) :
    (t.expire now ttl).1.visible = t.visible := by
  have hsize : (t.expire now ttl).1.table.size = t.table.size := by
    simpa [expire] using unchanged
  have hentries : (t.expire now ttl).1.table.entries = t.table.entries :=
    List.filter_sublist.eq_of_length hsize
  exact congrArg (List.map _) hentries

theorem insert_visible_ne (changed : (t.insert user nickname now).2 = true) :
    (t.insert user nickname now).1.visible ≠ t.visible := by
  intro same
  have hseen : (user, nickname) ∈ (t.insert user nickname now).1.visible :=
    mem_visible.2 ⟨now, (Table.find?_insert _ _ _ _).trans (if_pos rfl)⟩
  obtain ⟨since, hfind⟩ := mem_visible.1 (same ▸ hseen)
  simp [insert, hfind] at changed

theorem remove_visible_ne (changed : (t.remove user).2 = true) :
    (t.remove user).1.visible ≠ t.visible := by
  intro same
  have hremoved : (t.remove user).1.contains user = false := by simp [contains_remove]
  obtain ⟨nickname, hseen⟩ := contains_iff.1 changed
  rw [contains_iff.2 ⟨nickname, same ▸ hseen⟩] at hremoved
  cases hremoved

theorem expire_visible_ne (changed : (t.expire now ttl).2 = true) :
    (t.expire now ttl).1.visible ≠ t.visible := by
  intro same
  have hlength : ∀ t : Typists, t.visible.length = t.table.size := fun _ => List.length_map _
  have hsize : (t.expire now ttl).1.table.size ≠ t.table.size := by
    simpa [expire] using changed
  rw [← hlength, ← hlength, same] at hsize
  exact hsize rfl

/-! ## Runs -/

inductive Operation where
  | insert (user : UserId) (nickname : String) (now : Instant)
  | remove (user : UserId)
  | expire (now : Instant) (ttl : Duration)
  | clear
  deriving DecidableEq, Repr

/-- What an operation makes of the typists, and its answer; clearing them has none. -/
def perform (t : Typists) : Operation → Typists × Option Bool
  | .insert user nickname now => (t.insert user nickname now).map id some
  | .remove user => (t.remove user).map id some
  | .expire now ttl => (t.expire now ttl).map id some
  | .clear => (.empty, none)

/-- The typists after operations, none being seen before them. -/
def after (ops : List Operation) : Typists := ops.foldl (fun t op => (t.perform op).1) .empty

/-- Whether an operation leaves an entry of a user in the set that was last told of at a time. -/
def Operation.Spares (user : UserId) (since : Instant) : Operation → Prop
  | .insert other _ _ => other ≠ user
  | .remove other => other ≠ user
  | .expire now ttl => now - since < ttl
  | .clear => False

variable {ops : List Operation} {op : Operation}

theorem after_snoc (ops : List Operation) (op : Operation) :
    after (ops ++ [op]) = ((after ops).perform op).1 := by
  simp [after]

/-- An entry that an operation leaves behind is made by it, or was there and is spared. -/
theorem find?_perform : (t.perform op).1.table.find? user = some ⟨nickname, since⟩ ↔
    op = .insert user nickname since ∨
      t.table.find? user = some ⟨nickname, since⟩ ∧ op.Spares user since := by
  cases op with
  | insert other name now =>
      show (t.table.insert other ⟨name, now⟩).find? user = _ ↔ _
      rw [Table.find?_insert]
      by_cases heq : user = other
      · simp [Operation.Spares, heq]
      · simp [Operation.Spares, heq, Ne.symm heq]
  | remove other =>
      show (t.table.erase other).find? user = _ ↔ _
      rw [Table.find?_erase]
      by_cases heq : user = other
      · simp [Operation.Spares, heq]
      · simp [Operation.Spares, heq, Ne.symm heq]
  | expire now ttl =>
      show (t.table.filter _).find? user = _ ↔ _
      rw [Table.find?_filter, Option.filter_eq_some_iff]
      simp [Operation.Spares]
  | clear => simp [perform, empty, Operation.Spares]

/-- The entries of the set are told by its history. -/
theorem find?_after : (after ops).table.find? user = some ⟨nickname, since⟩ ↔
    History.Stands (· = .insert user nickname since) (·.Spares user since) ops := by
  refine History.iff_stands
    (fun ops => (after ops).table.find? user = some ⟨nickname, since⟩) ?_ fun ops op => ?_
  · simp [after, empty]
  · rw [after_snoc, find?_perform]

theorem perform_told (answers : op ≠ .clear) :
    (t.perform op).2 = some (decide ((t.perform op).1.visible ≠ t.visible)) := by
  have decided : ∀ {changed : Bool} {p : Prop} [Decidable p], (changed = false → ¬ p) →
      (changed = true → p) → some changed = some (decide p) := by
    intro changed p _ unchanged changes
    cases changed with
    | false => rw [decide_eq_false (unchanged rfl)]
    | true => rw [decide_eq_true (changes rfl)]
  cases op with
  | insert user nickname now => exact decided (not_not_intro ∘ insert_visible) insert_visible_ne
  | remove user => exact decided (not_not_intro ∘ remove_visible) remove_visible_ne
  | expire now ttl => exact decided (not_not_intro ∘ expire_visible) expire_visible_ne
  | clear => exact absurd rfl answers

/-- A user is seen with a name if and only if the last time that the user was told of it was with
that name, and since then the set was not cleared, the user did not stop, and each time that the set
was looked through the user had been told of less than the given while ago. Those who are seen come
in ascending order, each once, and an operation answers whether what is seen has changed. -/
theorem seen_while_refreshed :
    (∀ ops user nickname, (user, nickname) ∈ (after ops).visible ↔
      ∃ past since future, ops = past ++ .insert user nickname since :: future ∧
        ∀ op ∈ future, op.Spares user since) ∧
    (∀ ops user, (after ops).contains user = true ↔
      ∃ nickname, (user, nickname) ∈ (after ops).visible) ∧
    (∀ ops, (after ops).visible.map Prod.fst = (after ops).users ∧
      (after ops).users.Pairwise (· < ·)) ∧
    ∀ ops op, op ≠ .clear → ((after ops).perform op).2 =
      some (decide ((after (ops ++ [op])).visible ≠ (after ops).visible)) := by
  refine ⟨fun ops user nickname => ?_, fun _ _ => contains_iff,
    fun ops => ⟨map_fst_visible _, users_ascending _⟩, fun ops op answers => ?_⟩
  · rw [mem_visible]
    constructor
    · rintro ⟨since, hfind⟩
      obtain ⟨past, op, future, hsplit, rfl, spared⟩ := find?_after.1 hfind
      exact ⟨past, since, future, hsplit, spared⟩
    · rintro ⟨past, since, future, hsplit, spared⟩
      exact ⟨since, find?_after.2 ⟨past, _, future, hsplit, rfl, spared⟩⟩
  · rw [after_snoc]
    exact perform_told answers

/-- Of two users that were told of at once, the one that was told of again is still seen when the
other has gone. -/
theorem refreshed_typist_outlasts_other :
    let ops : List Operation :=
      [.insert 2 "bo" .zero, .insert 3 "cy" .zero, .insert 3 "cy" (.ofSeconds 30)]
    let look : Operation := .expire (.ofSeconds 60) (.ofSeconds 60)
    look ≠ .clear ∧ (after ops).visible = [(2, "bo"), (3, "cy")] ∧
      ((after ops).perform look).2 = some true ∧ (3, "cy") ∈ (after (ops ++ [look])).visible ∧
      (after (ops ++ [look])).contains 2 = false := by
  intro ops look
  obtain ⟨seen, held, -, answers⟩ := seen_while_refreshed
  have hgone : (after (ops ++ [look])).visible ≠ (after ops).visible := by decide
  refine ⟨by decide, by decide, ?_, ?_, Bool.eq_false_iff.2 fun hheld => ?_⟩
  · rw [answers ops look (by decide), decide_eq_true hgone]
  · refine (seen _ 3 "cy").2 ⟨ops.take 2, .ofSeconds 30, [look], rfl, ?_⟩
    exact List.forall_mem_singleton.2 (by decide : Duration.ofSeconds 60 - _ < _)
  · obtain ⟨nickname, hseen⟩ := (held _ 2).1 hheld
    have hvisible : (after (ops ++ [look])).visible = [(3, "cy")] := by decide
    rw [hvisible] at hseen
    simp at hseen

end LiveChat.Typists
