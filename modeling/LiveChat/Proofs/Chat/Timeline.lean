import LiveChat.Chat.Timeline

/-!
# Edits of a timeline

What an operation can do to a timeline is one of a few edits, each made under a guard. All of them
keep the numbers of the confirmed entries distinct and lose no confirmed entry, and none adds a
pending one. Reloading the newest page is not an edit: it puts the page in the place of the
confirmed entries.
-/

namespace LiveChat.Timeline

/-- The numbers that the pending entries were sent with. -/
def refs (t : Timeline) : List Ref := t.filterMap Entry.ref?

/-- The numbers of the confirmed entries. -/
def confirmedIds (t : Timeline) : List MessageId := t.confirmed.ids

/-! ## Parts of a timeline -/

@[simp] theorem ids_append (s t : Timeline) : ids (s ++ t) = s.ids ++ t.ids := List.map_append

@[simp] theorem ids_cons (e : Entry) (t : Timeline) : ids (e :: t) = e.id :: t.ids := rfl

@[simp] theorem ids_nil : ids [] = [] := rfl

@[simp] theorem pending_nil : pending [] = [] := rfl

@[simp] theorem pending_append (s t : Timeline) : pending (s ++ t) = s.pending ++ t.pending :=
  List.filter_append ..

@[simp] theorem refs_nil : refs [] = [] := rfl

@[simp] theorem refs_append (s t : Timeline) : refs (s ++ t) = s.refs ++ t.refs :=
  List.filterMap_append

theorem refs_cons (e : Entry) (t : Timeline) : refs (e :: t) = e.ref?.toList ++ t.refs := by
  unfold refs
  cases h : e.ref? <;> simp [h]

@[simp] theorem confirmedIds_nil : confirmedIds [] = [] := rfl

@[simp] theorem confirmedIds_append (s t : Timeline) :
    confirmedIds (s ++ t) = s.confirmedIds ++ t.confirmedIds := by
  simp [confirmedIds, confirmed]

theorem confirmedIds_cons (e : Entry) (t : Timeline) :
    confirmedIds (e :: t) = if e.isPending then t.confirmedIds else e.id :: t.confirmedIds := by
  unfold confirmedIds confirmed
  cases h : e.isPending <;> simp [h]

@[simp] theorem confirmedIds_ofMessage_cons (room : UInt64) (m : Message) (t : Timeline) :
    confirmedIds (Entry.ofMessage room m :: t) = m.id :: t.confirmedIds := confirmedIds_cons ..

theorem pending_cons (e : Entry) (t : Timeline) :
    pending (e :: t) = if e.isPending then e :: t.pending else t.pending := List.filter_cons

@[simp] theorem pending_ofMessage_cons (room : UInt64) (m : Message) (t : Timeline) :
    pending (Entry.ofMessage room m :: t) = t.pending := pending_cons ..

theorem isPending_iff (e : Entry) : e.isPending = true ↔ ∃ ref, e.ref? = some ref :=
  Option.isSome_iff_exists

theorem ref?_of_not_pending {e : Entry} (h : e.isPending = false) : e.ref? = none :=
  Option.isNone_iff_eq_none.1 (by simpa [Entry.isPending] using h)

theorem refs_eq_nil_iff (t : Timeline) : t.refs = [] ↔ t.pending = [] := by
  simp [refs, pending, Entry.isPending]

@[simp] theorem confirmedIds_pending (t : Timeline) : confirmedIds t.pending = [] := by
  simp [confirmedIds, confirmed, pending, ids]

@[simp] theorem refs_pending (t : Timeline) : refs t.pending = t.refs := by
  unfold refs pending
  rw [List.filterMap_filter]
  congr 1
  funext e
  cases h : e.ref? <;> simp [Entry.isPending, h]

theorem mem_ids_of_mem_confirmedIds {t : Timeline} {id : MessageId} (h : id ∈ t.confirmedIds) :
    id ∈ t.ids :=
  List.map_subset _ (List.filter_sublist.subset) h

theorem holdsConfirmed_iff {t : Timeline} {id : MessageId} :
    t.holdsConfirmed id = true ↔ id ∈ t.confirmedIds := by
  simp only [holdsConfirmed, List.any_eq_true, confirmedIds, confirmed, ids, List.mem_map,
    List.mem_filter, Bool.and_eq_true, decide_eq_true_eq]
  constructor
  · rintro ⟨e, he, hid, hc⟩
    exact ⟨e, ⟨he, hc⟩, hid⟩
  · rintro ⟨e, ⟨he, hc⟩, hid⟩
    exact ⟨e, he, hid, hc⟩

theorem holds_iff {t : Timeline} {id : MessageId} : t.holds id = true ↔ id ∈ t.ids := by
  simp [holds, ids]

/-! ## Places -/

theorem split_at {t : Timeline} {i : Nat} {p : Entry} (h : t[i]? = some p) :
    t = t.take i ++ p :: t.drop (i + 1) := by
  obtain ⟨hi, rfl⟩ := List.getElem?_eq_some_iff.1 h
  rw [List.getElem_cons_drop, List.take_append_drop]

theorem set_at {t : Timeline} {i : Nat} {p : Entry} (h : t[i]? = some p) (e : Entry) :
    t.set i e = t.take i ++ e :: t.drop (i + 1) := by
  obtain ⟨hi, -⟩ := List.getElem?_eq_some_iff.1 h
  rw [List.set_eq_take_append_cons_drop, if_pos hi]

theorem placeOfRef?_spec {t : Timeline} {ref : Ref} {i : Nat} (h : t.placeOfRef? ref = some i) :
    ∃ p, t[i]? = some p ∧ p.ref? = some ref := by
  obtain ⟨hi, hp, -⟩ := List.findIdx?_eq_some_iff_getElem.1 h
  exact ⟨t[i], List.getElem?_eq_getElem hi, by simpa using hp⟩

theorem placeOfRef?_isSome_of_mem {t : Timeline} {ref : Ref} (h : ref ∈ t.refs) :
    (t.placeOfRef? ref).isSome := by
  obtain ⟨e, he, href⟩ := List.mem_filterMap.1 h
  rw [placeOfRef?, List.findIdx?_isSome, List.any_eq_true]
  exact ⟨e, he, by simp [href]⟩

theorem lastIdx?_spec {p : α → Bool} {l : List α} {i : Nat} (h : lastIdx? p l = some i) :
    ∃ a, l[i]? = some a ∧ p a = true := by
  induction l generalizing i with
  | nil => cases h
  | cons a l ih =>
      unfold lastIdx? at h
      split at h
      · next j hj =>
        cases h
        exact ih hj
      · split at h
        · next ha =>
          cases h
          exact ⟨a, rfl, ha⟩
        · cases h

theorem lastIdx?_isSome_of_mem {p : α → Bool} {l : List α} {a : α} (h : a ∈ l) (ha : p a = true) :
    (lastIdx? p l).isSome = true := by
  induction l with
  | nil => cases h
  | cons b l ih =>
      unfold lastIdx?
      cases hlast : lastIdx? p l with
      | some i => rfl
      | none =>
          rcases List.mem_cons.1 h with rfl | hl
          · simp [ha]
          · rw [hlast] at ih
            cases ih hl

theorem placeOfBody?_spec {t : Timeline} {sender : UserId} {body : String} {i : Nat}
    (h : t.placeOfBody? sender body = some i) :
    ∃ p, t[i]? = some p ∧ p.isPending = true ∧ p.sender = some sender ∧ p.body = body := by
  obtain ⟨p, hp, hb⟩ := lastIdx?_spec h
  exact ⟨p, hp, by simpa [and_assoc] using hb⟩

theorem placeOfBody?_isSome_of_mem {t : Timeline} {e : Entry} (h : e ∈ t)
    (pending : e.isPending = true) {sender : UserId} (own : e.sender = some sender) :
    (t.placeOfBody? sender e.body).isSome = true :=
  lastIdx?_isSome_of_mem h (by simp [pending, own])

/-! ## Pages -/

theorem mem_fresh_iff {seen : List MessageId} {page : List Message} {id : MessageId} :
    id ∈ (fresh seen page).map Message.id ↔ id ∈ page.map Message.id ∧ id ∉ seen := by
  induction page generalizing seen with
  | nil => simp [fresh]
  | cons m page ih =>
      unfold fresh
      by_cases hm : m.id ∈ seen
      · rw [if_pos (List.contains_iff_mem.2 hm), ih]
        grind
      · rw [if_neg (by simpa using hm), List.map_cons, List.mem_cons, ih]
        grind

theorem nodup_fresh (seen : List MessageId) (page : List Message) :
    ((fresh seen page).map Message.id).Nodup := by
  induction page generalizing seen with
  | nil => exact .nil
  | cons m page ih =>
      unfold fresh
      split
      · exact ih seen
      · rw [List.map_cons, List.nodup_cons, mem_fresh_iff]
        exact ⟨fun h => h.2 List.mem_cons_self, ih _⟩

theorem fresh_sublist (seen : List MessageId) (page : List Message) :
    (fresh seen page).Sublist page := by
  induction page generalizing seen with
  | nil => exact .slnil
  | cons m page ih =>
      unfold fresh
      split
      · exact (ih seen).cons m
      · exact (ih _).cons_cons m

/-- Messages with numbers that are new and distinct are all taken. -/
theorem fresh_eq_self {seen : List MessageId} {page : List Message}
    (nodup : (page.map Message.id).Nodup) (new : ∀ id ∈ page.map Message.id, id ∉ seen) :
    fresh seen page = page := by
  induction page generalizing seen with
  | nil => rfl
  | cons m page ih =>
      obtain ⟨hm, hpage⟩ := List.nodup_cons.1 nodup
      obtain ⟨hnew, hrest⟩ := List.forall_mem_cons.1 new
      unfold fresh
      rw [if_neg (by simpa using hnew), ih hpage fun id hid => ?_]
      rw [List.mem_cons, not_or]
      exact ⟨fun heq => hm (heq ▸ hid), hrest id hid⟩

theorem ids_ofMessages (room : UInt64) (page : List Message) :
    ids (page.map (Entry.ofMessage room)) = page.map Message.id := by
  simp only [ids, List.map_map]
  rfl

theorem mem_ids_missing_iff {t : Timeline} {room : UInt64} {page : List Message} {id : MessageId} :
    id ∈ (t.missing room page).ids ↔ id ∈ page.map Message.id ∧ id ∉ t.ids := by
  rw [missing, ids_ofMessages, mem_fresh_iff]

@[simp] theorem pending_ofMessages (room : UInt64) (page : List Message) :
    pending (page.map (Entry.ofMessage room)) = [] := by
  simp [pending]

theorem confirmedCount_ofMessages (room : UInt64) (page : List Message) :
    confirmedCount (page.map (Entry.ofMessage room)) = page.length := by
  have hall : ∀ e ∈ page.map (Entry.ofMessage room), (!e.isPending) = true := by simp
  rw [confirmedCount, confirmed, List.filter_eq_self.2 hall, List.length_map]

theorem confirmedIds_eq_ids {t : Timeline} (h : t.pending = []) : t.confirmedIds = t.ids := by
  have hall : ∀ e ∈ t, e.isPending = false := by
    simpa [pending, List.filter_eq_nil_iff] using h
  rw [confirmedIds, confirmed, List.filter_eq_self.2 fun e he => by simp [hall e he]]

theorem confirmedIds_reload (t : Timeline) (room : UInt64) (page : List Message) :
    (t.reload room page).confirmedIds = (fresh [] page).map Message.id := by
  rw [reload, confirmedIds_append, confirmedIds_pending, List.append_nil,
    confirmedIds_eq_ids (pending_ofMessages _ _), ids_ofMessages]

theorem mem_confirmedIds_reload {t : Timeline} {room : UInt64} {page : List Message}
    {id : MessageId} : id ∈ (t.reload room page).confirmedIds ↔ id ∈ page.map Message.id := by
  rw [confirmedIds_reload, mem_fresh_iff]
  simp

theorem refs_reload (t : Timeline) (room : UInt64) (page : List Message) :
    (t.reload room page).refs = t.refs := by
  rw [reload, refs_append, (refs_eq_nil_iff _).2 (pending_ofMessages _ _), refs_pending,
    List.nil_append]

/-! ## Edits -/

inductive Edit : Timeline → Timeline → Prop
  | keep (t : Timeline) : Edit t t
  | append {t : Timeline} {e : Entry} (confirmed : e.isPending = false)
      (new : e.id ∉ t.confirmedIds) : Edit t (t ++ [e])
  | prepend {t block : Timeline} (confirmed : block.pending = []) (distinct : block.ids.Nodup)
      (new : ∀ id ∈ block.ids, id ∉ t.ids) : Edit t (block ++ t)
  | settle {before after : Timeline} {p e : Entry} (pending : p.isPending = true)
      (confirmed : e.isPending = false) (new : e.id ∉ (before ++ p :: after).confirmedIds) :
      Edit (before ++ p :: after) (before ++ e :: after)
  | retract {before after : Timeline} {p : Entry} (pending : p.isPending = true) :
      Edit (before ++ p :: after) (before ++ after)

namespace Edit

variable {t t' : Timeline}

theorem confirmedIds_subset (h : Edit t t') {id : MessageId} (hid : id ∈ t.confirmedIds) :
    id ∈ t'.confirmedIds := by
  cases h with
  | keep => exact hid
  | append => simp [hid]
  | prepend => simp [hid]
  | settle hp hc =>
      simp only [confirmedIds_append, confirmedIds_cons, hp, hc, if_true, List.mem_append] at hid ⊢
      exact hid.imp_right (List.mem_cons_of_mem _)
  | retract hp =>
      simpa only [confirmedIds_append, confirmedIds_cons, hp, if_true] using hid

theorem confirmedIds_nodup (h : Edit t t') (ht : t.confirmedIds.Nodup) :
    t'.confirmedIds.Nodup := by
  cases h with
  | keep => exact ht
  | append hc hnew =>
      rw [confirmedIds_append, confirmedIds_cons, hc, List.nodup_append]
      refine ⟨ht, by simp, fun a ha b hb => ?_⟩
      obtain rfl : b = _ := by simpa using hb
      exact fun hab => hnew (hab ▸ ha)
  | prepend hc hd hnew =>
      rw [confirmedIds_append, confirmedIds_eq_ids hc, List.nodup_append]
      exact ⟨hd, ht, fun a ha b hb hab => hnew a ha (hab ▸ mem_ids_of_mem_confirmedIds hb)⟩
  | settle hp hc hnew =>
      simp only [confirmedIds_append, confirmedIds_cons, hp, hc, if_true] at ht hnew ⊢
      exact List.perm_middle.nodup_iff.2 (List.nodup_cons.2 ⟨hnew, ht⟩)
  | retract hp =>
      simpa only [confirmedIds_append, confirmedIds_cons, hp, if_true] using ht

/-- An edit adds no pending entry. -/
theorem refs_sublist (h : Edit t t') : t'.refs.Sublist t.refs := by
  cases h with
  | keep => exact .refl _
  | append hc => simp [refs_cons, ref?_of_not_pending hc]
  | prepend hc => simp [(refs_eq_nil_iff _).2 hc]
  | settle hp hc =>
      simp only [refs_append, refs_cons, ref?_of_not_pending hc, Option.toList_none,
        List.nil_append]
      exact (List.Sublist.refl _).append (List.sublist_append_right _ _)
  | retract hp =>
      simp only [refs_append, refs_cons]
      exact (List.Sublist.refl _).append (List.sublist_append_right _ _)

end Edit

end LiveChat.Timeline
