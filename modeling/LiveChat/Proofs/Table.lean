import LiveChat.Table
import Mathlib.Data.List.Induction

/-!
# Entries and look-ups of a table

The entries of a table are exactly what can be looked up in it, so that a fact about all entries can
be shown key by key.
-/

namespace LiveChat.Table

variable {κ : Type u} {ν : Type v} [Ord κ] [Std.LawfulEqOrd κ]
  {t : Table κ ν} {k : κ} {v : ν}

omit [Std.LawfulEqOrd κ] in
theorem keys_ascending (t : Table κ ν) : t.keys.Pairwise fun a b => compare a b = .lt :=
  List.pairwise_map.2 t.ascending

theorem nodup_of_ascending {l : List κ} (h : l.Pairwise fun a b => compare a b = .lt) :
    l.Nodup := by
  refine h.imp fun {a b} h hab => ?_
  simp [hab] at h

theorem keys_nodup (t : Table κ ν) : t.keys.Nodup := nodup_of_ascending t.keys_ascending

/-- The keys are known once it is known what is a key. -/
theorem keys_eq_of_mem_iff [Std.OrientedOrd κ] {l : List κ}
    (ascending : l.Pairwise fun a b => compare a b = .lt) (mem : ∀ k, k ∈ t.keys ↔ k ∈ l) :
    t.keys = l := by
  have perm : t.keys.Perm l :=
    (List.perm_ext_iff_of_nodup t.keys_nodup (nodup_of_ascending ascending)).2 mem
  refine perm.eq_of_pairwise (fun a b _ _ hab hba => ?_) t.keys_ascending ascending
  rw [Std.OrientedOrd.eq_swap, hab] at hba
  cases hba

theorem mem_of_lookup {l : List (κ × ν)} (h : lookup k l = some v) : (k, v) ∈ l := by
  induction l with
  | nil => cases h
  | cons e l ih =>
      by_cases hk : k = e.1
      · subst hk
        simp only [lookup, Std.ReflCmp.compare_self, if_true, Option.some.injEq] at h
        subst h
        exact List.mem_cons_self
      · simp only [lookup, Std.compare_eq_iff_eq, hk, if_false] at h
        exact List.mem_cons_of_mem _ (ih h)

theorem lookup_of_mem {l : List (κ × ν)} (ascending : l.Pairwise fun a b => compare a.1 b.1 = .lt)
    (h : (k, v) ∈ l) : lookup k l = some v := by
  induction l with
  | nil => cases h
  | cons e l ih =>
      obtain ⟨hhead, htail⟩ := List.pairwise_cons.1 ascending
      rcases List.mem_cons.1 h with rfl | h
      · simp [lookup]
      · have hne : k ≠ e.1 := by
          rintro rfl
          have hlt := hhead _ h
          simp at hlt
        simp only [lookup, Std.compare_eq_iff_eq, hne, if_false]
        exact ih htail h

theorem find?_eq_some_iff : t.find? k = some v ↔ (k, v) ∈ t.entries :=
  ⟨mem_of_lookup, lookup_of_mem t.ascending⟩

/-- Tables with the same look-ups are the same. -/
theorem ext_find? [Std.OrientedOrd κ] {s : Table κ ν} (h : ∀ k, t.find? k = s.find? k) : t = s := by
  have nodup (t : Table κ ν) : t.entries.Nodup :=
    List.Pairwise.of_map _ (fun _ _ hne heq => hne (congrArg Prod.fst heq)) t.keys_nodup
  have perm : t.entries.Perm s.entries := by
    refine (List.perm_ext_iff_of_nodup (nodup t) (nodup s)).2 fun e => ?_
    rw [← find?_eq_some_iff (t := t), ← find?_eq_some_iff (t := s), h]
  refine ext_entries (perm.eq_of_pairwise (fun a b _ _ hab hba => ?_) t.ascending s.ascending)
  rw [Std.OrientedOrd.eq_swap, hab] at hba
  cases hba

theorem mem_keys_iff : k ∈ t.keys ↔ (t.find? k).isSome = true := by
  rw [keys, List.mem_map, Option.isSome_iff_exists]
  constructor
  · rintro ⟨⟨k', v⟩, he, rfl⟩
    exact ⟨v, find?_eq_some_iff.2 he⟩
  · rintro ⟨v, hv⟩
    exact ⟨(k, v), find?_eq_some_iff.1 hv, rfl⟩

theorem contains_iff : t.contains k = true ↔ k ∈ t.keys := mem_keys_iff.symm

theorem mem_keys_insert [DecidableEq κ] [Std.TransOrd κ] {j : κ} :
    j ∈ (t.insert k v).keys ↔ j = k ∨ j ∈ t.keys := by
  rw [mem_keys_iff, mem_keys_iff, find?_insert]
  by_cases heq : j = k <;> simp [heq]

theorem mem_values_iff : v ∈ t.values ↔ ∃ k, t.find? k = some v := by
  rw [values, List.mem_map]
  constructor
  · rintro ⟨⟨k, v⟩, he, rfl⟩
    exact ⟨k, find?_eq_some_iff.2 he⟩
  · rintro ⟨k, hk⟩
    exact ⟨(k, v), find?_eq_some_iff.1 hk, rfl⟩

theorem find?_filter (p : κ → ν → Bool) :
    (t.filter p).find? k = (t.find? k).filter (p k) := by
  cases h : t.find? k with
  | none =>
      refine Option.eq_none_iff_forall_ne_some.2 fun v hv => ?_
      have hmem := (List.mem_filter.1 (find?_eq_some_iff.1 hv)).1
      rw [find?_eq_some_iff.2 hmem] at h
      cases h
  | some v =>
      have hmem := find?_eq_some_iff.1 h
      cases hp : p k v with
      | true =>
          rw [Option.filter_some, hp, if_pos rfl]
          exact find?_eq_some_iff.2 (List.mem_filter.2 ⟨hmem, hp⟩)
      | false =>
          rw [Option.filter_some, hp, if_neg (by simp)]
          refine Option.eq_none_iff_forall_ne_some.2 fun w hw => ?_
          obtain ⟨hmem', hp'⟩ := List.mem_filter.1 (find?_eq_some_iff.1 hw)
          obtain rfl : v = w := Option.some.inj (h.symm.trans (find?_eq_some_iff.2 hmem'))
          simp [hp] at hp'

theorem lookup_eq_none_of_forall_ne {l : List (κ × ν)} (h : ∀ d ∈ l, k ≠ d.1) :
    lookup k l = none := by
  induction l with
  | nil => rfl
  | cons d l ih =>
      have hne : k ≠ d.1 := h d List.mem_cons_self
      simp only [lookup, Std.compare_eq_iff_eq, hne, if_false]
      exact ih fun d' hd' => h d' (List.mem_cons_of_mem _ hd')

theorem filter_flatMap_lookup [DecidableEq κ] {α : Type w} {f : ν → List α} {key : α → κ}
    {l : List (κ × ν)} (ascending : l.Pairwise fun a b => compare a.1 b.1 = .lt)
    (keyed : ∀ d ∈ l, ∀ x ∈ f d.2, key x = d.1) :
    (l.flatMap fun d => f d.2).filter (key · = k) = ((lookup k l).map f).getD [] := by
  induction l with
  | nil => rfl
  | cons d l ih =>
      obtain ⟨hhead, htail⟩ := List.pairwise_cons.1 ascending
      have hrest := ih htail fun d' hd' => keyed d' (List.mem_cons_of_mem _ hd')
      have hkey : ∀ x ∈ f d.2, key x = d.1 := keyed d List.mem_cons_self
      rw [List.flatMap_cons, List.filter_append, hrest]
      by_cases heq : k = d.1
      · subst heq
        have hnone : lookup d.1 l = none := lookup_eq_none_of_forall_ne fun d' hd' hsame => by
          have hlt := hhead d' hd'
          simp [hsame] at hlt
        have hall : (f d.2).filter (key · = d.1) = f d.2 :=
          List.filter_eq_self.2 fun x hx => decide_eq_true (hkey x hx)
        simp [lookup, hnone, hall]
      · have hnil : (f d.2).filter (key · = k) = [] :=
          List.filter_eq_nil_iff.2 fun x hx => by simp [hkey x hx, Ne.symm heq]
        simp [lookup, heq, hnil]

/-- What the values of a table contribute under one key. -/
theorem filter_flatMap_values [DecidableEq κ] {α : Type w} {f : ν → List α} {key : α → κ}
    (keyed : ∀ k v, t.find? k = some v → ∀ x ∈ f v, key x = k) :
    (t.values.flatMap f).filter (key · = k) = ((t.find? k).map f).getD [] := by
  rw [values, List.flatMap_map]
  exact filter_flatMap_lookup t.ascending fun d hd => keyed d.1 d.2 (find?_eq_some_iff.2 hd)

section OfList

variable [Std.TransOrd κ] [DecidableEq κ]

omit [Std.LawfulEqOrd κ] [DecidableEq κ] in
theorem ofList_snoc (l : List (κ × ν)) (e : κ × ν) :
    ofList (l ++ [e]) = (ofList l).insert e.1 e.2 := by
  simp [ofList]

theorem find?_ofList {l : List (κ × ν)} (nodup : (l.map Prod.fst).Nodup) :
    (ofList l).find? k = some v ↔ (k, v) ∈ l := by
  induction l using List.reverseRecOn with
  | nil => simp [ofList]
  | append_singleton l e ih =>
      obtain ⟨key, value⟩ := e
      rw [List.map_append, List.map_singleton, List.nodup_append] at nodup
      obtain ⟨hinit, -, hlast⟩ := nodup
      rw [ofList_snoc, find?_insert, List.mem_append, List.mem_singleton]
      by_cases heq : k = key
      · subst heq
        have hfresh : (k, v) ∉ l := fun hmem =>
          hlast k (List.mem_map.2 ⟨_, hmem, rfl⟩) k (List.mem_singleton_self k) rfl
        simp [hfresh, eq_comm]
      · simp [heq, ih hinit]

/-- A table is made of its entries in any order. -/
theorem ofList_of_perm {l : List (κ × ν)} (order : l.Perm t.entries) : ofList l = t := by
  have hkeys : (l.map Prod.fst).Nodup := (order.map Prod.fst).nodup_iff.2 t.keys_nodup
  refine ext_find? fun k => Option.ext fun v => ?_
  rw [find?_ofList hkeys, find?_eq_some_iff, order.mem_iff]

end OfList

end LiveChat.Table
