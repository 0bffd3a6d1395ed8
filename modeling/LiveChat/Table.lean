/-!
# Tables in key order

A table holds at most one value for each key and lists its entries in ascending order of the
keys. Two tables with the same look-ups are therefore the same table.
-/

namespace LiveChat

structure Table (κ : Type u) (ν : Type v) [Ord κ] where
  entries : List (κ × ν)
  ascending : entries.Pairwise fun a b => compare a.1 b.1 = .lt

namespace Table

variable {κ : Type u} {ν : Type v} {μ : Type w} [Ord κ]

theorem ext_entries {t s : Table κ ν} (h : t.entries = s.entries) : t = s := by
  cases t; cases s; cases h; rfl

instance [DecidableEq κ] [DecidableEq ν] : DecidableEq (Table κ ν) := fun t s =>
  if h : t.entries = s.entries then isTrue (ext_entries h)
  else isFalse fun e => h (congrArg _ e)

instance [Repr κ] [Repr ν] : Repr (Table κ ν) := ⟨fun t p => reprPrec t.entries p⟩

def empty : Table κ ν := ⟨[], .nil⟩

instance : Inhabited (Table κ ν) := ⟨empty⟩

def keys (t : Table κ ν) : List κ := t.entries.map (·.1)

def values (t : Table κ ν) : List ν := t.entries.map (·.2)

def size (t : Table κ ν) : Nat := t.entries.length

def isEmpty (t : Table κ ν) : Bool := t.entries.isEmpty

def lookup (k : κ) : List (κ × ν) → Option ν
  | [] => none
  | (k', v) :: rest => if compare k k' = .eq then some v else lookup k rest

def find? (t : Table κ ν) (k : κ) : Option ν := lookup k t.entries

@[simp] theorem find?_empty (k : κ) : (empty : Table κ ν).find? k = none := rfl

def contains (t : Table κ ν) (k : κ) : Bool := (t.find? k).isSome

def place (k : κ) (v : ν) : List (κ × ν) → List (κ × ν)
  | [] => [(k, v)]
  | (k', v') :: rest =>
    match compare k k' with
    | .lt => (k, v) :: (k', v') :: rest
    | .eq => (k', v) :: rest
    | .gt => (k', v') :: place k v rest

def erase (t : Table κ ν) (k : κ) : Table κ ν :=
  ⟨t.entries.filter fun e => compare k e.1 != .eq, t.ascending.filter _⟩

def filter (t : Table κ ν) (p : κ → ν → Bool) : Table κ ν :=
  ⟨t.entries.filter fun e => p e.1 e.2, t.ascending.filter _⟩

def map (t : Table κ ν) (f : κ → ν → μ) : Table κ μ :=
  ⟨t.entries.map fun e => (e.1, f e.1 e.2), List.pairwise_map.2 t.ascending⟩

section Ordered

variable [Std.TransOrd κ]

theorem mem_place {k : κ} {v : ν} {l : List (κ × ν)} {e : κ × ν} (h : e ∈ place k v l) :
    compare k e.1 = .eq ∨ e ∈ l := by
  induction l with
  | nil =>
      rw [place, List.mem_singleton] at h
      exact .inl (h ▸ Std.ReflCmp.compare_self)
  | cons d l ih =>
      obtain ⟨k', v'⟩ := d
      unfold place at h
      split at h
      · rcases List.mem_cons.1 h with rfl | h
        · exact .inl Std.ReflCmp.compare_self
        · exact .inr h
      · next hk =>
        rcases List.mem_cons.1 h with rfl | h
        · exact .inl hk
        · exact .inr (List.mem_cons_of_mem _ h)
      · rcases List.mem_cons.1 h with rfl | h
        · exact .inr List.mem_cons_self
        · exact (ih h).imp id (List.mem_cons_of_mem _)

theorem pairwise_place (k : κ) (v : ν) {l : List (κ × ν)}
    (h : l.Pairwise fun a b => compare a.1 b.1 = .lt) :
    (place k v l).Pairwise fun a b => compare a.1 b.1 = .lt := by
  induction l with
  | nil => exact List.pairwise_singleton _ _
  | cons d l ih =>
      obtain ⟨k', v'⟩ := d
      obtain ⟨hd, hl⟩ := List.pairwise_cons.1 h
      unfold place
      split
      · next hk =>
        refine List.pairwise_cons.2 ⟨fun e he => ?_, h⟩
        rcases List.mem_cons.1 he with rfl | he
        · exact hk
        · exact Std.TransCmp.lt_trans hk (hd e he)
      · exact List.pairwise_cons.2 ⟨hd, hl⟩
      · next hk =>
        refine List.pairwise_cons.2 ⟨fun e he => ?_, ih hl⟩
        have hk' : compare k' k = .lt := Std.OrientedCmp.lt_of_gt hk
        rcases mem_place he with hke | he
        · exact Std.TransCmp.lt_of_lt_of_isLE hk' (by rw [hke]; rfl)
        · exact hd e he

/-- Gives `k` the value `v`; an earlier value of `k` is replaced in its place. -/
def insert (t : Table κ ν) (k : κ) (v : ν) : Table κ ν :=
  ⟨place k v t.entries, pairwise_place k v t.ascending⟩

/-- Later entries win over earlier ones of the same key. -/
def ofList (l : List (κ × ν)) : Table κ ν := l.foldl (fun t e => t.insert e.1 e.2) empty

variable [Std.LawfulEqOrd κ] [DecidableEq κ]

omit [Std.TransOrd κ] in
theorem lookup_place (k j : κ) (v : ν) (l : List (κ × ν)) :
    lookup j (place k v l) = if j = k then some v else lookup j l := by
  induction l with
  | nil => simp [place, lookup]
  | cons d l ih =>
      obtain ⟨k', v'⟩ := d
      unfold place
      split
      · simp [lookup]
      · next hk =>
        cases Std.LawfulEqOrd.eq_of_compare hk
        by_cases hj : j = k <;> simp [lookup, hj]
      · next hk =>
        have hne : k' ≠ k := by
          rintro rfl
          simp at hk
        by_cases hj : j = k'
        · subst hj
          simp [lookup, hne]
        · simp [lookup, hj, ih]

theorem find?_insert (t : Table κ ν) (k j : κ) (v : ν) :
    (t.insert k v).find? j = if j = k then some v else t.find? j :=
  lookup_place k j v t.entries

end Ordered

variable [Std.LawfulEqOrd κ]

section Erase

variable [DecidableEq κ]

theorem lookup_filter_ne (k j : κ) (l : List (κ × ν)) :
    lookup j (l.filter fun e => compare k e.1 != .eq) = if j = k then none else lookup j l := by
  induction l with
  | nil => simp [lookup]
  | cons d l ih =>
      obtain ⟨k', v'⟩ := d
      by_cases hk : k = k'
      · subst hk
        rw [List.filter_cons_of_neg (by simp), ih]
        by_cases hj : j = k <;> simp [lookup, hj]
      · rw [List.filter_cons_of_pos (by simp [hk])]
        by_cases hj : j = k'
        · subst hj
          simp [lookup, Ne.symm hk]
        · simp [lookup, hj, ih]

theorem find?_erase (t : Table κ ν) (k j : κ) :
    (t.erase k).find? j = if j = k then none else t.find? j :=
  lookup_filter_ne k j t.entries

end Erase

theorem find?_map (t : Table κ ν) (f : κ → ν → μ) (k : κ) :
    (t.map f).find? k = (t.find? k).map (f k) := by
  obtain ⟨l, hl⟩ := t
  simp only [find?, map]
  clear hl
  induction l with
  | nil => rfl
  | cons d l ih =>
      by_cases hk : k = d.1
      · subst hk; simp [lookup]
      · simp [lookup, hk, ih]

end Table

end LiveChat
