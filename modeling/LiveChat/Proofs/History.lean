import Mathlib.Data.List.Induction

/-!
# What stands of a history

A history lists operations in order. What one of them made stands at the end if each later one
spared it. A property that a state has exactly as long as it stands can be read off the history, and
need only be followed over one operation more. Of what comes several times the first may be what
counts.
-/

namespace LiveChat

theorem snoc_eq_split_iff {l before after : List α} {a b : α} :
    l ++ [a] = before ++ b :: after ↔ (l = before ∧ a = b ∧ after = []) ∨
      ∃ after', after = after' ++ [a] ∧ l = before ++ b :: after' := by
  constructor
  · intro heq
    rcases List.eq_nil_or_concat after with rfl | ⟨after', last, rfl⟩
    · obtain ⟨hl, hlast⟩ := List.append_inj' heq rfl
      exact .inl ⟨hl, List.head_eq_of_cons_eq hlast, rfl⟩
    · rw [List.concat_eq_append, ← List.cons_append, ← List.append_assoc] at heq
      obtain ⟨hl, hlast⟩ := List.append_inj' heq rfl
      obtain rfl := List.head_eq_of_cons_eq hlast
      exact .inr ⟨after', List.concat_eq_append, hl⟩
  · rintro (⟨rfl, rfl, rfl⟩ | ⟨after', rfl, rfl⟩)
    · rfl
    · simp

namespace History

variable {ι : Type} {makes : List ι → ι → Prop} {spares : ι → Prop} {ops : List ι} {op : ι}

/-- An operation made it of what came before, and each later one spared it. -/
def StandsFrom (makes : List ι → ι → Prop) (spares : ι → Prop) (ops : List ι) : Prop :=
  ∃ past op future, ops = past ++ op :: future ∧ makes past op ∧ ∀ later ∈ future, spares later

theorem not_standsFrom_nil : ¬ StandsFrom makes spares [] := by
  rintro ⟨past, op, future, hsplit, -⟩
  simp at hsplit

theorem standsFrom_snoc : StandsFrom makes spares (ops ++ [op]) ↔
    makes ops op ∨ StandsFrom makes spares ops ∧ spares op := by
  constructor
  · rintro ⟨past, made, future, hsplit, makes, spared⟩
    rcases snoc_eq_split_iff.1 hsplit with ⟨rfl, rfl, rfl⟩ | ⟨future, rfl, rfl⟩
    · exact .inl makes
    · obtain ⟨earlier, last⟩ := List.forall_mem_append.1 spared
      exact .inr ⟨⟨past, made, future, rfl, makes, earlier⟩, last op List.mem_cons_self⟩
  · rintro (makes | ⟨⟨past, made, future, rfl, makes, spared⟩, last⟩)
    · exact ⟨ops, op, [], rfl, makes, nofun⟩
    · refine ⟨past, made, future ++ [op], by simp, makes, ?_⟩
      exact List.forall_mem_append.2 ⟨spared, List.forall_mem_singleton.2 last⟩

/-- Histories have a property as long as what gives it stands, or what was there at first is
spared. -/
theorem iff_standsFrom_or (holds : List ι → Prop)
    (snoc : ∀ ops op, holds (ops ++ [op]) ↔ makes ops op ∨ holds ops ∧ spares op) :
    holds ops ↔ StandsFrom makes spares ops ∨ holds [] ∧ ∀ op ∈ ops, spares op := by
  induction ops using List.reverseRecOn with
  | nil => simp [not_standsFrom_nil]
  | append_singleton ops op ih =>
      rw [snoc, standsFrom_snoc, ih, List.forall_mem_append, List.forall_mem_singleton,
        or_and_right, and_assoc, or_assoc]

/-- Histories that begin without a property have it as long as what gives it stands. -/
theorem iff_standsFrom (holds : List ι → Prop) (start : ¬ holds [])
    (snoc : ∀ ops op, holds (ops ++ [op]) ↔ makes ops op ∨ holds ops ∧ spares op) :
    holds ops ↔ StandsFrom makes spares ops :=
  (iff_standsFrom_or holds snoc).trans (or_iff_left fun h => start h.1)

def Stands (makes spares : ι → Prop) (ops : List ι) : Prop :=
  ∃ past op future, ops = past ++ op :: future ∧ makes op ∧ ∀ later ∈ future, spares later

theorem iff_stands {makes : ι → Prop} (holds : List ι → Prop) (start : ¬ holds [])
    (snoc : ∀ ops op, holds (ops ++ [op]) ↔ makes op ∨ holds ops ∧ spares op) :
    holds ops ↔ Stands makes spares ops :=
  iff_standsFrom holds start snoc

end History

/-! ## The first of each kind -/

section Firsts

variable {α κ : Type} [DecidableEq κ] {key : α → κ} {l : List α} {k : κ}

/-- What is left of a list when each element goes that comes after another with its key. -/
def firsts (key : α → κ) : List α → List α
  | [] => []
  | a :: l => a :: (firsts key l).filter fun b => key b ≠ key a

theorem firsts_snoc (key : α → κ) (l : List α) (a : α) : firsts key (l ++ [a]) =
    firsts key l ++ if key a ∈ l.map key then [] else [a] := by
  induction l with
  | nil => rfl
  | cons b l ih =>
      rw [List.cons_append, firsts, ih, List.filter_append, firsts, List.cons_append, List.map_cons]
      by_cases seen : key a ∈ l.map key
      · simp [seen]
      · by_cases same : key a = key b <;> simp [same, seen]

theorem mem_map_firsts : k ∈ (firsts key l).map key ↔ k ∈ l.map key := by
  induction l using List.reverseRecOn with
  | nil => rfl
  | append_singleton l a ih =>
      rw [firsts_snoc, List.map_append, List.map_append, List.mem_append, List.mem_append, ih]
      by_cases seen : key a ∈ l.map key
      · have absorbed : k ∈ [a].map key → k ∈ l.map key := fun hk => by
          rwa [List.mem_singleton.1 hk]
        rw [if_pos seen]
        simpa using absorbed
      · rw [if_neg seen]

end Firsts

end LiveChat
