import LiveChat.Feed
import LiveChat.Proofs.History

/-!
# What the feed shows and publishes

Of the notices that came in, those stay that were the first with their number, whatever came with it
later. They are published in the order they came in, and listed in the order opposite to it.
-/

namespace LiveChat.Feed

variable {f : Feed} {ns : List Notice} {n : Notice}

theorem contains_iff {id : UInt64} : f.contains id = true ↔ id ∈ f.entries.map Notice.id := by
  simp [contains]

theorem take_of_mem (known : n.id ∈ f.entries.map Notice.id) : f.take n = (f, none) :=
  if_pos (contains_iff.2 known)

theorem take_of_notMem (new : n.id ∉ f.entries.map Notice.id) :
    f.take n = (⟨n :: f.entries, some n⟩, some n) :=
  if_neg (mt contains_iff.1 new)

/-! ## Notices that come in one after the other -/

def after (f : Feed) (ns : List Notice) : Feed := ns.foldl (fun f n => (f.take n).1) f

/-- What is published, one notice after the other. -/
def published (f : Feed) : List Notice → List Notice
  | [] => []
  | n :: ns => (f.take n).2.toList ++ published (f.take n).1 ns

theorem after_snoc (f : Feed) (ns : List Notice) (n : Notice) :
    f.after (ns ++ [n]) = ((f.after ns).take n).1 := by
  simp [after]

theorem published_snoc (f : Feed) (ns : List Notice) (n : Notice) :
    f.published (ns ++ [n]) = f.published ns ++ ((f.after ns).take n).2.toList := by
  induction ns generalizing f with
  | nil => exact List.append_nil _
  | cons first ns ih =>
      rw [List.cons_append, published, ih, published, List.append_assoc]
      rfl

/-- What a feed knows of the notices so far. -/
structure Keeps (ns : List Notice) (f : Feed) : Prop where
  entries_eq : f.entries = (firsts Notice.id ns).reverse
  latest_eq : f.latest? = f.entries.head?

theorem Keeps.mem_iff (keeps : Keeps ns f) {id : UInt64} :
    id ∈ f.entries.map Notice.id ↔ id ∈ ns.map Notice.id := by
  rw [keeps.entries_eq, List.map_reverse, List.mem_reverse, mem_map_firsts]

theorem Keeps.take (keeps : Keeps ns f) (n : Notice) : Keeps (ns ++ [n]) (f.take n).1 := by
  by_cases known : n.id ∈ ns.map Notice.id
  · rw [take_of_mem (keeps.mem_iff.2 known)]
    refine ⟨?_, keeps.latest_eq⟩
    rw [firsts_snoc, if_pos known, List.append_nil]
    exact keeps.entries_eq
  · rw [take_of_notMem (mt keeps.mem_iff.1 known)]
    refine ⟨?_, rfl⟩
    rw [firsts_snoc, if_neg known, List.reverse_append]
    exact congrArg (n :: ·) keeps.entries_eq

theorem Keeps.take_published (keeps : Keeps ns f) (n : Notice) :
    (f.take n).2 = if n.id ∈ ns.map Notice.id then none else some n := by
  by_cases known : n.id ∈ ns.map Notice.id
  · rw [take_of_mem (keeps.mem_iff.2 known), if_pos known]
  · rw [take_of_notMem (mt keeps.mem_iff.1 known), if_neg known]

theorem keeps_after (ns : List Notice) : Keeps ns (empty.after ns) := by
  induction ns using List.reverseRecOn with
  | nil => exact ⟨rfl, rfl⟩
  | append_singleton ns n ih =>
      rw [after_snoc]
      exact ih.take n

theorem published_eq_firsts (ns : List Notice) : empty.published ns = firsts Notice.id ns := by
  induction ns using List.reverseRecOn with
  | nil => rfl
  | append_singleton ns n ih =>
      rw [published_snoc, ih, firsts_snoc, (keeps_after ns).take_published]
      split <;> rfl

/-- Whatever notices come in, a notice is published exactly if none before it had its number, so
that what is published is the first notice of each number in the order they came in. The entries are
the same, newest first, and the latest notice is the first of them. -/
theorem first_of_each_number_published (ns : List Notice) :
    (empty.after ns).entries = (firsts Notice.id ns).reverse ∧
      empty.published ns = firsts Notice.id ns ∧
      (empty.after ns).latest? = (empty.after ns).entries.head? ∧
      ∀ n, ((empty.after ns).take n).2 = if n.id ∈ ns.map Notice.id then none else some n := by
  have keeps := keeps_after ns
  exact ⟨keeps.entries_eq, published_eq_firsts ns, keeps.latest_eq, keeps.take_published⟩

/-- Another notice of a number that is there does not take its place, nor come to the front. -/
example :
    let told (id : UInt64) (title : String) : Notice := ⟨id, "mention", title, none, 0, none⟩
    (empty.after [told 7 "ada", told 8 "bo", told 7 "cy"]).entries =
      [told 8 "bo", told 7 "ada"] := by
  decide

end LiveChat.Feed
