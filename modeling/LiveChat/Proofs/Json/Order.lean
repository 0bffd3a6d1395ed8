import LiveChat.Json.Reader
import LiveChat.Proofs.Json.Document

/-!
# Members in another order

Whoever reads the fields of an object gets the same in whatever order its members stand: a field is
found by its name, and a name that comes twice is refused wherever it stands. The order does not
show in the depth of an object either, nor in whether it can be printed, nor in whether it has a
value.
-/

namespace LiveChat.Json

/-- The same object with its members in some order. -/
inductive Reordered : Json → Json → Prop
  | object {members members' : List (List Glyph × Json)} (order : members.Perm members') :
      Reordered (.object members) (.object members')

variable {α β : Type} {j j' : Json} {members members' : List (List Glyph × Json)} {fs fs' : Fields}

/-! ## Reading -/

/-- Elements in another order are mapped to results in another order, or one of them fails. -/
theorem mapM_perm (f : α → Option β) {l l' : List α} (order : l.Perm l') :
    Option.Rel List.Perm (l.mapM f) (l'.mapM f) := by
  induction order with
  | nil => exact .some .nil
  | @cons a l l' _ ih =>
      rw [List.mapM_cons, List.mapM_cons]
      generalize l.mapM f = results, l'.mapM f = results' at ih ⊢
      cases f a with
      | none => exact .none
      | some b =>
          cases ih with
          | none => exact .none
          | some order => exact .some (order.cons b)
  | swap a a' l =>
      simp only [List.mapM_cons]
      cases f a <;> cases f a' <;> cases l.mapM f <;>
        first | exact .none | exact .some (.swap _ _ _)
  | @trans l l' l'' _ _ ih ih' =>
      generalize l.mapM f = results, l'.mapM f = results', l''.mapM f = results'' at ih ih' ⊢
      cases ih with
      | none =>
          cases ih'
          exact .none
      | some first =>
          cases ih' with
          | some second => exact .some (first.trans second)

theorem bind_eq_of_rel {r : α → α → Prop} {o o' : Option α} {f : α → Option β}
    (h : Option.Rel r o o') (same : ∀ a a', r a a' → f a = f a') : o >>= f = o' >>= f := by
  cases h with
  | none => rfl
  | some h => exact same _ _ h

namespace Fields

theorem find?_of_perm (order : fs.Perm fs') (name : String) : fs.find? name = fs'.find? name := by
  have hnamed := order.filter (fun field => decide (field.1 = name))
  unfold find?
  generalize fs.filter _ = named, fs'.filter _ = named' at hnamed ⊢
  match named, named', hnamed with
  | [], _, hnamed => rw [hnamed.nil_eq]
  | [field], _, hnamed => rw [List.singleton_perm.1 hnamed]
  | _ :: _ :: _, _ :: _ :: _, _ => rfl
  | _ :: _ :: _, [], hnamed | _ :: _ :: _, [_], hnamed => simpa using hnamed.length_eq

theorem required_of_perm (order : fs.Perm fs') (name : String) (read : Json → Option α) :
    fs.required name read = fs'.required name read := by
  rw [required, required, find?_of_perm order]

theorem optional_of_perm (order : fs.Perm fs') (name : String) (read : Json → Option α) :
    fs.optional name read = fs'.optional name read := by
  rw [optional, optional, find?_of_perm order]

theorem defaulted_of_perm (order : fs.Perm fs') (name : String) (default : α)
    (read : Json → Option α) :
    fs.defaulted name default read = fs'.defaulted name default read := by
  rw [defaulted, defaulted, find?_of_perm order]

end Fields

/-- What is read out of the fields of an object without a look at their order. -/
theorem bind_fields?_of_reordered {read : Fields → Option α} (h : j.Reordered j')
    (same : ∀ fs fs', fs.Perm fs' → read fs = read fs') :
    j.fields? >>= read = j'.fields? >>= read := by
  obtain ⟨order⟩ := h
  exact bind_eq_of_rel (mapM_perm _ order) same

theorem bind_recordFields?_of_reordered {read : Fields → Option α} (names : List String)
    (h : j.Reordered j') (same : ∀ fs fs', fs.Perm fs' → read fs = read fs') :
    j.recordFields? names >>= read = j'.recordFields? names >>= read := by
  obtain ⟨order⟩ := h
  exact bind_fields?_of_reordered (.object order) same

/-! ## Depth, printing, values -/

theorem depthMembers_of_perm (order : members.Perm members') :
    depthMembers members = depthMembers members' := by
  induction order with
  | nil => rfl
  | cons m _ ih => exact congrArg (max m.2.depth) ih
  | swap m m' l =>
      simp only [depthMembers]
      omega
  | trans _ _ ih ih' => exact ih.trans ih'

theorem Reordered.depth_eq (h : j.Reordered j') : j.depth = j'.depth := by
  obtain ⟨order⟩ := h
  exact congrArg (· + 1) (depthMembers_of_perm order)

theorem printableMembers_iff :
    PrintableMembers members ↔ ∀ m ∈ members, (∀ g ∈ m.1, g.Printable) ∧ m.2.Printable := by
  constructor
  · intro h
    induction members with
    | nil => exact nofun
    | cons m members ih =>
        obtain ⟨hname, hvalue, hrest⟩ := h
        exact List.forall_mem_cons.2 ⟨⟨hname, hvalue⟩, ih hrest⟩
  · exact printable_object

theorem Reordered.printable (h : j.Reordered j') (printable : j.Printable) : j'.Printable := by
  obtain ⟨order⟩ := h
  exact printableMembers_iff.2 fun m hm => printableMembers_iff.1 printable m (order.mem_iff.2 hm)

theorem Value.isSome_ofMembers? (members : List (List Glyph × Json)) :
    (ofMembers? members).isSome =
      members.all fun m => (Glyph.decode m.1).isSome && (ofJson? m.2).isSome := by
  induction members with
  | nil => rfl
  | cons m members ih =>
      obtain ⟨t, j⟩ := m
      rw [List.all_cons, ← ih, ofMembers?]
      cases Glyph.decode t <;> cases ofJson? j <;> cases ofMembers? members <;> rfl

theorem Reordered.isSome_value_eq (h : j.Reordered j') :
    (Value.ofJson? j).isSome = (Value.ofJson? j').isSome := by
  obtain ⟨order⟩ := h
  simp only [Value.ofJson?, Option.isSome_map, Value.isSome_ofMembers?]
  exact order.all_eq

end LiveChat.Json
