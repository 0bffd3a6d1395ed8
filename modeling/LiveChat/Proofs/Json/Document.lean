import LiveChat.Json.Document
import LiveChat.Proofs.Json.RoundTrip
import LiveChat.Proofs.Table

/-!
# Documents read back

The text that is written for a document without fractions is read back to the document. It is
nested no deeper than the text that the document was read from, of which it drops members whose
names are repeated.
-/

namespace LiveChat.Json

namespace Number

def isWhole : Number → Bool
  | fraction _ => false
  | _ => true

theorem word?_of_neg {i : Int64} (negative : i < 0) : (Numeral.ofInt i.toInt).word? = none := by
  have hneg : i.toInt < 0 := Int64.lt_iff_toInt_lt.1 negative
  generalize i.toInt = v at hneg
  cases v with
  | ofNat n => exact absurd hneg (by simp)
  | negSucc n => simp [Numeral.ofInt, Numeral.word?, Numeral.isInteger, Numeral.ofNat]

theorem ofNumeral?_of_word {n : Numeral} {w : UInt64} (h : n.word? = some w) :
    ofNumeral? n = some (.word w) := by
  unfold ofNumeral?
  split
  · next hword => rw [Option.some.inj (hword.symm.trans h)]
  · next hnone _ => cases hnone.symm.trans h
  · next hnone _ => cases hnone.symm.trans h

theorem ofNumeral?_of_int64 {n : Numeral} {i : Int64} (noWord : n.word? = none)
    (h : n.int64? = some i) :
    ofNumeral? n = some (.below i (Numeral.neg_of_int64? noWord h)) := by
  unfold ofNumeral?
  split
  · next hword => cases hword.symm.trans noWord
  · next hint =>
    cases hint.symm.trans h
    rfl
  · next hnone => cases hnone.symm.trans h

variable {n : Number}

theorem ofNumeral?_toNumeral (whole : n.isWhole = true) : ofNumeral? n.toNumeral = some n := by
  cases n with
  | fraction => cases whole
  | word w => exact ofNumeral?_of_word (Numeral.word?_ofNat w)
  | below i negative =>
      exact ofNumeral?_of_int64 (word?_of_neg negative) (Numeral.int64?_ofInt i)

theorem printable_toNumeral (whole : n.isWhole = true) : n.toNumeral.Printable := by
  cases n with
  | fraction => cases whole
  | word w => exact Numeral.printable_ofNat w.toNat
  | below i => exact Numeral.printable_ofInt i.toInt

end Number

namespace Value

mutual

/-- Whether no number in a value has a fraction. -/
def isWhole : Value → Bool
  | .number n => n.isWhole
  | .array items => itemsWhole items
  | .object members => membersWhole members
  | _ => true

def itemsWhole : List Value → Bool
  | [] => true
  | v :: rest => v.isWhole && itemsWhole rest

def membersWhole : List (String × Value) → Bool
  | [] => true
  | (_, v) :: rest => v.isWhole && membersWhole rest

end

/-! ## Reading back -/

/-- A name in front of all others is put in front of them. -/
theorem place_of_ascending {name : String} {v : Value} {rest : List (String × Value)}
    (front : ∀ e ∈ rest, compare name e.1 = .lt) :
    Table.lookup name rest = none ∧ Table.place name v rest = (name, v) :: rest := by
  constructor
  · refine Table.lookup_eq_none_of_forall_ne fun e he heq => ?_
    have hlt := front e he
    simp [heq] at hlt
  · cases rest with
    | nil => rfl
    | cons e rest =>
        obtain ⟨name', v'⟩ := e
        have hlt : compare name name' = .lt := front (name', v') List.mem_cons_self
        rw [Table.place, hlt]

mutual

theorem ofJson?_toJson (v : Value) (ordered : v.isOrdered = true) (whole : v.isWhole = true) :
    ofJson? v.toJson = some v := by
  cases v with
  | null => rfl
  | bool b => rfl
  | number n =>
      show (Number.ofNumeral? n.toNumeral).map number = some (number n)
      rw [Number.ofNumeral?_toNumeral whole]
      rfl
  | text s =>
      show (Glyph.decode (Glyph.encode s.toList)).map _ = _
      rw [Glyph.decode_encode, Option.map_some, String.ofList_toList]
  | array items =>
      show (ofItems? (toItems items)).map array = some (array items)
      rw [ofItems?_toItems items ordered whole]
      rfl
  | object members =>
      obtain ⟨hascending, hordered⟩ :
          isAscending members = true ∧ membersOrdered members = true := by
        simpa [isOrdered] using ordered
      show (ofMembers? (toMembers members)).map object = some (object members)
      rw [ofMembers?_toMembers members hascending hordered whole]
      rfl

theorem ofItems?_toItems (items : List Value) (ordered : itemsOrdered items = true)
    (whole : itemsWhole items = true) : ofItems? (toItems items) = some items := by
  cases items with
  | nil => rfl
  | cons v rest =>
      simp only [itemsOrdered, itemsWhole, Bool.and_eq_true] at ordered whole
      simp [toItems, ofItems?, ofJson?_toJson v ordered.1 whole.1,
        ofItems?_toItems rest ordered.2 whole.2]

theorem ofMembers?_toMembers (members : List (String × Value))
    (ascending : isAscending members = true) (ordered : membersOrdered members = true)
    (whole : membersWhole members = true) : ofMembers? (toMembers members) = some members := by
  cases members with
  | nil => rfl
  | cons e rest =>
      obtain ⟨name, v⟩ := e
      simp only [isAscending, membersOrdered, membersWhole, Bool.and_eq_true, List.all_eq_true,
        beq_iff_eq] at ascending ordered whole
      obtain ⟨hlookup, hplace⟩ := place_of_ascending (v := v) ascending.1
      simp [toMembers, ofMembers?, Glyph.decode_encode, ofJson?_toJson v ordered.1 whole.1,
        ofMembers?_toMembers rest ascending.2 ordered.2 whole.2, hlookup, hplace]

end

mutual

theorem printable_toJson (v : Value) (whole : v.isWhole = true) : v.toJson.Printable := by
  cases v with
  | null | bool => trivial
  | number n => exact Number.printable_toNumeral whole
  | text s => exact printable_text s
  | array items => exact printableItems_toItems items whole
  | object members => exact printableMembers_toMembers members whole

theorem printableItems_toItems (items : List Value) (whole : itemsWhole items = true) :
    PrintableItems (toItems items) := by
  cases items with
  | nil => trivial
  | cons v rest =>
      simp only [itemsWhole, Bool.and_eq_true] at whole
      exact ⟨printable_toJson v whole.1, printableItems_toItems rest whole.2⟩

theorem printableMembers_toMembers (members : List (String × Value))
    (whole : membersWhole members = true) : PrintableMembers (toMembers members) := by
  cases members with
  | nil => trivial
  | cons e rest =>
      obtain ⟨name, v⟩ := e
      simp only [membersWhole, Bool.and_eq_true] at whole
      exact ⟨Glyph.printable_encode name.toList, printable_toJson v whole.1,
        printableMembers_toMembers rest whole.2⟩

end

/-! ## Depth -/

theorem depth_place (name : String) (v : Value) (l : List (String × Value)) :
    depthMembers (toMembers (Table.place name v l)) ≤
      max v.toJson.depth (depthMembers (toMembers l)) := by
  induction l with
  | nil => simp [Table.place, toMembers, depthMembers]
  | cons e l ih =>
      obtain ⟨name', v'⟩ := e
      unfold Table.place
      split <;> simp only [toMembers, depthMembers] <;> omega

mutual

theorem depth_of_ofJson? (j : Json) {v : Value} (h : ofJson? j = some v) :
    v.toJson.depth ≤ j.depth := by
  cases j with
  | null | bool =>
      cases h
      exact Nat.zero_le _
  | number | string =>
      obtain ⟨_, _, rfl⟩ := Option.map_eq_some_iff.1 h
      exact Nat.zero_le _
  | array items =>
      obtain ⟨vs, hvs, rfl⟩ := Option.map_eq_some_iff.1 h
      exact Nat.succ_le_succ (depth_of_ofItems? items hvs)
  | object members =>
      obtain ⟨vs, hvs, rfl⟩ := Option.map_eq_some_iff.1 h
      exact Nat.succ_le_succ (depth_of_ofMembers? members hvs)

theorem depth_of_ofItems? (items : List Json) {vs : List Value} (h : ofItems? items = some vs) :
    depthItems (toItems vs) ≤ depthItems items := by
  cases items with
  | nil =>
      cases h
      exact Nat.le_refl _
  | cons j rest =>
      simp only [ofItems?, Option.bind_eq_bind, Option.bind_eq_some_iff] at h
      obtain ⟨v, hv, later, hlater, h⟩ := h
      cases h
      have hhead := depth_of_ofJson? j hv
      have htail := depth_of_ofItems? rest hlater
      simp only [toItems, depthItems]
      omega

theorem depth_of_ofMembers? (members : List (List Glyph × Json)) {vs : List (String × Value)}
    (h : ofMembers? members = some vs) : depthMembers (toMembers vs) ≤ depthMembers members := by
  cases members with
  | nil =>
      cases h
      exact Nat.le_refl _
  | cons m rest =>
      obtain ⟨t, j⟩ := m
      simp only [ofMembers?, Option.bind_eq_bind, Option.bind_eq_some_iff] at h
      obtain ⟨name, -, v, hv, later, hlater, h⟩ := h
      cases h
      have hhead := depth_of_ofJson? j hv
      have htail := depth_of_ofMembers? rest hlater
      have hplace := depth_place (.ofList name) v later
      simp only [depthMembers]
      split <;> omega

end

theorem eq_null_of_ofJson? {j : Json} (h : ofJson? j = some .null) : j = .null := by
  cases j with
  | null => rfl
  | bool => cases h
  | number | string | array | object =>
      obtain ⟨_, _, hv⟩ := Option.map_eq_some_iff.1 h
      cases hv

theorem eq_null_of_toJson {v : Value} (h : v.toJson = .null) : v = .null := by
  cases v <;> first | rfl | cases h

end Value

namespace Document

def isWhole (d : Document) : Bool := d.value.isWhole

variable {d : Document}

theorem ofJson?_eq_some_iff {j : Json} : ofJson? j = some d ↔ Value.ofJson? j = some d.value := by
  unfold ofJson?
  split
  · next v hv =>
    constructor
    · rintro ⟨⟩
      exact hv
    · intro h
      cases d
      cases hv.symm.trans h
      rfl
  · next hnone => simp [hnone]

theorem ofJson?_toJson (whole : d.isWhole = true) : ofJson? d.toJson = some d :=
  ofJson?_eq_some_iff.2 (Value.ofJson?_toJson d.value d.ordered whole)

theorem toJson_ne_null (h : d.value ≠ .null) : d.toJson ≠ .null := fun heq =>
  h (Value.eq_null_of_toJson heq)

end Document

end LiveChat.Json
