import LiveChat.Json.Binary64
import LiveChat.Json.Basic
import LiveChat.Table

/-!
# JSON documents

A document is a JSON value by its meaning: strings are decoded, an integer that fits a word is
one, and the members of an object are in ascending order of their names, of which the last given
counts. Writing a document and reading it gives the document back unless it holds a number with a
fraction.
-/

namespace LiveChat.Json

inductive Number where
  | word (w : UInt64)
  | below (i : Int64) (negative : i < 0)
  | fraction (x : Binary64)
  deriving DecidableEq, Repr

namespace Number

def ofNumeral? (n : Numeral) : Option Number :=
  match noWord : n.word?, integer : n.int64? with
  | some w, _ => some (.word w)
  | none, some i => some (.below i (Numeral.neg_of_int64? noWord integer))
  | none, none => (Binary64.ofNumeral? n).map .fraction

def toNumeral : Number → Numeral
  | word w => .ofNat w.toNat
  | below i _ => .ofInt i.toInt
  | fraction x => x.toNumeral

end Number

inductive Value where
  | null
  | bool (b : Bool)
  | number (n : Number)
  | text (s : String)
  | array (items : List Value)
  | object (members : List (String × Value))
  deriving Inhabited, Repr

namespace Value

mutual

def toJson : Value → Json
  | .null => .null
  | .bool b => .bool b
  | .number n => .number n.toNumeral
  | .text s => .text s
  | .array items => .array (toItems items)
  | .object members => .object (toMembers members)

def toItems : List Value → List Json
  | [] => []
  | v :: rest => v.toJson :: toItems rest

def toMembers : List (String × Value) → List (List Glyph × Json)
  | [] => []
  | (name, v) :: rest => (Glyph.encode name.toList, v.toJson) :: toMembers rest

end

mutual

/-- The value of a text; none when a string or a number in it has none. -/
def ofJson? : Json → Option Value
  | .null => some .null
  | .bool b => some (.bool b)
  | .number n => (Number.ofNumeral? n).map .number
  | .string t => (Glyph.decode t).map fun s => .text (.ofList s)
  | .array items => (ofItems? items).map .array
  | .object members => (ofMembers? members).map .object

def ofItems? : List Json → Option (List Value)
  | [] => some []
  | j :: rest => do
    let v ← ofJson? j
    let vs ← ofItems? rest
    some (v :: vs)

/-- Members in order; a name that comes again later is left to the later one. -/
def ofMembers? : List (List Glyph × Json) → Option (List (String × Value))
  | [] => some []
  | (t, j) :: rest => do
    let name : String := .ofList (← Glyph.decode t)
    let v ← ofJson? j
    let later ← ofMembers? rest
    some (if (Table.lookup name later).isSome then later else Table.place name v later)

end

def isAscending : List (String × Value) → Bool
  | [] => true
  | (name, _) :: rest => rest.all (fun e => compare name e.1 == .lt) && isAscending rest

mutual

/-- Whether the members of every object are in strictly ascending order of their names. -/
def isOrdered : Value → Bool
  | .array items => itemsOrdered items
  | .object members => isAscending members && membersOrdered members
  | _ => true

def itemsOrdered : List Value → Bool
  | [] => true
  | v :: rest => v.isOrdered && itemsOrdered rest

def membersOrdered : List (String × Value) → Bool
  | [] => true
  | (_, v) :: rest => v.isOrdered && membersOrdered rest

end

theorem isAscending_iff {l : List (String × Value)} :
    isAscending l = true ↔ l.Pairwise fun a b => compare a.1 b.1 = .lt := by
  induction l with
  | nil => simp [isAscending]
  | cons e l ih => simp [isAscending, ih]

theorem membersOrdered_iff {l : List (String × Value)} :
    membersOrdered l = true ↔ ∀ e ∈ l, e.2.isOrdered = true := by
  induction l with
  | nil => simp [membersOrdered]
  | cons e l ih => simp [membersOrdered, ih]

theorem mem_place_value {name : String} {v : Value} {l : List (String × Value)}
    {e : String × Value} (h : e ∈ Table.place name v l) : e.2 = v ∨ e ∈ l := by
  induction l with
  | nil => simp_all [Table.place]
  | cons d l ih =>
      unfold Table.place at h
      split at h <;> grind

mutual

theorem isOrdered_ofJson {j : Json} {v : Value} (h : ofJson? j = some v) :
    v.isOrdered = true := by
  cases j with
  | null => cases h; rfl
  | bool b => cases h; rfl
  | number n =>
      obtain ⟨_, _, rfl⟩ := Option.map_eq_some_iff.1 h
      rfl
  | string t =>
      obtain ⟨_, _, rfl⟩ := Option.map_eq_some_iff.1 h
      rfl
  | array items =>
      obtain ⟨vs, hv, rfl⟩ := Option.map_eq_some_iff.1 h
      exact itemsOrdered_ofItems hv
  | object members =>
      obtain ⟨vs, hv, rfl⟩ := Option.map_eq_some_iff.1 h
      have := membersOrdered_ofMembers hv
      simp [isOrdered, isAscending_iff.2 this.1, membersOrdered_iff.2 this.2]

theorem itemsOrdered_ofItems {items : List Json} {vs : List Value}
    (h : ofItems? items = some vs) : itemsOrdered vs = true := by
  cases items with
  | nil => cases h; rfl
  | cons j rest =>
      simp only [ofItems?, Option.bind_eq_bind, Option.bind_eq_some_iff] at h
      obtain ⟨v, hv, ws, hw, h⟩ := h
      cases h
      simp [itemsOrdered, isOrdered_ofJson hv, itemsOrdered_ofItems hw]

theorem membersOrdered_ofMembers {members : List (List Glyph × Json)}
    {vs : List (String × Value)} (h : ofMembers? members = some vs) :
    (vs.Pairwise fun a b => compare a.1 b.1 = .lt) ∧ ∀ e ∈ vs, e.2.isOrdered = true := by
  cases members with
  | nil => cases h; exact ⟨.nil, by simp⟩
  | cons m rest =>
      obtain ⟨t, j⟩ := m
      simp only [ofMembers?, Option.bind_eq_bind, Option.bind_eq_some_iff] at h
      obtain ⟨name, _, v, hv, ws, hw, h⟩ := h
      obtain ⟨hp, ho⟩ := membersOrdered_ofMembers hw
      cases h
      split
      · exact ⟨hp, ho⟩
      · refine ⟨Table.pairwise_place _ _ hp, fun e he => ?_⟩
        rcases mem_place_value he with he | he
        · rw [he]; exact isOrdered_ofJson hv
        · exact ho e he

end

mutual

def beq : Value → Value → Bool
  | .null, .null => true
  | .bool a, .bool b => a == b
  | .number a, .number b => a == b
  | .text a, .text b => a == b
  | .array a, .array b => beqItems a b
  | .object a, .object b => beqMembers a b
  | _, _ => false

def beqItems : List Value → List Value → Bool
  | [], [] => true
  | v :: vs, w :: ws => beq v w && beqItems vs ws
  | _, _ => false

def beqMembers : List (String × Value) → List (String × Value) → Bool
  | [], [] => true
  | (n, v) :: vs, (m, w) :: ws => n == m && beq v w && beqMembers vs ws
  | _, _ => false

end

mutual

theorem beq_iff : ∀ a b : Value, beq a b = true ↔ a = b
  | .null, b => by cases b <;> simp [beq]
  | .bool _, b => by cases b <;> simp [beq]
  | .number _, b => by cases b <;> simp [beq]
  | .text _, b => by cases b <;> simp [beq]
  | .array a, b => by cases b <;> simp [beq, beqItems_iff a]
  | .object a, b => by cases b <;> simp [beq, beqMembers_iff a]

theorem beqItems_iff : ∀ a b : List Value, beqItems a b = true ↔ a = b
  | [], b => by cases b <;> simp [beqItems]
  | v :: vs, b => by cases b <;> simp [beqItems, beq_iff v, beqItems_iff vs]

theorem beqMembers_iff : ∀ a b : List (String × Value), beqMembers a b = true ↔ a = b
  | [], b => by cases b <;> simp [beqMembers]
  | (n, v) :: vs, b => by
    cases b with
    | nil => simp [beqMembers]
    | cons e ws => obtain ⟨m, w⟩ := e; simp [beqMembers, beq_iff v, beqMembers_iff vs]

end

instance : DecidableEq Value := fun a b => decidable_of_iff _ (beq_iff a b)

end Value

structure Document where
  value : Value
  ordered : value.isOrdered = true
  deriving DecidableEq

namespace Document

instance : Repr Document := ⟨fun d p => reprPrec d.value p⟩

def ofJson? (j : Json) : Option Document :=
  match h : Value.ofJson? j with
  | some v => some ⟨v, Value.isOrdered_ofJson h⟩
  | none => none

def toJson (d : Document) : Json := d.value.toJson

end Document

end LiveChat.Json
