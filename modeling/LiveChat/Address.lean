import LiveChat.Json.Reader
import LiveChat.Text.Blank

/-!
# Rooms and channel addresses

A client has one channel for presence and notices, and one for each chat room. Addresses are
ordered with the global one first and rooms by workspace, then by number.
-/

namespace LiveChat

structure Room where
  workspace : UInt64
  number : UInt64
  deriving DecidableEq, Repr, Inhabited

namespace Room

instance : Ord Room where
  compare a b := (compare a.workspace b.workspace).then (compare a.number b.number)

theorem compare_def (a b : Room) :
    compare a b = (compare a.workspace b.workspace).then (compare a.number b.number) := rfl

instance : Std.LawfulEqOrd Room where
  compare_self := by simp [compare_def]
  eq_of_compare := by
    intro a b h
    rw [compare_def, Ordering.then_eq_eq] at h
    cases a; cases b
    simp_all

instance : Std.TransOrd Room where
  eq_swap := by
    intro a b
    rw [compare_def, compare_def, Ordering.swap_then,
      ← Std.OrientedCmp.eq_swap, ← Std.OrientedCmp.eq_swap]
  isLE_trans := by
    intro a b c hab hbc
    rw [compare_def, Ordering.isLE_then_iff_or] at *
    rcases hab with hab | ⟨hab, hab'⟩ <;> rcases hbc with hbc | ⟨hbc, hbc'⟩
    · exact .inl (Std.TransCmp.lt_trans hab hbc)
    · rw [Std.compare_eq_iff_eq] at hbc; exact .inl (hbc ▸ hab)
    · rw [Std.compare_eq_iff_eq] at hab; exact .inl (hab ▸ hbc)
    · rw [Std.compare_eq_iff_eq] at hab hbc
      exact .inr ⟨by simp [hab, hbc], Std.TransCmp.isLE_trans hab' hbc'⟩

/-- A room as people write it: workspace and number with a slash between. -/
def text (r : Room) : String := toString r.workspace ++ "/" ++ toString r.number

def toJson (r : Room) : Json :=
  .record [("workspace_id", .word r.workspace), ("room_id", .word r.number)]

def ofJson? (j : Json) : Option Room := do
  let fs ← j.recordFields? ["workspace_id", "room_id"]
  some ⟨← fs.required "workspace_id" Json.word?, ← fs.required "room_id" Json.word?⟩

/-- What is wrong with a room as typed. -/
inductive ReadError where
  | noSlash
  | workspace (value : String)
  | number (value : String)
  deriving DecidableEq, Repr

def ReadError.message : ReadError → String
  | noSlash => "expected workspace/room"
  | workspace value => "invalid workspace id: " ++ value
  | number value => "invalid room id: " ++ value

/-- Reads a room as typed, with the workspace in front of the first slash. -/
def read (s : String) : Except ReadError Room :=
  match Text.splitOnce '/' s.toList with
  | none => .error .noSlash
  | some (w, n) =>
    match Text.readWord w, Text.readWord n with
    | none, _ => .error (.workspace (.ofList w))
    | some _, none => .error (.number (.ofList n))
    | some w, some n => .ok ⟨w, n⟩

end Room

inductive Address where
  | global
  | room (r : Room)
  deriving DecidableEq, Repr, Inhabited

namespace Address

instance : Ord Address where
  compare
    | global, global => .eq
    | global, room _ => .lt
    | room _, global => .gt
    | room a, room b => compare a b

@[simp] theorem compare_room (a b : Room) : compare (room a) (room b) = compare a b := rfl

instance : Std.LawfulEqOrd Address where
  compare_self := by
    intro a
    cases a
    · rfl
    · simp
  eq_of_compare := by
    intro a b h
    cases a <;> cases b
    · rfl
    · cases h
    · cases h
    · exact congrArg room (Std.LawfulEqOrd.eq_of_compare h)

instance : Std.TransOrd Address where
  eq_swap := by
    intro a b
    cases a <;> cases b <;> try rfl
    exact @Std.OrientedCmp.eq_swap Room compare _ _ _
  isLE_trans := by
    intro a b c hab hbc
    cases a <;> cases b <;> cases c <;> first | rfl | cases hab | cases hbc | skip
    exact @Std.TransCmp.isLE_trans Room compare _ _ _ _ hab hbc

def room? : Address → Option Room
  | global => none
  | room r => some r

def text : Address → String
  | global => "global"
  | room r => "room:" ++ r.text

/-- Where the channel lives under a server's base address. -/
def path : Address → String
  | global => "/ws/global"
  | room r => "/ws/workspaces/" ++ toString r.workspace ++ "/rooms/" ++ toString r.number

/-- The full address of the channel; slashes at the end of the base do not count. -/
def url (base : String) (a : Address) : String :=
  .ofList (Text.dropEndWhile (· = '/') base.toList) ++ a.path

def toJson : Address → Json
  | global => .text "Global"
  | room r => .record [("Room", r.toJson)]

def ofJson? (j : Json) : Option Address :=
  match j with
  | .object [(name, content)] => do
    let name : String := .ofList (← Json.Glyph.decode name)
    if name = "Room" then some (.room (← Room.ofJson? content))
    else if j.variant? = some "Global" then some .global
    else none
  | _ => if j.variant? = some "Global" then some .global else none

end Address

end LiveChat
