import LiveChat.Json.Basic

/-!
# Reading records out of JSON

A record is written as an object, in any order of its members and among others that are skipped,
or as the array of its fields in their fixed order, of which the last may be left out. A member
that is read may be given once only, and the order of the members is never looked at.
-/

namespace LiveChat.Json

abbrev Fields := List (String × Json)

def text? : Json → Option String
  | .string t => (Glyph.decode t).map .ofList
  | _ => none

def word? : Json → Option UInt64
  | .number n => n.word?
  | _ => none

def int64? : Json → Option Int64
  | .number n => n.int64?
  | _ => none

def optional? (read : Json → Option α) : Json → Option (Option α)
  | .null => some none
  | j => (read j).map some

def list? (read : Json → Option α) : Json → Option (List α)
  | .array items => items.mapM read
  | _ => none

/-- The members of an object; none when one of their names cannot be decoded. -/
def fields? : Json → Option Fields
  | .object members => members.mapM fun (name, j) => do some (.ofList (← Glyph.decode name), j)
  | _ => none

def recordFields? (names : List String) : Json → Option Fields
  | .array items => if items.length ≤ names.length then some (names.zip items) else none
  | j => j.fields?

/-- A name standing for a value without content; one written as an object has a null member. -/
def variant? : Json → Option String
  | .object [(name, .null)] => (Glyph.decode name).map .ofList
  | j => j.text?

/-- A variant inside a payload that was set aside may also have an empty object as its content. -/
def asideVariant? : Json → Option String
  | .object [(name, .object [])] => (Glyph.decode name).map .ofList
  | j => j.variant?

namespace Fields

/-- The field of this name, or its absence; a repeated field is an error. -/
def find? (fs : Fields) (name : String) : Option (Option Json) :=
  match fs.filter (·.1 = name) with
  | [] => some none
  | [(_, j)] => some (some j)
  | _ => none

def required (fs : Fields) (name : String) (read : Json → Option α) : Option α := do
  read (← ← fs.find? name)

def optional (fs : Fields) (name : String) (read : Json → Option α) : Option (Option α) := do
  match ← fs.find? name with
  | none => some none
  | some j => optional? read j

/-- A field that may be absent but not null. -/
def defaulted (fs : Fields) (name : String) (default : α) (read : Json → Option α) :
    Option α := do
  match ← fs.find? name with
  | none => some default
  | some j => read j

end Fields

end LiveChat.Json
