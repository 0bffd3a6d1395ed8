import LiveChat.Json.Glyph
import LiveChat.Json.Numeral

/-!
# JSON texts

The syntax of a JSON text: members in the order written and with repeated names kept, strings and
numbers as written. Printing puts no space between tokens.
-/

namespace LiveChat

inductive Json where
  | null
  | bool (b : Bool)
  | number (n : Json.Numeral)
  | string (t : List Json.Glyph)
  | array (items : List Json)
  | object (members : List (List Json.Glyph × Json))
  deriving Inhabited, Repr

namespace Json

def text (s : String) : Json := .string (Glyph.encode s.toList)

def word (w : UInt64) : Json := .number (.ofNat w.toNat)

def nat (n : Nat) : Json := .number (.ofNat n)

def int64 (i : Int64) : Json := .number (.ofInt i.toInt)

def nullable (f : α → Json) : Option α → Json
  | none => .null
  | some a => f a

def record (fields : List (String × Json)) : Json :=
  .object (fields.map fun (name, value) => (Glyph.encode name.toList, value))

mutual

/-- The number of arrays and objects around the innermost value. -/
def depth : Json → Nat
  | .array items => depthItems items + 1
  | .object members => depthMembers members + 1
  | _ => 0

def depthItems : List Json → Nat
  | [] => 0
  | j :: rest => max j.depth (depthItems rest)

def depthMembers : List (List Glyph × Json) → Nat
  | [] => 0
  | (_, j) :: rest => max j.depth (depthMembers rest)

end

mutual

def print : Json → List Char
  | .null => ['n', 'u', 'l', 'l']
  | .bool true => ['t', 'r', 'u', 'e']
  | .bool false => ['f', 'a', 'l', 's', 'e']
  | .number n => n.print
  | .string t => Glyph.printAll t
  | .array [] => ['[', ']']
  | .array (j :: rest) => '[' :: j.print ++ printItems rest
  | .object [] => ['\x7b', '\x7d']
  | .object ((t, j) :: rest) => '\x7b' :: Glyph.printAll t ++ ':' :: j.print ++ printMembers rest

/-- The items after the first one, and the closing bracket. -/
def printItems : List Json → List Char
  | [] => [']']
  | j :: rest => ',' :: j.print ++ printItems rest

/-- The members after the first one, and the closing brace. -/
def printMembers : List (List Glyph × Json) → List Char
  | [] => ['\x7d']
  | (t, j) :: rest => ',' :: Glyph.printAll t ++ ':' :: j.print ++ printMembers rest

end

def render (j : Json) : String := .ofList j.print

end Json

end LiveChat
