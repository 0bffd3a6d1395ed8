/-!
# Characters of a JSON string as written

A JSON string is kept as it is written, glyph by glyph, because its decoding can fail: a `\u`
escape may hold one half of a surrogate pair. Writing a text and decoding it gives the text back.
-/

namespace LiveChat.Json

/-- The escapes of one letter. -/
inductive Escape where
  | quote | backslash | slash | backspace | formFeed | lineFeed | carriageReturn | tab
  deriving DecidableEq, Repr

namespace Escape

def letter : Escape → Char
  | quote => '"' | backslash => '\\' | slash => '/' | backspace => 'b' | formFeed => 'f'
  | lineFeed => 'n' | carriageReturn => 'r' | tab => 't'

def meaning : Escape → Char
  | quote => '"' | backslash => '\\' | slash => '/' | backspace => '\x08' | formFeed => '\x0c'
  | lineFeed => '\n' | carriageReturn => '\r' | tab => '\t'

def ofLetter? : Char → Option Escape
  | '"' => some quote | '\\' => some backslash | '/' => some slash | 'b' => some backspace
  | 'f' => some formFeed | 'n' => some lineFeed | 'r' => some carriageReturn | 't' => some tab
  | _ => none

@[simp] theorem ofLetter?_letter (e : Escape) : ofLetter? e.letter = some e := by
  cases e <;> rfl

end Escape

inductive Glyph where
  | plain (c : Char)
  | escape (e : Escape)
  | unit (u : UInt16)
  deriving DecidableEq, Repr

namespace Glyph

/-- How a character is written: quotes, backslashes and control characters are escaped. -/
def ofChar (c : Char) : Glyph :=
  if c = '"' then .escape .quote
  else if c = '\\' then .escape .backslash
  else if c = '\x08' then .escape .backspace
  else if c = '\x0c' then .escape .formFeed
  else if c = '\n' then .escape .lineFeed
  else if c = '\r' then .escape .carriageReturn
  else if c = '\t' then .escape .tab
  else if c.toNat < 0x20 then .unit c.toNat.toUInt16
  else .plain c

def encode (cs : List Char) : List Glyph := cs.map ofChar

def isLead (u : UInt16) : Bool := 0xD800 ≤ u && u ≤ 0xDBFF

def isTrail (u : UInt16) : Bool := 0xDC00 ≤ u && u ≤ 0xDFFF

def ofPair (hi lo : UInt16) : Char :=
  Char.ofNat (0x10000 + (hi.toNat - 0xD800) * 0x400 + (lo.toNat - 0xDC00))

/-- The text that the glyphs spell; there is none when half a surrogate pair stands alone. -/
def decode : List Glyph → Option (List Char)
  | [] => some []
  | .plain c :: rest => (decode rest).map (c :: ·)
  | .escape e :: rest => (decode rest).map (e.meaning :: ·)
  | .unit u :: .unit v :: rest =>
    if isLead u then
      if isTrail v then (decode rest).map (ofPair u v :: ·) else none
    else if isTrail u then none
    else (decode (.unit v :: rest)).map (Char.ofNat u.toNat :: ·)
  | .unit u :: rest =>
    if isLead u || isTrail u then none
    else (decode rest).map (Char.ofNat u.toNat :: ·)

theorem decode_ofChar_cons (c : Char) (gs : List Glyph) :
    decode (ofChar c :: gs) = (decode gs).map (c :: ·) := by
  unfold ofChar
  repeat' split
  all_goals try (subst_vars; rfl)
  · next h =>
    have hu : c.toNat.toUInt16.toNat = c.toNat := by
      simp [Nat.toUInt16, UInt16.toNat_ofNat']; omega
    have hl : isLead c.toNat.toUInt16 = false := by
      simp [isLead, UInt16.le_iff_toNat_le, hu]; omega
    have ht : isTrail c.toNat.toUInt16 = false := by
      simp [isTrail, UInt16.le_iff_toNat_le, hu]; omega
    cases gs with
    | nil => simp [decode, hl, ht, hu]
    | cons g gs => cases g <;> simp [decode, hl, ht, hu]

@[simp] theorem decode_encode (cs : List Char) : decode (encode cs) = some cs := by
  induction cs with
  | nil => rfl
  | cons c cs ih =>
      have ih' : decode (cs.map ofChar) = some cs := ih
      simp [encode, decode_ofChar_cons, ih']

def hexDigits (u : UInt16) : List Char :=
  let n := u.toNat
  [Nat.digitChar (n / 4096), Nat.digitChar (n / 256 % 16), Nat.digitChar (n / 16 % 16),
    Nat.digitChar (n % 16)]

def print : Glyph → List Char
  | .plain c => [c]
  | .escape e => ['\\', e.letter]
  | .unit u => '\\' :: 'u' :: hexDigits u

def printAll (gs : List Glyph) : List Char := '"' :: gs.flatMap print ++ ['"']

def hexValue? (c : Char) : Option Nat :=
  if '0' ≤ c ∧ c ≤ '9' then some (c.toNat - '0'.toNat)
  else if 'a' ≤ c ∧ c ≤ 'f' then some (c.toNat - 'a'.toNat + 10)
  else if 'A' ≤ c ∧ c ≤ 'F' then some (c.toNat - 'A'.toNat + 10)
  else none

def hexUnit? (a b c d : Char) : Option UInt16 := do
  let a ← hexValue? a
  let b ← hexValue? b
  let c ← hexValue? c
  let d ← hexValue? d
  some (UInt16.ofNat (a * 4096 + b * 256 + c * 16 + d))

/-- Reads glyphs up to the closing quote; control characters have to be escaped. -/
def read : List Char → Option (List Glyph × List Char)
  | [] => none
  | '"' :: rest => some ([], rest)
  | '\\' :: 'u' :: a :: b :: c :: d :: rest => do
    let u ← hexUnit? a b c d
    let (gs, rest) ← read rest
    some (.unit u :: gs, rest)
  | '\\' :: c :: rest => do
    let e ← Escape.ofLetter? c
    let (gs, rest) ← read rest
    some (.escape e :: gs, rest)
  | c :: rest =>
    if c.toNat < 0x20 || c = '\\' then none
    else do
      let (gs, rest) ← read rest
      some (.plain c :: gs, rest)

end Glyph

end LiveChat.Json
