import LiveChat.Text.Decimal

/-!
# JSON numbers as written

A number is kept as its digits. Only a number without fraction and exponent stands for an
integer, and `-0` does not.
-/

namespace LiveChat.Json

structure Numeral where
  negative : Bool
  whole : List Char
  /-- The digits after the point, none when there is no point. -/
  fraction : List Char
  /-- Whether the exponent is negative, and its digits. -/
  exponent : Option (Bool × List Char)
  deriving DecidableEq, Repr

namespace Numeral

def ofNat (n : Nat) : Numeral := ⟨false, Text.digits n, [], none⟩

def ofInt : Int → Numeral
  | .ofNat n => ofNat n
  | .negSucc n => { ofNat (n + 1) with negative := true }

def isInteger (n : Numeral) : Bool := n.fraction.isEmpty && n.exponent.isNone

def word? (n : Numeral) : Option UInt64 :=
  if n.isInteger && !n.negative then Text.word? (Text.number n.whole) else none

def int64? (n : Numeral) : Option Int64 :=
  let v := Text.number n.whole
  if !n.isInteger then none
  else if !n.negative then Text.signedWord? v
  else if v = 0 then none
  else Text.signedWord? (-v)

@[simp] theorem word?_ofNat (w : UInt64) : (ofNat w.toNat).word? = some w := by
  simp [ofNat, word?, isInteger]

@[simp] theorem int64?_ofInt (i : Int64) : (ofInt i.toInt).int64? = some i := by
  have back := Text.signedWord?_toInt i
  generalize i.toInt = v at *
  cases v with
  | ofNat n => simpa [ofInt, ofNat, int64?, isInteger] using back
  | negSucc n => simpa [ofInt, ofNat, int64?, isInteger, Int.negSucc_eq] using back

/-- An integer that fits only a signed word is below zero. -/
theorem neg_of_int64? {n : Numeral} {i : Int64} (noWord : n.word? = none)
    (h : n.int64? = some i) : i < 0 := by
  unfold int64? at h
  unfold word? at noWord
  cases hinteger : n.isInteger with
  | false => simp [hinteger] at h
  | true =>
      rw [Int64.lt_iff_toInt_lt]
      show i.toInt < 0
      cases hnegative : n.negative with
      | false =>
          simp only [hinteger, hnegative, Bool.not_true, Bool.not_false, Bool.and_self,
            if_true, Bool.false_eq_true, if_false] at h noWord
          obtain ⟨-, hlt⟩ := Text.toInt_of_signedWord? h
          have hword : Text.number n.whole < UInt64.size := by
            rw [show UInt64.size = 18446744073709551616 from rfl]
            omega
          simp [Text.word?, hword] at noWord
      | true =>
          simp only [hinteger, hnegative, Bool.not_true, Bool.false_eq_true, if_false] at h
          split at h
          · cases h
          · obtain ⟨hvalue, -⟩ := Text.toInt_of_signedWord? h
            omega

def print (n : Numeral) : List Char :=
  (if n.negative then ['-'] else []) ++ n.whole ++
    (if n.fraction.isEmpty then [] else '.' :: n.fraction) ++
    match n.exponent with
    | none => []
    | some (down, ds) => 'e' :: (if down then '-' else '+') :: ds

/-- One digit or more. -/
def readDigits (cs : List Char) : Option (List Char × List Char) :=
  match cs.takeWhile Char.isDigit with
  | [] => none
  | ds => some (ds, cs.dropWhile Char.isDigit)

def readFraction : List Char → Option (List Char × List Char)
  | '.' :: rest => readDigits rest
  | rest => some ([], rest)

def readExponent : List Char → Option (Option (Bool × List Char) × List Char)
  | [] => some (none, [])
  | c :: rest =>
    if c = 'e' ∨ c = 'E' then do
      let (down, rest) := match rest with
        | '+' :: rest => (false, rest)
        | '-' :: rest => (true, rest)
        | _ => (false, rest)
      let (ds, rest) ← readDigits rest
      some (some (down, ds), rest)
    else some (none, c :: rest)

/-- Reads a number; a zero stands in front of the point only alone. -/
def read (cs : List Char) : Option (Numeral × List Char) := do
  let (negative, rest) := match cs with
    | '-' :: rest => (true, rest)
    | _ => (false, cs)
  let (whole, rest) ← readDigits rest
  if whole.head? = some '0' ∧ whole.length ≠ 1 then none
  else
    let (fraction, rest) ← readFraction rest
    let (exponent, rest) ← readExponent rest
    some (⟨negative, whole, fraction, exponent⟩, rest)

end Numeral

end LiveChat.Json
