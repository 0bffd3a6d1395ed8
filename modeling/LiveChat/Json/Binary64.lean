import LiveChat.Json.Numeral
import LiveChat.Text.Blank

/-!
# Numbers with a fraction

A JSON number that is not an integer is held as a binary64 value. Reading takes at most 64 bits of
the digits and scales them by a power of ten in two roundings; writing gives the fewest digits
that round to the value, the nearest of those, in positional notation from `10 ^ -5` up to
`10 ^ 16` and with an exponent elsewhere.
-/

namespace LiveChat.Json

/-- The value `significand * 2 ^ exponent`, negated if `negative`. -/
structure Binary64 where
  negative : Bool
  significand : Nat
  exponent : Int
  deriving DecidableEq, Repr

namespace Binary64

def minExponent : Int := -1074

def maxExponent : Int := 971

def pow2 (e : Int) : Nat := Nat.pow 2 e.toNat

def pow10 (e : Int) : Nat := Nat.pow 10 e.toNat

/-- The quotient rounded to the nearest integer, a half to the even one. -/
def roundDiv (num den : Nat) : Nat :=
  let q := num / den
  let twice := 2 * (num % den)
  if twice < den then q
  else if den < twice then q + 1
  else q + q % 2

def ofQuotient (num den : Nat) : Option (Nat × Int) :=
  if num = 0 then some (0, minExponent)
  else
    let low : Int := (num.log2 : Int) - den.log2 - 53
    let low := if num * pow2 (-low) < den * pow2 low * pow2 53 then low else low + 1
    let e := max low minExponent
    let m := roundDiv (num * pow2 (-e)) (den * pow2 e)
    let (m, e) := if m = pow2 53 then (pow2 52, e + 1) else (m, e)
    if e ≤ maxExponent then some (m, e) else none

def stepLimit : Int := 308

def tenPower (k : Nat) : Nat × Int := (ofQuotient (pow10 k) 1).getD (0, minExponent)

def times (a b : Nat × Int) : Option (Nat × Int) :=
  let e := a.2 + b.2
  ofQuotient (a.1 * b.1 * pow2 e) (pow2 (-e))

def dividedBy (a b : Nat × Int) : Option (Nat × Int) :=
  let e := a.2 - b.2
  ofQuotient (a.1 * pow2 e) (b.1 * pow2 (-e))

/-- Scales by a power of ten, downward in steps; a few of them make any value zero. -/
def scaleTen : Nat → Nat × Int → Int → Option (Nat × Int)
  | 0, _, _ => some (0, minExponent)
  | steps + 1, f, k =>
    if f.1 = 0 then some f
    else if stepLimit < k then none
    else if 0 ≤ k then times f (tenPower k.toNat)
    else if -stepLimit ≤ k then dividedBy f (tenPower (-k).toNat)
    else do scaleTen steps (← dividedBy f (tenPower stepLimit.toNat)) (k + stepLimit)

/-- As many digits as a word holds, and how many are left. -/
def takeWhole (s : Nat) : List Char → Nat × Nat
  | [] => (s, 0)
  | c :: cs =>
    let t := s * 10 + (c.toNat - '0'.toNat)
    if t < UInt64.size then takeWhole t cs else (s, cs.length + 1)

def takeFraction (s : Nat) : List Char → Nat × Nat
  | [] => (s, 0)
  | c :: cs =>
    let t := s * 10 + (c.toNat - '0'.toNat)
    if t < UInt64.size then
      let (r, taken) := takeFraction t cs
      (r, taken + 1)
    else (s, 0)

/-- The value of a number; one that is too large has none. -/
def ofNumeral? (n : Numeral) : Option Binary64 := do
  let (s, dropped) := takeWhole 0 n.whole
  let (s, taken) := takeFraction s n.fraction
  let shift : Int := match n.exponent with
    | none => 0
    | some (true, ds) => -(Text.number ds : Int)
    | some (false, ds) => Text.number ds
  let (m, e) ← scaleTen 4 (← ofQuotient s 1) (shift + dropped - taken)
  some ⟨n.negative, m, e⟩

def compareScaled (a : Nat) (i : Int) (b : Nat) (j : Int) : Ordering :=
  compare (a * pow10 i * pow2 (-j)) (b * pow2 j * pow10 (-i))

/-- Whether `d * 10 ^ k` rounds to `m * 2 ^ e`. -/
def readsBack (m : Nat) (e : Int) (d : Nat) (k : Int) : Bool :=
  let lo := if m = pow2 52 ∧ minExponent < e then 4 * m - 1 else 4 * m - 2
  let above := compareScaled d k lo (e - 2)
  let below := compareScaled d k (4 * m + 2) (e - 2)
  let closed := m % 2 == 0
  (above == .gt || closed && above == .eq) && (below == .lt || closed && below == .eq)

def leading (num den : Nat) : Int :=
  if den ≤ num then (Text.digits (num / den)).length - 1
  else -((Text.digits ((den - 1) / num)).length : Int)

/-- On the grid of `10 ^ k`, the neighbour of the value that rounds to it, the nearer of two. -/
def onGrid (m : Nat) (e k : Int) : Option (Nat × Int) :=
  let low := m * pow2 e * pow10 (-k) / (pow2 (-e) * pow10 k)
  let high := low + 1
  match readsBack m e low k, readsBack m e high k with
  | true, true =>
    match compareScaled (low + high) k (2 * m) e with
    | .lt => some (high, k)
    | .gt => some (low, k)
    | .eq => some (if low % 2 = 0 then low else high, k)
  | true, false => some (low, k)
  | false, true => some (high, k)
  | false, false => none

/-- The fewest digits that round to the value, with their exponent; failing that, all digits. -/
def shortest (m : Nat) (e : Int) : Nat × Int :=
  let lead := leading (m * pow2 e) (pow2 (-e))
  ((List.range 17).findSome? fun (n : Nat) => onGrid m e (lead - n)).getD
    (if 0 ≤ e then (m * pow2 e, 0) else (m * Nat.pow 5 (-e).toNat, e))

def plainFrom : Int := -5

def plainBelow : Int := 16

def layout (negative : Bool) (ds : List Char) (lead : Int) : Numeral :=
  if lead < plainFrom ∨ plainBelow ≤ lead then
    ⟨negative, ds.take 1, ds.drop 1, some (decide (lead < 0), Text.digits lead.natAbs)⟩
  else if lead < 0 then
    ⟨negative, ['0'], List.replicate (lead.natAbs - 1) '0' ++ ds, none⟩
  else
    let whole := lead.toNat + 1
    let padded := ds ++ List.replicate (whole - ds.length) '0'
    let fraction := padded.drop whole
    ⟨negative, padded.take whole, if fraction.isEmpty then ['0'] else fraction, none⟩

def toNumeral (x : Binary64) : Numeral :=
  if x.significand = 0 then ⟨x.negative, ['0'], ['0'], none⟩
  else
    let (d, k) := shortest x.significand x.exponent
    let ds := Text.digits d
    layout x.negative (Text.dropEndWhile (· = '0') ds) (k + ds.length - 1)

end Binary64

end LiveChat.Json
