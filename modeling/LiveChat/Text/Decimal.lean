/-!
# Decimal numbers

Writing a natural number in decimal, and reading a machine word back. A reader of typed text
accepts a leading `+` and leading zeros, so several texts name one word; writing gives one of
them.
-/

namespace LiveChat.Text

def digits (n : Nat) : List Char := Nat.toDigits 10 n

/-- The number that a run of digits stands for. -/
def number (cs : List Char) : Nat := Nat.ofDigitChars 10 cs 0

@[simp] theorem number_digits (n : Nat) : number (digits n) = n :=
  Nat.ofDigitChars_toDigits (by decide) (by decide)

theorem digits_ne_nil (n : Nat) : digits n ≠ [] := Nat.toDigits_ne_nil

theorem isDigit_of_mem_digits {n : Nat} {c : Char} (h : c ∈ digits n) : c.isDigit :=
  Nat.isDigit_of_mem_toDigits (by decide) (by decide) h

theorem digits_injective {m n : Nat} (h : digits m = digits n) : m = n := by
  rw [← number_digits m, h, number_digits]

/-- The word of this value, if it has one. -/
def word? (n : Nat) : Option UInt64 := if n < UInt64.size then some (.ofNat n) else none

@[simp] theorem word?_toNat (w : UInt64) : word? w.toNat = some w := by
  simp [word?, w.toNat_lt_size]

/-- The signed word of this value, if it has one. -/
def signedWord? (v : Int) : Option Int64 :=
  if -9223372036854775808 ≤ v ∧ v < 9223372036854775808 then some (.ofInt v) else none

@[simp] theorem signedWord?_toInt (i : Int64) : signedWord? i.toInt = some i := by
  have lo := i.le_toInt
  have hi := i.toInt_lt
  rw [signedWord?, if_pos ⟨by omega, by omega⟩, Int64.ofInt_toInt]

theorem toInt_of_signedWord? {v : Int} {i : Int64} (h : signedWord? v = some i) :
    i.toInt = v ∧ v < 9223372036854775808 := by
  unfold signedWord? at h
  split at h
  · next fits =>
    cases h
    exact ⟨Int64.toInt_ofInt_of_le (by omega) (by omega), fits.2⟩
  · cases h

/-- Reads a typed word: an optional `+`, then one digit or more. -/
def readWord (cs : List Char) : Option UInt64 :=
  let ds := match cs with
    | '+' :: rest => rest
    | _ => cs
  if ds ≠ [] ∧ ds.all Char.isDigit then word? (number ds) else none

theorem readWord_digits (w : UInt64) : readWord (digits w.toNat) = some w := by
  have hall : (digits w.toNat).all Char.isDigit = true :=
    List.all_eq_true.2 fun c hc => isDigit_of_mem_digits hc
  have hd := digits_ne_nil w.toNat
  unfold readWord
  split
  · next rest h =>
    have : '+' ∈ digits w.toNat := h ▸ List.mem_cons_self
    exact absurd (isDigit_of_mem_digits this) (by decide)
  · simp [hd, hall]

end LiveChat.Text
