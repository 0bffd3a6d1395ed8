import LiveChat.Fault

/-!
# Durations

A duration is a whole number of nanoseconds with fewer than `2 ^ 64` whole seconds. Instants are
durations since the start of a clock, so the time between two instants is `later - earlier`,
which is zero when they are given the other way round.
-/

namespace LiveChat

/-- One nanosecond more than the longest duration. -/
def nanosLimit : Nat := UInt64.size * 1000000000

structure Duration where
  nanos : Nat
  lt_limit : nanos < nanosLimit
  deriving DecidableEq

/-- A point on a clock, measured from the clock's start. -/
abbrev Instant := Duration

namespace Duration

@[ext] theorem ext {a b : Duration} (h : a.nanos = b.nanos) : a = b := by
  cases a; cases b; cases h; rfl

instance : Repr Duration := ⟨fun d _ => repr d.nanos ++ "ns"⟩

def zero : Duration := ⟨0, by decide⟩

instance : Inhabited Duration := ⟨zero⟩

def longest : Duration := ⟨nanosLimit - 1, by decide⟩

instance : LE Duration := ⟨fun a b => a.nanos ≤ b.nanos⟩
instance : LT Duration := ⟨fun a b => a.nanos < b.nanos⟩

theorem le_def {a b : Duration} : a ≤ b ↔ a.nanos ≤ b.nanos := Iff.rfl

theorem not_le {a b : Duration} : ¬ a ≤ b ↔ b < a := Nat.not_le

instance (a b : Duration) : Decidable (a ≤ b) := inferInstanceAs (Decidable (a.nanos ≤ b.nanos))
instance (a b : Duration) : Decidable (a < b) := inferInstanceAs (Decidable (a.nanos < b.nanos))

/-- The duration of `n` nanoseconds, if there is one. -/
def ofNanos (n : Nat) : Except Fault Duration :=
  if h : n < nanosLimit then .ok ⟨n, h⟩ else .error .overflow

/-- The duration of `n` nanoseconds, or the longest one. -/
def ofNanosCapped (n : Nat) : Duration :=
  if h : n < nanosLimit then ⟨n, h⟩ else longest

theorem nanos_ofNanosCapped (n : Nat) :
    (ofNanosCapped n).nanos = min n (nanosLimit - 1) := by
  unfold ofNanosCapped
  split
  · next h => simp only []; omega
  · next h => simp only [longest]; omega

def ofMillis (ms : UInt64) : Duration :=
  ⟨ms.toNat * 1000000, by
    have := ms.toNat_lt_size
    unfold nanosLimit
    omega⟩

def ofSeconds (s : UInt64) : Duration :=
  ⟨s.toNat * 1000000000, by
    have := s.toNat_lt_size
    unfold nanosLimit
    omega⟩

/-- Whole milliseconds. -/
def millis (d : Duration) : Nat := d.nanos / 1000000

/-- Whole seconds. -/
def seconds (d : Duration) : Nat := d.nanos / 1000000000

/-- Nanoseconds past the last whole second. -/
def subsecond (d : Duration) : Nat := d.nanos % 1000000000

def add (a b : Duration) : Except Fault Duration := ofNanos (a.nanos + b.nanos)

theorem add_eq_ok {a b c : Duration} : a.add b = .ok c ↔ c.nanos = a.nanos + b.nanos := by
  unfold add ofNanos
  constructor
  · intro h
    split at h
    · cases h; rfl
    · cases h
  · intro h
    have hc := c.lt_limit
    rw [h] at hc
    rw [dif_pos hc]
    exact congrArg Except.ok (ext h.symm)

/-- The time from `b` to `a`, zero when `b` is the later one. -/
def sub (a b : Duration) : Duration := ⟨a.nanos - b.nanos, by have := a.lt_limit; omega⟩

instance : Sub Duration := ⟨sub⟩

@[simp] theorem nanos_sub (a b : Duration) : (a - b).nanos = a.nanos - b.nanos := rfl

@[simp] theorem sub_self (a : Duration) : a - a = zero := ext (Nat.sub_self _)

/-- A multiple, cut off at the longest duration. -/
def scale (d : Duration) (n : Nat) : Duration := ofNanosCapped (d.nanos * n)

def min (a b : Duration) : Duration := if a ≤ b then a else b

def max (a b : Duration) : Duration := if a ≤ b then b else a

theorem nanos_min (a b : Duration) : (min a b).nanos = Nat.min a.nanos b.nanos := by
  unfold Duration.min
  split
  · next h => exact (Nat.min_eq_left h).symm
  · next h => exact (Nat.min_eq_right (Nat.le_of_lt (Nat.lt_of_not_le h))).symm

def cmp (a b : Duration) : Ordering := compare a.nanos b.nanos

/-- The whole cut into pieces of one step; the last piece is what is left over. -/
def pieces (whole step : Duration) : List Duration :=
  List.replicate (whole.nanos / step.nanos) step ++
    if whole.nanos % step.nanos = 0 then []
    else [⟨whole.nanos % step.nanos,
      Nat.lt_of_le_of_lt (Nat.mod_le _ _) whole.lt_limit⟩]

end Duration

end LiveChat
