import LiveChat.Duration
import LiveChat.Entropy

/-!
# Waiting before a channel is opened again

The wait doubles with every failure in a row up to a cap, and up to a percentage of it is added at
random. Retries never stop; only the wait grows.
-/

namespace LiveChat

structure Retry where
  base : Duration
  cap : Duration
  /-- The most that is added at random, in percent of the capped wait. -/
  jitterPercent : Nat
  deriving DecidableEq, Repr

namespace Retry

def standard : Retry := ⟨.ofSeconds 3, .ofSeconds 60, 20⟩

def fixed (wait : Duration) : Retry := ⟨wait, wait, 0⟩

def maxDoublings : Nat := 16

def ceiling (r : Retry) (failures : Nat) : Duration :=
  (r.base.scale (Nat.pow 2 (min (failures - 1) maxDoublings))).min r.cap

/-- The most milliseconds that are added at random; counts of milliseconds are words. -/
def jitterMillis (r : Retry) (wait : Duration) : Nat :=
  min (wait.millis % UInt64.size * r.jitterPercent) (UInt64.size - 1) / 100

/-- The wait after so many failures in a row. A random word is drawn only if it can matter. -/
def delay (r : Retry) (failures : Nat) (e : Entropy) : Except Fault Duration × Entropy :=
  let wait := r.ceiling failures
  let span := r.jitterMillis wait
  if span = 0 then (.ok wait, e)
  else (wait.add (.ofMillis (.ofNat (e.draw.1.toNat % (span + 1)))), e.draw.2)

theorem ceiling_le_cap (r : Retry) (failures : Nat) : r.ceiling failures ≤ r.cap := by
  rw [Duration.le_def, ceiling, Duration.nanos_min]
  exact Nat.min_le_right _ _

theorem jitterMillis_of_zero {r : Retry} (h : r.jitterPercent = 0) (wait : Duration) :
    r.jitterMillis wait = 0 := by
  simp [jitterMillis, h]

theorem delay_of_steady {r : Retry} (h : r.jitterPercent = 0) (failures : Nat) (e : Entropy) :
    r.delay failures e = (.ok (r.ceiling failures), e) := by
  simp [delay, jitterMillis_of_zero h]

end Retry

end LiveChat
