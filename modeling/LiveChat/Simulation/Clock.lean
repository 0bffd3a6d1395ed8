import LiveChat.Duration
import LiveChat.Text.Decimal

/-!
# A clock that moves on request

The time since the start, and the wall clock that goes with it. The wall clock counts the
milliseconds of the time since the start in a signed word, so it can leave the range of time
stamps.
-/

namespace LiveChat.Simulation

structure Clock where
  elapsed : Duration
  /-- The wall clock at the start. -/
  epoch : Int64
  deriving DecidableEq, Repr

namespace Clock

def start (epoch : Int64) : Clock := ⟨.zero, epoch⟩

def advance (c : Clock) (span : Duration) : Except Fault Clock := do
  .ok { c with elapsed := ← c.elapsed.add span }

/-- Moves the clock to an instant unless it is past that already. -/
def advanceTo (c : Clock) (target : Instant) : Clock := { c with elapsed := c.elapsed.max target }

def now (c : Clock) : Instant := c.elapsed

def wall (c : Clock) : Option Int64 :=
  Text.signedWord? (c.epoch.toInt + (Int64.ofNat c.elapsed.millis).toInt)

end Clock

end LiveChat.Simulation
