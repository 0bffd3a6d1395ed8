import LiveChat.Duration
import LiveChat.Wire.Record

/-!
# Watching for idleness

The user turns idle after a full threshold without activity, and back online with the next
activity. Either change is reported once, when it happens.
-/

namespace LiveChat

structure IdleWatch where
  idle : Bool
  threshold : Duration
  /-- The time of the last activity. -/
  armedAt : Instant
  deriving DecidableEq, Repr

namespace IdleWatch

def standardThreshold : Duration := .ofSeconds 300

def new (now : Instant) (threshold : Duration) : IdleWatch := ⟨false, threshold, now⟩

def activity (w : IdleWatch) (now : Instant) : IdleWatch × Option Availability :=
  ({ w with idle := false, armedAt := now }, if w.idle then some .online else none)

def tick (w : IdleWatch) (now : Instant) : IdleWatch × Option Availability :=
  if !w.idle ∧ w.threshold ≤ now - w.armedAt then ({ w with idle := true }, some .idle)
  else (w, none)

end IdleWatch

end LiveChat
