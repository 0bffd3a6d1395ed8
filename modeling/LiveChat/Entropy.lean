/-!
# Random words

Random words come from a fixed source in order, and the number taken so far is kept, so a run
with the same source repeats exactly.
-/

namespace LiveChat

structure Entropy where
  source : Nat → UInt64
  drawn : Nat

namespace Entropy

/-- The listed words over and over; zeros when none is listed. -/
def cycle (words : List UInt64) : Entropy where
  source n := words.getD (n % words.length) 0
  drawn := 0

def draw (e : Entropy) : UInt64 × Entropy := (e.source e.drawn, { e with drawn := e.drawn + 1 })

@[simp] theorem drawn_draw (e : Entropy) : e.draw.2.drawn = e.drawn + 1 := rfl

end Entropy

end LiveChat
