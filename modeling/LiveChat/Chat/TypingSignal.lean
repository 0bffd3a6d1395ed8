import LiveChat.Duration
import LiveChat.Text.Blank
import LiveChat.Wire.ClientFrame

/-!
# Telling others that the user types

One frame when a burst of typing starts, and one when it ends: by a pause, or on request.
-/

namespace LiveChat

structure TypingSignal where
  /-- The last input of the burst; there is none between bursts. -/
  lastInput : Option Instant
  deriving DecidableEq, Repr

namespace TypingSignal

def silent : TypingSignal := ⟨none⟩

def isTyping (s : TypingSignal) : Bool := s.lastInput.isSome

/-- The text being written has changed. A blank text starts no burst. -/
def input (s : TypingSignal) (text : String) (now : Instant) : TypingSignal × Option ClientFrame :=
  if s.isTyping then (⟨some now⟩, none)
  else if Text.allBlank text.toList then (s, none)
  else (⟨some now⟩, some .typing)

def stop (s : TypingSignal) : TypingSignal × Option ClientFrame :=
  (silent, if s.isTyping then some .stoppedTyping else none)

def tick (s : TypingSignal) (now : Instant) (timeout : Duration) :
    TypingSignal × Option ClientFrame :=
  match s.lastInput with
  | none => (s, none)
  | some last => if now - last < timeout then (s, none) else (silent, some .stoppedTyping)

end TypingSignal

end LiveChat
