import LiveChat.Json.Parser
import LiveChat.Wire.Record

/-!
# Envelopes

Every frame is an object with the name of its kind and, unless the kind has no content, a payload;
or the array of these two, in which the name is a plain string. A payload that is written in front
of the kind has to be set aside until the kind is known, and everything in it then has to be sound,
members that nobody reads included.
-/

namespace LiveChat

inductive FrameError where
  | encode (detail : String)
  | malformed (detail : String)
  deriving DecidableEq, Repr

def FrameError.message : FrameError → String
  | encode detail => "failed to encode frame: " ++ detail
  | malformed detail => "malformed frame: " ++ detail

structure Envelope where
  kind : String
  payload : Option Json
  /-- Whether the payload stands in front of the kind. -/
  aside : Bool

namespace Envelope

def toJson (kind : String) : Option Json → Json
  | none => .record [("type", .text kind)]
  | some payload => .record [("type", .text kind), ("payload", payload)]

/-- Whether all strings and numbers have a value and nothing is nested too deep in a frame. -/
def isSound (payload : Json) : Bool :=
  1 + payload.depth ≤ nestingLimit && (Json.Value.ofJson? payload).isSome

def isFirst (first second : String) (fs : Json.Fields) : Bool :=
  fs.findIdx (·.1 = first) < fs.findIdx (·.1 = second)

def ofJson? : Json → Option Envelope
  | .array [kind, payload] => do some ⟨← kind.text?, some payload, false⟩
  | .array _ => none
  | j => do
    let fs ← j.fields?
    let kind ← fs.required "type" Json.variant?
    match ← fs.find? "payload" with
    | none => some ⟨kind, none, false⟩
    | some payload =>
      let aside := isFirst "payload" "type" fs
      if aside && !isSound payload then none else some ⟨kind, some payload, aside⟩

/-- The content of a kind that has none: a payload is missing or null. -/
def nothing? (e : Envelope) : Option Unit :=
  match e.payload with
  | none | some .null => some ()
  | some _ => none

end Envelope

end LiveChat
