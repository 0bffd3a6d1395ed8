import LiveChat.Wire.Envelope

/-!
# Frames of a client

What a client sends on a channel. Distinct frames have distinct texts, and a text is read back to
the frame it was written for.
-/

namespace LiveChat

inductive ClientFrame where
  | heartbeat
  /-- Asks for the presence of these users. -/
  | watch (users : List UserId)
  | setAvailability (availability : Availability)
  /-- Sets the user's own note; what is absent is cleared. -/
  | setNote (note emoji : Option String)
  | post (body : String) (ref : Option Ref)
  | typing
  | stoppedTyping
  deriving DecidableEq, Repr

namespace ClientFrame

/-- The name of the frame's kind on the wire. -/
def kind : ClientFrame → String
  | heartbeat => "heartbeat"
  | watch _ => "subscribe_presence"
  | setAvailability _ => "change_status"
  | setNote _ _ => "change_status_message"
  | post _ _ => "message"
  | typing => "typing"
  | stoppedTyping => "stop_typing"

def payload : ClientFrame → Option Json
  | heartbeat | typing | stoppedTyping => none
  | watch users => some (.record [("user_ids", .array (users.map Json.word))])
  | setAvailability availability => some (.record [("status", availability.toJson)])
  | setNote note emoji =>
    some (.record [("text", .nullable .text note), ("emoji", .nullable .text emoji)])
  | post body none => some (.record [("message", .text body)])
  | post body (some ref) => some (.record [("message", .text body), ("client_ref", .word ref)])

def toJson (f : ClientFrame) : Json := Envelope.toJson f.kind f.payload

def ofEnvelope? (e : Envelope) : Option ClientFrame :=
  match e.kind with
  | "heartbeat" => e.nothing?.map fun _ => heartbeat
  | "typing" => e.nothing?.map fun _ => typing
  | "stop_typing" => e.nothing?.map fun _ => stoppedTyping
  | "subscribe_presence" => do
    let fs ← (← e.payload).fields?
    some (watch (← fs.required "user_ids" (Json.list? Json.word?)))
  | "change_status" => do
    let fs ← (← e.payload).fields?
    some (setAvailability (← fs.required "status" (Availability.ofJson? e.aside)))
  | "change_status_message" => do
    let fs ← (← e.payload).fields?
    some (setNote (← fs.optional "text" Json.text?) (← fs.optional "emoji" Json.text?))
  | "message" => do
    let fs ← (← e.payload).fields?
    some (post (← fs.required "message" Json.text?) (← fs.optional "client_ref" Json.word?))
  | _ => none

def ofJson? (j : Json) : Option ClientFrame := do ofEnvelope? (← Envelope.ofJson? j)

def encode (f : ClientFrame) : String := f.toJson.render

def decode (text : String) : Option ClientFrame := do ofJson? (← Json.parse text)

end ClientFrame

end LiveChat
