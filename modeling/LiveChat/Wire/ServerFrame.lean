import LiveChat.Wire.Envelope

/-!
# Frames of the server

What the chat service sends on a channel. The presence of several users comes as an object with
one member for each user, named by the user's number.
-/

namespace LiveChat

inductive ServerFrame where
  | presence (p : Presence)
  | presences (batch : Table UserId Presence)
  | notice (n : Notice)
  | message (m : Message)
  | typing (user : UserId) (nickname : String)
  | stoppedTyping (user : UserId)
  deriving DecidableEq

namespace ServerFrame

/-- The name of the frame's kind on the wire. -/
def kind : ServerFrame → String
  | presence _ => "presence_update"
  | presences _ => "presence_state_sync"
  | notice _ => "notification"
  | message _ => "message"
  | typing _ _ => "typing"
  | stoppedTyping _ => "stop_typing"

/-- How a user's number is written as a name. -/
def nameOfUser (user : UserId) : List Json.Glyph := (Text.digits user.toNat).map .plain

/-- The digits of a name that is a number written without escapes and leading zeros. -/
def userOfName? (name : List Json.Glyph) : Option UserId := do
  let digits ← name.mapM fun
    | .plain c => if c.isDigit then some c else none
    | _ => none
  let user ← Text.word? (Text.number digits)
  if Text.digits user.toNat = digits then some user else none

def payload : ServerFrame → Json
  | presence p => p.toJson
  | presences batch => .object (batch.entries.map fun (user, p) => (nameOfUser user, p.toJson))
  | notice n => n.toJson
  | message m => m.toJson
  | typing user nickname => .record [("user_id", .word user), ("nickname", .text nickname)]
  | stoppedTyping user => .record [("user_id", .word user)]

def toJson (f : ServerFrame) : Json := Envelope.toJson f.kind (some f.payload)

/-- Of records under one name the last counts. In a payload that was set aside names have become
strings, which stand for no user. -/
def batchOfJson? (aside : Bool) : Json → Option (Table UserId Presence)
  | .object members =>
    if aside && !members.isEmpty then none
    else do
      let entries ← members.mapM fun (name, j) => do
        some (← userOfName? name, ← Presence.ofJson? false j)
      some (.ofList entries)
  | _ => none

def ofEnvelope? (e : Envelope) : Option ServerFrame := do
  let payload ← e.payload
  match e.kind with
  | "presence_update" => (Presence.ofJson? e.aside payload).map presence
  | "presence_state_sync" => (batchOfJson? e.aside payload).map presences
  | "notification" => (Notice.ofJson? 1 payload).map notice
  | "message" => (Message.ofJson? e.aside payload).map message
  | "typing" => do
    let fs ← payload.fields?
    some (typing (← fs.required "user_id" Json.word?) (← fs.defaulted "nickname" "" Json.text?))
  | "stop_typing" => do
    let fs ← payload.fields?
    some (stoppedTyping (← fs.required "user_id" Json.word?))
  | _ => none

def ofJson? (j : Json) : Option ServerFrame := do ofEnvelope? (← Envelope.ofJson? j)

def encode (f : ServerFrame) : String := f.toJson.render

def decode (text : String) : Option ServerFrame := do ofJson? (← Json.parse text)

end ServerFrame

end LiveChat
