import LiveChat.Address
import LiveChat.Chat.Conversation

/-!
# Arguments of the console

Who the user is, and the room to enter at the start. Options stand in any order, each followed by
its value; of two values for one option the later counts.
-/

namespace LiveChat.Console

structure Arguments where
  identity : Identity
  room : Option Room
  deriving DecidableEq, Repr

inductive ArgumentError where
  | unknown (word : String)
  | noValue (word : String)
  | noUser
  | badUser (value : String)
  | badRoom (e : Room.ReadError)
  deriving DecidableEq, Repr

def ArgumentError.message : ArgumentError → String
  | unknown word => "unexpected argument: " ++ word
  | noValue word => "a value is required for " ++ word
  | noUser => "--user-id is required"
  | badUser value => "invalid user id: " ++ value
  | badRoom e => e.message

namespace Arguments

def standardNickname : String := "anonymous"

inductive Setting where
  | user (id : UserId)
  | nickname (name : String)
  | room (room : Room)

def readSetting (word value : String) : Except ArgumentError Setting :=
  match word with
  | "-u" | "--user-id" =>
    match Text.readWord value.toList with
    | some id => .ok (.user id)
    | none => .error (.badUser value)
  | "-n" | "--nickname" => .ok (.nickname value)
  | "-r" | "--room" =>
    match Room.read value with
    | .ok room => .ok (.room room)
    | .error e => .error (.badRoom e)
  | _ => .error (.unknown word)

def isOption (word : String) : Bool :=
  ["-u", "--user-id", "-n", "--nickname", "-r", "--room"].contains word

def readSettings : List String → Except ArgumentError (List Setting)
  | [] => .ok []
  | [word] => .error (if isOption word then .noValue word else .unknown word)
  | word :: value :: rest => do .ok ((← readSetting word value) :: (← readSettings rest))

/-- The last setting that a function picks out. -/
def last? (pick : Setting → Option α) (settings : List Setting) : Option α :=
  (settings.filterMap pick).getLast?

def read (words : List String) : Except ArgumentError Arguments := do
  let settings ← readSettings words
  match last? (fun | .user id => some id | _ => none) settings with
  | none => .error .noUser
  | some user =>
    let nickname := last? (fun | .nickname name => some name | _ => none) settings
    .ok ⟨⟨user, nickname.getD standardNickname⟩,
      last? (fun | .room room => some room | _ => none) settings⟩

end Arguments

end LiveChat.Console
