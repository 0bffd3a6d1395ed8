import LiveChat.Client.Event
import LiveChat.Text.Blank

/-!
# Lines typed at the console

A line is a chat message unless it starts with a slash; then it is a command with its arguments
behind the first space. Line ends are not part of a line.
-/

namespace LiveChat.Console

inductive Command where
  | tell (e : Client.Event)
  | quit
  | nothing

inductive CommandError where
  | unknown (name : String)
  | usage (form : String)
  | invalid (what value : String)
  deriving DecidableEq, Repr

def CommandError.message : CommandError → String
  | unknown name => "unknown command: /" ++ name
  | usage form => "usage: " ++ form
  | invalid what value => "invalid " ++ what ++ ": " ++ value

namespace Command

def isLineEnd (c : Char) : Bool := c = '\r' || c = '\n'

/-- Reads a number that names something. -/
def readNumber (what : String) (word : List Char) : Except CommandError UInt64 :=
  match Text.readWord word with
  | some n => .ok n
  | none => .error (.invalid what (.ofList word))

def roomUsage : CommandError := .usage "/room <workspace> <room>"

/-- The room of a command's arguments; words after the second are not looked at. -/
def readRoom (args : List Char) : Except CommandError Room :=
  match Text.words args with
  | [] => .error roomUsage
  | w :: rest => do
    let workspace ← readNumber "workspace" w
    match rest with
    | [] => .error roomUsage
    | n :: _ => do .ok ⟨workspace, ← readNumber "room" n⟩

def readAvailability (args : List Char) : Except CommandError Availability :=
  if args.isEmpty then .error (.usage "/status <online|idle|dnd|offline>")
  else match Availability.ofName? (.ofList args) with
    | some a => .ok a
    | none => .error (.invalid "status" (.ofList args))

def readUsers (args : List Char) : Except CommandError (List UserId) := do
  match ← (Text.words args).mapM (readNumber "user") with
  | [] => .error (.usage "/watch <user>...")
  | users => .ok users

/-- Reads a command without its slash. -/
def readCommand (cs : List Char) : Except CommandError Command :=
  let (name, args) := (Text.splitOnce ' ' cs).getD (cs, [])
  let args := Text.trim args
  match String.ofList name with
  | "quit" | "exit" => .ok .quit
  | "room" => do .ok (.tell (.enterRoom (← readRoom args)))
  | "leave" => .ok (.tell .leaveRoom)
  | "older" => .ok (.tell .loadOlder)
  | "reload" => .ok (.tell .reloadHistory)
  | "status" => do .ok (.tell (.setAvailability (← readAvailability args)))
  | "note" => .ok (.tell (.setNote (if args.isEmpty then none else some (.ofList args)) none))
  | "watch" => do .ok (.tell (.watch (← readUsers args)))
  | name => .error (.unknown name)

def parse (line : String) : Except CommandError Command :=
  match Text.dropEndWhile isLineEnd line.toList with
  | '/' :: cs => readCommand cs
  | cs => if Text.allBlank cs then .ok .nothing else .ok (.tell (.send (.ofList cs)))

end Command

end LiveChat.Console
