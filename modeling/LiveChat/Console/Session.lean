import LiveChat.Console.Arguments
import LiveChat.Console.Command
import LiveChat.Console.Screen
import LiveChat.Simulation.Basic

/-!
# A session at the console

Lines go to a client in memory, and what the client tells its display is printed. Each accepted
line counts as activity of the user before it takes effect.
-/

namespace LiveChat.Console

def Update.ofAction? (c : Client) : Client.Action → Option Update
  | .timelineChanged => some (.timeline c.conversation.timeline)
  | .typistsChanged => some (.typing c.conversation.typists.nicknames)
  | .presenceChanged users => some (.presence (users.filterMap c.roster.record?))
  | .noticePublished n => some (.notice n)
  | .scrollToNewest => some .scrollToNewest
  | .keepPosition => some .keepPosition
  | _ => none

structure Session where
  simulation : Simulation
  screen : Screen

namespace Session

/-- Updates the screen one by one, and gathers the lines printed. -/
def renderAll (screen : Screen) : List Update → Screen × List String
  | [] => (screen, [])
  | u :: rest =>
    let (screen, lines) := screen.render u
    let (screen, more) := renderAll screen rest
    (screen, lines ++ more)

def flush (s : Session) : Session × List String :=
  let (simulation, actions) := s.simulation.takeDisplay
  let (screen, lines) :=
    renderAll s.screen (actions.filterMap (Update.ofAction? simulation.client))
  (⟨simulation, screen⟩, lines)

def tell (s : Session) (e : Client.Event) : Except Client.Error Session := do
  .ok { s with simulation := ← s.simulation.dispatch e }

def start (args : Arguments) : Except Client.Error (Session × List String) := do
  let simulation := Simulation.new args.identity .standard 0 (.cycle []) .standard false
  let s ← tell ⟨simulation, .blank⟩ .start
  let s ← match args.room with
    | none => .ok s
    | some room => s.tell (.enterRoom room)
  .ok s.flush

/-- What comes of a line: the session goes on, or it ends. -/
inductive Outcome where
  | next (s : Session) (lines : List String)
  | ended

/-- Takes a line that was typed some time after the last one. -/
def line (s : Session) (waited : Duration) (text : String) : Except Client.Error Outcome := do
  let s := { s with simulation := ← s.simulation.advance waited }
  match Command.parse text with
  | .error e => .ok (.next s ["! " ++ e.message])
  | .ok .quit => .ok .ended
  | .ok .nothing => .ok (.next s [])
  | .ok (.tell e) =>
    let s ← s.tell .activity
    let (s, lines) := (← s.tell e).flush
    .ok (.next s lines)

end Session

end LiveChat.Console
