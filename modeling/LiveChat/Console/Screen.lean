import LiveChat.Chat.Timeline
import LiveChat.Table

/-!
# The screen

What is printed as a client's display changes. Each confirmed message is printed once, however
often the timeline comes; who is typing is printed when it changes.
-/

namespace LiveChat.Console

inductive Update where
  | timeline (t : Timeline)
  | typing (nicknames : List String)
  | presence (records : List Presence)
  | notice (n : Notice)
  | scrollToNewest
  | keepPosition

structure Screen where
  /-- The numbers of the messages that have been printed. -/
  shown : Table MessageId Unit
  typing : List String
  deriving DecidableEq, Repr

namespace Screen

def blank : Screen := ⟨.empty, []⟩

def senderName (e : Entry) : String :=
  match e.author, e.sender with
  | some author, _ => author.nickname
  | none, some user => "user" ++ toString user
  | none, none => "system"

def messageLine (e : Entry) : String := "[" ++ senderName e ++ "] " ++ e.body

def presenceLine (p : Presence) : String :=
  let note := (p.note.map fun note => " (" ++ note ++ ")").getD ""
  "* user " ++ toString p.user ++ " is " ++ p.availability.name ++ note

/-- Prints the messages whose numbers have not been shown. -/
def showMessages (shown : Table MessageId Unit) : Timeline → Table MessageId Unit × List String
  | [] => (shown, [])
  | e :: rest =>
    if e.isPending || shown.contains e.id then showMessages shown rest
    else
      let (shown, lines) := showMessages (shown.insert e.id ()) rest
      (shown, messageLine e :: lines)

/-- The screen after an update, and the lines printed for it. -/
def render (s : Screen) : Update → Screen × List String
  | .timeline t =>
    let (shown, lines) := showMessages s.shown t
    ({ s with shown }, lines)
  | .typing nicknames =>
    ({ s with typing := nicknames },
      if nicknames = s.typing ∨ nicknames = [] then []
      else ["... " ++ ", ".intercalate nicknames ++ " typing"])
  | .presence records => (s, records.map presenceLine)
  | .notice n => (s, ["! " ++ n.title])
  | .scrollToNewest | .keepPosition => (s, [])

end Screen

end LiveChat.Console
