import LiveChat.Channel.Link

/-!
# Links shared by address

There is one link for each address that is held. The first holder starts the link and the last one
to let go closes and forgets it.
-/

namespace LiveChat

structure Line where
  link : Link
  holders : Nat
  deriving DecidableEq, Repr

structure Switchboard where
  settings : LinkSettings
  lines : Table Address Line
  deriving DecidableEq, Repr

namespace Switchboard

inductive Error where
  | unknownAddress (a : Address)
  deriving DecidableEq, Repr

def Error.message : Error → String
  | unknownAddress a => "no channel registered for " ++ a.text

def new (settings : LinkSettings) : Switchboard := ⟨settings, .empty⟩

def link? (b : Switchboard) (a : Address) : Option Link := (b.lines.find? a).map Line.link

def holders (b : Switchboard) (a : Address) : Nat := ((b.lines.find? a).map Line.holders).getD 0

def isLive (b : Switchboard) (a : Address) : Bool := ((b.link? a).map Link.isLive).getD false

/-- Puts a link in place of the one that a held address has. -/
def setLink (b : Switchboard) (a : Address) (line : Line) (link : Link) : Switchboard :=
  { b with lines := b.lines.insert a { line with link } }

def acquire (b : Switchboard) (a : Address) : Switchboard × List LinkAction :=
  match b.lines.find? a with
  | some line =>
    ({ b with lines := b.lines.insert a { line with holders := line.holders + 1 } }, [])
  | none =>
    let (link, actions) := (Link.new a b.settings).start
    ({ b with lines := b.lines.insert a ⟨link, 1⟩ }, actions)

def release (b : Switchboard) (a : Address) : Except Error (Switchboard × List LinkAction) :=
  match b.lines.find? a with
  | none => .error (.unknownAddress a)
  | some line =>
    if 1 < line.holders then
      .ok ({ b with lines := b.lines.insert a { line with holders := line.holders - 1 } }, [])
    else .ok ({ b with lines := b.lines.erase a }, line.link.close.2)

/-- A transport that opens for an address that nobody holds is to be closed. -/
def opened (b : Switchboard) (a : Address) (now : Instant) : Switchboard × List LinkAction :=
  match b.lines.find? a with
  | none => (b, [.closing a])
  | some line =>
    let (link, actions) := line.link.opened now
    (b.setLink a line link, actions)

def lost (b : Switchboard) (a : Address) (now : Instant) (e : Entropy) :
    Except Fault (Switchboard × Entropy) :=
  match b.lines.find? a with
  | none => .ok (b, e)
  | some line => do
    let (link, e) ← line.link.lost now e
    .ok (b.setLink a line link, e)

def send (b : Switchboard) (a : Address) (f : ClientFrame) : List LinkAction :=
  match b.lines.find? a with
  | none => []
  | some line => line.link.send f

def keep (b : Switchboard) (a : Address) (f : ClientFrame) : Except Error Switchboard :=
  match b.lines.find? a with
  | none => .error (.unknownAddress a)
  | some line => .ok (b.setLink a line (line.link.keep f))

/-- Ticks every link, in the order of the addresses. -/
def tick (b : Switchboard) (now : Instant) : Switchboard × List LinkAction :=
  ({ b with lines := b.lines.map fun _ line => { line with link := (line.link.tick now).1 } },
    b.lines.values.flatMap fun line => (line.link.tick now).2)

def closeAll (b : Switchboard) : Switchboard × List LinkAction :=
  ({ b with lines := .empty }, b.lines.values.flatMap fun line => line.link.close.2)

end Switchboard

end LiveChat
