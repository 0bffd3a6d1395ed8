import LiveChat.Proofs.Channel.Switchboard
import Mathlib.Logic.Function.Basic

/-!
# The transports that links drive

To a link its transport is idle, asked for, or up. An operation on a link asks for the transport
when it is idle, gives it up when it is not, sends on it while it is up, and does no two of these. A
switchboard has one transport for each address; those of addresses that nobody holds are idle.
-/

namespace LiveChat

inductive Transport where
  | idle
  /-- Asked for, and not known to be open yet. -/
  | asked
  | up
  deriving DecidableEq, Repr

namespace Transport

/-- What the news that it is open makes of a transport. -/
def opened : Transport → Transport
  | asked => up
  | t => t

theorem opened_eq_idle_iff {t : Transport} : t.opened = idle ↔ t = idle := by
  cases t <;> simp [opened]

theorem opened_eq_up_iff {t : Transport} : t.opened = up ↔ t ≠ idle := by
  cases t <;> simp [opened]

end Transport

abbrev Transports := Address → Transport

namespace Link

def transport (l : Link) : Transport :=
  match l.phase with
  | .down | .waiting _ _ => .idle
  | .opening => .asked
  | .live _ => .up

theorem transport_ne_idle_iff {l : Link} :
    l.transport ≠ .idle ↔ l.phase = .opening ∨ l.isLive = true := by
  unfold transport isLive
  cases l.phase <;> simp

theorem transport_eq_up_iff {l : Link} : l.transport = .up ↔ l.isLive = true := by
  unfold transport isLive
  cases l.phase <;> simp

/-- What an operation on a link can do to its transport. -/
inductive Moves (l : Link) : List LinkAction → Link → Prop
  | quiet {l' : Link} (same : l'.transport = l.transport) : Moves l [] l'
  | sends {l' : Link} (frames : List ClientFrame) (up : l.transport = .up)
      (same : l'.transport = l.transport) : Moves l (frames.map (.sending l.address)) l'
  | opens {l' : Link} (idle : l.transport = .idle) (asked : l'.transport = .asked) :
      Moves l [.opening l.address] l'
  | closes {l' : Link} (busy : l.transport ≠ .idle) (idle : l'.transport = .idle) :
      Moves l [.closing l.address] l'

theorem start_moves (l : Link) : l.Moves l.start.2 l.start.1 := by
  unfold start
  cases hphase : l.phase with
  | down | waiting => exact .opens (by simp [transport, hphase]) rfl
  | opening | live => exact .quiet rfl

theorem close_moves (l : Link) : l.Moves l.close.2 l.close.1 := by
  unfold close
  cases hphase : l.phase with
  | down | waiting => exact .quiet (by simp [transport, hphase])
  | opening | live => exact .closes (by simp [transport, hphase]) rfl

theorem close_transport (l : Link) : l.close.1.transport = .idle := by
  unfold close transport
  cases l.phase <;> rfl

theorem tick_moves (l : Link) (now : Instant) : l.Moves (l.tick now).2 (l.tick now).1 := by
  unfold tick
  cases hphase : l.phase with
  | down | opening => exact .quiet rfl
  | live beatAt =>
      have hup : l.transport = .up := by simp [transport, hphase]
      dsimp only
      split
      · exact .sends [.heartbeat] hup hup.symm
      · exact .quiet rfl
  | waiting since delay =>
      dsimp only
      split
      · exact .opens (by simp [transport, hphase]) rfl
      · exact .quiet rfl

/-- What the link sends once its transport has come up. -/
theorem opened_moves (l : Link) (now : Instant) :
    (l.opened now).1.Moves (l.opened now).2 (l.opened now).1 := by
  unfold opened
  cases l.phase with
  | opening => exact .sends l.standing.values rfl rfl
  | down | waiting | live => exact .quiet rfl

theorem opened_transport (l : Link) (now : Instant) :
    (l.opened now).1.transport = l.transport.opened := by
  unfold opened
  cases hphase : l.phase <;> simp [transport, hphase, Transport.opened]

theorem lost_transport {l l' : Link} {now : Instant} {e e' : Entropy}
    (h : l.lost now e = .ok (l', e')) : l'.transport = .idle := by
  rcases lost_cases h with ⟨hidle, rfl, -⟩ | ⟨-, delay, -, rfl⟩
  · by_contra hbusy
    rw [← Ne, transport_ne_idle_iff] at hbusy
    simp [hidle] at hbusy
  · rfl

end Link

namespace Switchboard

def transports (b : Switchboard) : Transports := fun a =>
  ((b.link? a).map Link.transport).getD .idle

variable {b b' : Switchboard} {a : Address} {line : Line}

theorem transports_of_line (h : b.lines.find? a = some line) :
    b.transports a = line.link.transport := by
  simp [transports, link?, h]

theorem transports_of_none (h : b.lines.find? a = none) : b.transports a = .idle := by
  simp [transports, link?, h]

theorem transports_eq_up_iff : b.transports a = .up ↔ b.isLive a = true := by
  unfold transports isLive
  cases b.link? a with
  | none => simp
  | some link => simpa using link.transport_eq_up_iff

theorem transports_insert (a : Address) (line : Line) :
    transports { b with lines := b.lines.insert a line } =
      Function.update b.transports a line.link.transport := by
  funext a'
  by_cases heq : a' = a
  · subst heq
    simp [transports, link?, Table.find?_insert]
  · simp [transports, link?, Table.find?_insert, heq]

theorem transports_erase (a : Address) :
    transports { b with lines := b.lines.erase a } = Function.update b.transports a .idle := by
  funext a'
  by_cases heq : a' = a
  · subst heq
    simp [transports, link?, Table.find?_erase]
  · simp [transports, link?, Table.find?_erase, heq]

theorem transports_setLink (line : Line) (link : Link) :
    (b.setLink a line link).transports = Function.update b.transports a link.transport :=
  transports_insert a _

theorem transports_keep {f : ClientFrame} (h : b.keep a f = .ok b') :
    b'.transports = b.transports := by
  obtain ⟨line, hline, rfl⟩ := keep_cases h
  have hsame : (line.link.keep f).transport = b.transports a := by
    rw [transports_of_line hline]
    rfl
  rw [transports_setLink, hsame, Function.update_eq_self]

end Switchboard

end LiveChat
