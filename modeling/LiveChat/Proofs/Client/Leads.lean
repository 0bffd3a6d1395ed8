import LiveChat.Proofs.Client.Trace

/-!
# Actions that lead from transports to others

An action may be done only while the transport that it concerns is in a state that allows it. A list
of actions leads from some transports to others if each is permitted when its turn comes and no two
rooms have a transport at any time. What each operation on links asks for leads from the transports
before the operation to those after it.
-/

namespace LiveChat

/-- The address is the global one or that of the room that is given. -/
def Address.Allowed (room : Option Room) (a : Address) : Prop := ∀ r, a = .room r → room = some r

theorem Address.allowed_global (room : Option Room) : Address.global.Allowed room := nofun

theorem Address.allowed_room (r : Room) : (Address.room r).Allowed (some r) := by
  rintro _ ⟨⟩
  rfl

namespace Transports

/-- One room at most has a transport that is not idle. -/
def Single (w : Transports) : Prop :=
  ∀ r r', w (.room r) ≠ .idle → w (.room r') ≠ .idle → r = r'

/-- Only the room that is given may have a transport that is not idle. -/
def Within (room : Option Room) (w : Transports) : Prop :=
  ∀ r, w (.room r) ≠ .idle → room = some r

variable {w : Transports} {room : Option Room} {a : Address}

theorem Within.single (h : w.Within room) : w.Single := fun r r' hr hr' =>
  Option.some.inj ((h r hr).symm.trans (h r' hr'))

theorem Within.of_none (h : w.Within none) : w.Within room := fun r hr => nomatch h r hr

theorem Within.update (h : w.Within room) (allowed : a.Allowed room) (t : Transport) :
    Within room (Function.update w a t) := by
  intro r hr
  by_cases heq : Address.room r = a
  · exact allowed r heq.symm
  · rw [Function.update_of_ne heq] at hr
    exact h r hr

end Transports

namespace Client

/-! ## Actions that lead from transports to others -/

/-- What an action needs of the transports. -/
def Action.Permitted (w : Transports) : Action → Prop
  | .openTransport a => w a = .idle
  | .closeTransport a => w a ≠ .idle
  | .sendFrame a _ => w a = .up
  | _ => True

/-- Each action is permitted when it is done, and no two rooms have a transport at any time. -/
inductive Leads : Transports → List Action → Transports → Prop
  | nil {w : Transports} (single : w.Single) : Leads w [] w
  | cons {w w' : Transports} {x : Action} {xs : List Action} (single : w.Single)
      (permitted : x.Permitted w) (rest : Leads (Happening.next w (.done x)) xs w') :
      Leads w (x :: xs) w'

/-- The action is permitted and leaves the transports as they are. -/
structure Action.Still (w : Transports) (x : Action) : Prop where
  permitted : x.Permitted w
  same : Happening.next w (.done x) = w

namespace Leads

variable {w w' w'' : Transports} {xs ys : List Action}

theorem append (h : Leads w xs w') (h' : Leads w' ys w'') : Leads w (xs ++ ys) w'' := by
  induction h with
  | nil => exact h'
  | cons single permitted rest ih => exact .cons single permitted (ih h')

theorem of_still (single : w.Single) (still : ∀ x ∈ xs, x.Still w) : Leads w xs w := by
  induction xs with
  | nil => exact .nil single
  | cons x xs ih =>
      obtain ⟨hx, hxs⟩ := List.forall_mem_cons.1 still
      refine .cons single hx.permitted ?_
      rw [hx.same]
      exact ih hxs

/-- What is still to be done leads from where what was done has led. -/
theorem split (h : Leads w xs w') : ∀ done todo, xs = done ++ todo →
    Leads ((done.map Happening.done).foldl Happening.next w) todo w' := by
  induction h with
  | nil single =>
      intro done todo heq
      obtain ⟨rfl, rfl⟩ := List.nil_eq_append_iff.1 heq
      exact .nil single
  | @cons w w' x xs single permitted rest ih =>
      intro done todo heq
      cases done with
      | nil =>
          obtain rfl : x :: xs = todo := heq
          exact .cons single permitted rest
      | cons y done =>
          obtain ⟨rfl, rfl⟩ := List.cons.inj heq
          exact ih done todo rfl

theorem single (h : Leads w xs w') : w.Single := by
  cases h with
  | nil single => exact single
  | cons single => exact single

theorem end_eq (h : Leads w xs w') : (xs.map Happening.done).foldl Happening.next w = w' := by
  induction h with
  | nil => rfl
  | cons _ _ _ ih => exact ih

end Leads

end Client

/-! ## Links and switchboards -/

open Client

variable {w : Transports} {room : Option Room}

theorem Link.Moves.leads {l l' : Link} {actions : List LinkAction} (moves : l.Moves actions l')
    (now : w l.address = l.transport) (within : w.Within room) (allowed : l.address.Allowed room) :
    Leads w (ofLinks actions) (Function.update w l.address l'.transport) := by
  have hstays : l'.transport = l.transport →
      Function.update w l.address l'.transport = w := fun same => by
    rw [same, ← now, Function.update_eq_self]
  cases moves with
  | quiet same =>
      rw [hstays same]
      exact .nil within.single
  | sends frames up same =>
      rw [hstays same]
      refine .of_still within.single fun x hx => ?_
      simp only [ofLinks, List.map_map, List.mem_map] at hx
      obtain ⟨f, -, rfl⟩ := hx
      exact ⟨now.trans up, rfl⟩
  | opens idle asked =>
      rw [asked]
      exact .cons within.single (now.trans idle) (.nil (within.update allowed _).single)
  | closes busy idle =>
      rw [idle]
      refine .cons within.single ?_ (.nil (within.update allowed _).single)
      show w l.address ≠ .idle
      rwa [now]

namespace Switchboard

variable {b b' : Switchboard} {a : Address} {line : Line} {actions : List LinkAction}

theorem acquire_leads (within : b.transports.Within room) (allowed : a.Allowed room) :
    Leads b.transports (ofLinks (b.acquire a).2) (b.acquire a).1.transports := by
  unfold acquire
  cases hline : b.lines.find? a with
  | some line =>
      dsimp only
      rw [transports_insert, ← transports_of_line hline, Function.update_eq_self]
      exact .nil within.single
  | none =>
      dsimp only
      rw [transports_insert]
      exact (Link.start_moves _).leads (transports_of_none hline) within allowed

theorem Sound.release_leads (h : b.Sound) (ok : b.release a = .ok (b', actions))
    (within : b.transports.Within room) (allowed : a.Allowed room) :
    Leads b.transports (ofLinks actions) b'.transports := by
  obtain ⟨line, hline, ⟨-, rfl, rfl⟩ | ⟨-, rfl, rfl⟩⟩ := release_cases ok
  · rw [transports_insert, ← transports_of_line hline, Function.update_eq_self]
    exact .nil within.single
  · obtain ⟨-, rfl, -, -⟩ := h a line hline
    rw [transports_erase, ← Link.close_transport line.link]
    exact line.link.close_moves.leads (transports_of_line hline) within allowed

theorem Sound.send_still (h : b.Sound) (f : ClientFrame) :
    ∀ x ∈ ofLinks (b.send a f), x.Still b.transports := by
  unfold send Link.send
  split
  · simp [ofLinks]
  · next line hline =>
    split
    · next hlive =>
      intro x hx
      obtain rfl := List.mem_singleton.1 hx
      obtain ⟨-, rfl, -, -⟩ := h a line hline
      exact ⟨(transports_of_line hline).trans (Link.transport_eq_up_iff.2 hlive), rfl⟩
    · simp [ofLinks]

/-- What is sent when a transport has come up that somebody holds. -/
theorem Sound.opened_leads (h : b.Sound) (held : (b.link? a).isSome) (now : Instant)
    (within : b.transports.Within room) (allowed : a.Allowed room) :
    Leads (Function.update b.transports a (b.transports a).opened)
      (ofLinks (b.opened a now).2) (b.opened a now).1.transports := by
  unfold opened
  cases hline : b.lines.find? a with
  | none => simp [link?, hline] at held
  | some line =>
      dsimp only
      obtain ⟨-, haddress, -, -⟩ := h a line hline
      have haddress' : (line.link.opened now).1.address = a :=
        (line.link.opened_alike now).address.trans haddress
      rw [transports_setLink, transports_of_line hline, ← line.link.opened_transport now]
      have hwithin := within.update allowed (line.link.opened now).1.transport
      have hleads := (line.link.opened_moves now).leads ?_ hwithin ?_
      · rwa [haddress', Function.update_idem] at hleads
      · rw [haddress', Function.update_self]
      · rwa [haddress']

theorem opened_of_unheld (unheld : b.link? a = none) (now : Instant) :
    b.opened a now = (b, [.closing a]) := by
  unfold opened
  rw [Option.map_eq_none_iff.1 unheld]

theorem lost_transports {now : Instant} {e e' : Entropy} (ok : b.lost a now e = .ok (b', e')) :
    b'.transports = Function.update b.transports a .idle := by
  rcases lost_cases ok with ⟨hline, rfl, -⟩ | ⟨line, link, -, hlost, rfl⟩
  · rw [← transports_of_none hline, Function.update_eq_self]
  · rw [transports_setLink, Link.lost_transport hlost]

/-! ## All links at once -/

/-- The transports once the links of some lines have come to another state. -/
def transportsAfter (w : Transports) (link : Line → Link) (lines : List (Address × Line)) :
    Transports :=
  fun a => ((Table.lookup a lines).map fun line => (link line).transport).getD (w a)

theorem transportsAfter_cons (link : Line → Link) {a : Address} {line : Line}
    {rest : List (Address × Line)} (first : ∀ e ∈ rest, compare a e.1 = .lt) :
    transportsAfter w link ((a, line) :: rest) =
      transportsAfter (Function.update w a (link line).transport) link rest := by
  funext a'
  by_cases heq : a' = a
  · subst heq
    have hnone : Table.lookup a' rest = none := by
      cases hrest : Table.lookup a' rest with
      | none => rfl
      | some line' =>
          have hlt := first _ (Table.mem_of_lookup hrest)
          simp at hlt
    simp [transportsAfter, Table.lookup, hnone]
  · simp [transportsAfter, Table.lookup, heq]

theorem leads_all {step : Line → Link × List LinkAction}
    (moves : ∀ line : Line, line.link.Moves (step line).2 (step line).1)
    {lines : List (Address × Line)}
    (ascending : lines.Pairwise fun e e' => compare e.1 e'.1 = .lt)
    (fits : ∀ e ∈ lines, e.2.link.address = e.1 ∧ w e.1 = e.2.link.transport)
    (within : w.Within room) (allowed : ∀ e ∈ lines, e.1.Allowed room) :
    Leads w (ofLinks (lines.flatMap fun e => (step e.2).2))
      (transportsAfter w (fun line => (step line).1) lines) := by
  induction lines generalizing w with
  | nil => exact .nil within.single
  | cons e rest ih =>
      obtain ⟨a, line⟩ := e
      obtain ⟨first, hascending⟩ := List.pairwise_cons.1 ascending
      obtain ⟨⟨haddress, hnow⟩, hrestFits⟩ := List.forall_mem_cons.1 fits
      obtain ⟨hallowed, hrestAllowed⟩ := List.forall_mem_cons.1 allowed
      obtain rfl : line.link.address = a := haddress
      have hhead := (moves line).leads hnow within hallowed
      have hrest := ih (w := Function.update w line.link.address (step line).1.transport)
        hascending (fun e he => ?_) (within.update hallowed _) hrestAllowed
      · rw [List.flatMap_cons, ofLinks, List.map_append, transportsAfter_cons _ first]
        exact hhead.append hrest
      · -- The addresses ascend, so the lines that follow still find the transports as they were.
        have hne : e.1 ≠ line.link.address := by
          intro heq
          have hlt := first e he
          simp [heq] at hlt
        rw [Function.update_of_ne hne]
        exact hrestFits e he

theorem Sound.leads_lines (h : b.Sound) {step : Line → Link × List LinkAction}
    (moves : ∀ line : Line, line.link.Moves (step line).2 (step line).1)
    (within : b.transports.Within room) (allowed : ∀ a ∈ b.lines.keys, a.Allowed room) :
    Leads b.transports (ofLinks (b.lines.values.flatMap fun line => (step line).2))
      (transportsAfter b.transports (fun line => (step line).1) b.lines.entries) := by
  rw [Table.values, List.flatMap_map]
  refine leads_all moves b.lines.ascending (fun e he => ?_) within
    fun e he => allowed _ (List.mem_map_of_mem he)
  have hline := Table.find?_eq_some_iff.2 he
  exact ⟨(h _ _ hline).address, transports_of_line hline⟩

theorem Sound.tick_leads (h : b.Sound) (now : Instant) (within : b.transports.Within room)
    (allowed : ∀ a ∈ b.lines.keys, a.Allowed room) :
    Leads b.transports (ofLinks (b.tick now).2) (b.tick now).1.transports := by
  have hleads := h.leads_lines (fun line => line.link.tick_moves now) within allowed
  have hafter : transportsAfter b.transports (fun line => (line.link.tick now).1)
      b.lines.entries = (b.tick now).1.transports := by
    funext a
    show ((b.lines.find? a).map _).getD _ = _
    cases hline : b.lines.find? a <;>
      simp [transports, link?, tick, Table.find?_map, hline]
  rwa [hafter] at hleads

theorem Sound.closeAll_leads (h : b.Sound) (within : b.transports.Within room)
    (allowed : ∀ a ∈ b.lines.keys, a.Allowed room) :
    Leads b.transports (ofLinks b.closeAll.2) b.closeAll.1.transports := by
  have hleads := h.leads_lines (fun line => line.link.close_moves) within allowed
  have hafter : transportsAfter b.transports (fun line => line.link.close.1)
      b.lines.entries = b.closeAll.1.transports := by
    funext a
    show ((b.lines.find? a).map _).getD _ = Transport.idle
    cases hline : b.lines.find? a with
    | none => exact transports_of_none hline
    | some line => exact line.link.close_transport
  rwa [hafter] at hleads

end Switchboard

end LiveChat
