import LiveChat.Proofs.Channel.Lifecycle
import LiveChat.Proofs.Channel.Standing

/-!
# Links stand alone

A switchboard keeps the links of different addresses apart. The link that is held for an address is
in the state of a lone link that was started when its first holder came and did since then what was
asked of this address. Links come with their first holder, and go with their last one or when all
are closed.
-/

namespace LiveChat

namespace LinkAction

def address : LinkAction → Address
  | .opening a | .closing a | .sending a _ => a

def on (a : Address) (actions : List LinkAction) : List LinkAction :=
  actions.filter (·.address = a)

variable {a a' : Address} {actions : List LinkAction}

theorem on_same (h : ∀ x ∈ actions, x.address = a) : on a actions = actions :=
  List.filter_eq_self.2 fun x hx => decide_eq_true (h x hx)

theorem on_other (h : ∀ x ∈ actions, x.address = a') (hne : a' ≠ a) : on a actions = [] :=
  List.filter_eq_nil_iff.2 fun x hx => by
    rw [h x hx]
    simpa using hne

end LinkAction

namespace Link

variable {l l' : Link} {e e' : Entropy} {op : Operation} {asked : List LinkAction}

theorem Moves.address (h : l.Moves asked l') : ∀ x ∈ asked, x.address = l.address := by
  cases h with
  | quiet => exact nofun
  | sends frames =>
      intro x hx
      obtain ⟨f, -, rfl⟩ := List.mem_map.1 hx
      rfl
  | opens | closes =>
      intro x hx
      rw [List.mem_singleton.1 hx]
      rfl

/-- A link asks only for its own address, which it keeps, as it keeps its settings. -/
theorem perform_own (ok : l.perform e op = .ok (l', e', asked)) :
    (l'.address = l.address ∧ l'.settings = l.settings) ∧ ∀ x ∈ asked, x.address = l.address := by
  cases op with
  | lost now =>
      obtain ⟨hlost, rfl⟩ := perform_lost ok
      exact ⟨⟨(lost_alike hlost).address, (lost_alike hlost).settings⟩, nofun⟩
  | opened now =>
      cases ok
      have halike := l.opened_alike now
      exact ⟨⟨halike.address, halike.settings⟩,
        fun x hx => ((l.opened_moves now).address x hx).trans halike.address⟩
  | tick now =>
      cases ok
      exact ⟨⟨(l.tick_alike now).address, (l.tick_alike now).settings⟩,
        (l.tick_moves now).address⟩
  | start =>
      cases ok
      refine ⟨?_, l.start_moves.address⟩
      unfold start
      split <;> exact ⟨rfl, rfl⟩
  | close =>
      cases ok
      refine ⟨?_, l.close_moves.address⟩
      unfold close
      split <;> exact ⟨rfl, rfl⟩
  | keep f =>
      cases ok
      exact ⟨⟨rfl, rfl⟩, nofun⟩
  | send f =>
      cases ok
      refine ⟨⟨rfl, rfl⟩, fun x hx => ?_⟩
      unfold send at hx
      split at hx
      · rw [List.mem_singleton.1 hx]
        rfl
      · cases hx

/-- Without jitter nothing is drawn and nothing fails. -/
theorem perform_steady (steady : l.settings.retry.jitterPercent = 0) (op : Operation) :
    ∃ l' asked, ∀ e, l.perform e op = .ok (l', e, asked) := by
  cases op with
  | lost now =>
      have hlost : ∃ l', ∀ e, l.lost now e = .ok (l', e) := by
        unfold lost
        cases l.phase with
        | down | waiting => exact ⟨l, fun _ => rfl⟩
        | opening | live =>
            simp only [Retry.delay_of_steady steady]
            exact ⟨_, fun _ => rfl⟩
      obtain ⟨l', hlost⟩ := hlost
      exact ⟨l', [], fun e => by rw [perform, hlost]; rfl⟩
  | start | opened | send | keep | close | tick => exact ⟨_, _, fun _ => rfl⟩

end Link

namespace Switchboard

inductive Operation where
  | acquire (a : Address)
  | release (a : Address)
  | opened (a : Address) (now : Instant)
  | lost (a : Address) (now : Instant)
  | send (a : Address) (f : ClientFrame)
  | keep (a : Address) (f : ClientFrame)
  | tick (now : Instant)
  | closeAll
  deriving DecidableEq

abbrev Answer := Except Error (List LinkAction)

/-- Performs one operation; one that is refused changes nothing. -/
def perform (b : Switchboard) (e : Entropy) :
    Operation → Except Fault (Switchboard × Entropy × Answer)
  | .acquire a => .ok ((b.acquire a).1, e, .ok (b.acquire a).2)
  | .release a =>
    match b.release a with
    | .ok (b', actions) => .ok (b', e, .ok actions)
    | .error error => .ok (b, e, .error error)
  | .opened a now => .ok ((b.opened a now).1, e, .ok (b.opened a now).2)
  | .lost a now => do
    let (b', e') ← b.lost a now e
    .ok (b', e', .ok [])
  | .send a f => .ok (b, e, .ok (b.send a f))
  | .keep a f =>
    match b.keep a f with
    | .ok b' => .ok (b', e, .ok [])
    | .error error => .ok (b, e, .error error)
  | .tick now => .ok ((b.tick now).1, e, .ok (b.tick now).2)
  | .closeAll => .ok (b.closeAll.1, e, .ok b.closeAll.2)

abbrev Turn := Channel.Turn Switchboard Operation Answer

def Operation.address? : Operation → Option Address
  | .acquire a | .release a | .opened a _ | .lost a _ | .send a _ | .keep a _ => some a
  | .tick _ | .closeAll => none

def Operation.reaches (a : Address) (op : Operation) : Bool := op.address?.all (· = a)

/-- What an operation does to a link that it reaches and that stays held. -/
def Operation.work? : Operation → Option Link.Operation
  | .opened _ now => some (.opened now)
  | .lost _ now => some (.lost now)
  | .send _ f => some (.send f)
  | .keep _ f => some (.keep f)
  | .tick now => some (.tick now)
  | .acquire _ | .release _ | .closeAll => none

def Operation.onLink (a : Address) (op : Operation) : Option Link.Operation :=
  if op.reaches a then op.work? else none

/-- What an answer asks of the transport of an address. -/
def asks (a : Address) : Answer → List LinkAction
  | .ok actions => LinkAction.on a actions
  | .error _ => []

/-- The turns since an address was last not held. -/
def stay (a : Address) (log : List Turn) : List Turn :=
  log.rtakeWhile fun t => (t.after.link? a).isSome

/-- What a switchboard makes sure of for the line under an address, whatever is kept on its link. -/
structure Stands (settings : LinkSettings) (a : Address) (line : Line) : Prop where
  held : 0 < line.holders
  address : line.link.address = a
  settings : line.link.settings = settings
  up : line.link.phase ≠ .down

def AllStand (b : Switchboard) : Prop :=
  ∀ a line, b.lines.find? a = some line → Stands b.settings a line

variable {b b' : Switchboard} {a : Address} {e e' : Entropy} {op : Operation} {answer : Answer}

/-- What one operation means for one address. -/
inductive Serves (a : Address) (b : Switchboard) (e : Entropy) (op : Operation) (e' : Entropy)
    (answer : Answer) (b' : Switchboard) : Prop
  /-- Nobody holds the address. -/
  | away (absent : b.lines.find? a = none) (still : b'.lines.find? a = none)
  /-- The first holder comes. -/
  | comes (takes : op = .acquire a) (absent : b.lines.find? a = none)
      (line : b'.lines.find? a = some ⟨(Link.new a b.settings).start.1, 1⟩)
      (asked : answer = .ok [.opening a])
  | more (line : Line) (takes : op = .acquire a) (held : b.lines.find? a = some line)
      (counted : b'.lines.find? a = some { line with holders := line.holders + 1 })
      (quiet : answer = .ok [])
  | fewer (line : Line) (drops : op = .release a) (held : b.lines.find? a = some line)
      (others : 1 < line.holders)
      (counted : b'.lines.find? a = some { line with holders := line.holders - 1 })
      (quiet : answer = .ok [])
  /-- The link is closed and forgotten. -/
  | goes (line : Line) (held : b.lines.find? a = some line)
      (ends : op = .release a ∧ line.holders = 1 ∨ op = .closeAll)
      (absent : b'.lines.find? a = none) (asked : asks a answer = line.link.close.2)
  | works (line : Line) (link : Link) (does : Link.Operation) (asked : List LinkAction)
      (held : b.lines.find? a = some line) (reaches : op.onLink a = some does)
      (done : line.link.perform e does = .ok (link, e', asked))
      (kept : b'.lines.find? a = some { line with link }) (told : asks a answer = asked)
  /-- The operation is about another address. -/
  | elsewhere (line : Line) (held : b.lines.find? a = some line)
      (kept : b'.lines.find? a = some line) (passes : op.reaches a = false)
      (silent : asks a answer = [])

/-- What one operation means for the address that it names, and nothing for the other ones. -/
structure Names (a : Address) (b : Switchboard) (e : Entropy) (op : Operation) (e' : Entropy)
    (answer : Answer) (b' : Switchboard) : Prop where
  serves : Serves a b e op e' answer b'
  others : ∀ a', a ≠ a' → b'.lines.find? a' = b.lines.find? a' ∧ asks a' answer = []

theorem setLink_self {line : Line} (h : b.lines.find? a = some line) :
    b.setLink a line line.link = b := by
  have hsame : b.lines.insert a line = b.lines := Table.ext_find? fun k => by
    rw [Table.find?_insert]
    split
    · next heq => rw [heq, h]
    · rfl
  unfold setLink
  rw [hsame]

theorem names_of_absent (absent : b.lines.find? a = none)
    (own : ∀ actions, answer = .ok actions → ∀ x ∈ actions, x.address = a) :
    Names a b e op e answer b where
  serves := .away absent absent
  others a' hne := by
    refine ⟨rfl, ?_⟩
    cases answer with
    | error => rfl
    | ok actions => exact LinkAction.on_other (own actions rfl) hne

theorem names_of_refused {error : Error} (absent : b.lines.find? a = none) :
    Names a b e op e (.error error) b :=
  names_of_absent absent fun _ h => by cases h

theorem names_of_work {line : Line} {link : Link} {asked : List LinkAction}
    (does : Link.Operation) (held : b.lines.find? a = some line) (address : line.link.address = a)
    (names : op.address? = some a) (works : op.work? = some does)
    (done : line.link.perform e does = .ok (link, e', asked)) :
    Names a b e op e' (.ok asked) (b.setLink a line link) := by
  have hown : ∀ x ∈ asked, x.address = a := fun x hx =>
    ((Link.perform_own done).2 x hx).trans address
  have reaches : op.onLink a = some does := by
    simp [Operation.onLink, Operation.reaches, names, works]
  constructor
  · refine .works line link does asked held reaches done ?_ (LinkAction.on_same hown)
    rw [setLink, Table.find?_insert, if_pos rfl]
  · intro a' hne
    rw [setLink, Table.find?_insert, if_neg hne.symm]
    exact ⟨rfl, LinkAction.on_other hown hne⟩

theorem acquire_names : Names a b e (.acquire a) e (.ok (b.acquire a).2) (b.acquire a).1 := by
  unfold acquire
  cases hline : b.lines.find? a with
  | some line =>
      refine ⟨.more line rfl hline ?_ rfl, fun a' hne => ⟨?_, rfl⟩⟩
      · simp [Table.find?_insert]
      · simp [Table.find?_insert, hne.symm]
  | none =>
      refine ⟨.comes rfl hline ?_ rfl, fun a' hne => ⟨?_, ?_⟩⟩
      · simp [Table.find?_insert]
      · simp [Table.find?_insert, hne.symm]
      · exact LinkAction.on_other (Link.new a b.settings).start_moves.address hne

theorem release_names (h : b.AllStand) (ok : b.perform e (.release a) = .ok (b', e', answer)) :
    Names a b e (.release a) e' answer b' := by
  rw [perform] at ok
  split at ok
  · next hrelease =>
    cases ok
    obtain ⟨line, hline, ⟨others, rfl, rfl⟩ | ⟨last, rfl, rfl⟩⟩ := release_cases hrelease
    · refine ⟨.fewer line rfl hline others ?_ rfl, fun a' hne => ⟨?_, rfl⟩⟩
      · simp [Table.find?_insert]
      · simp [Table.find?_insert, hne.symm]
    · have held : 0 < line.holders := (h a line hline).held
      have hown : ∀ x ∈ line.link.close.2, x.address = a := fun x hx =>
        (line.link.close_moves.address x hx).trans (h a line hline).address
      refine ⟨.goes line hline (.inl ⟨rfl, by omega⟩) ?_ (LinkAction.on_same hown),
        fun a' hne => ⟨?_, LinkAction.on_other hown hne⟩⟩
      · simp [Table.find?_erase]
      · simp [Table.find?_erase, hne.symm]
  · next hrelease =>
    cases ok
    exact names_of_refused (release_error hrelease).1

theorem opened_names (h : b.AllStand) (now : Instant) :
    Names a b e (.opened a now) e (.ok (b.opened a now).2) (b.opened a now).1 := by
  unfold opened
  cases hline : b.lines.find? a with
  | none =>
      refine names_of_absent hline fun actions hactions x hx => ?_
      cases hactions
      rw [List.mem_singleton.1 hx]
      rfl
  | some line =>
      exact names_of_work (.opened now) hline (h a line hline).address rfl rfl rfl

theorem lost_names (h : b.AllStand) {now : Instant}
    (ok : b.perform e (.lost a now) = .ok (b', e', answer)) :
    Names a b e (.lost a now) e' answer b' := by
  obtain ⟨⟨b₁, e₁⟩, hlost, hanswer⟩ := bind_eq_ok.1 ok
  cases hanswer
  rcases lost_cases hlost with ⟨hline, rfl, rfl⟩ | ⟨line, link, hline, hlink, rfl⟩
  · exact names_of_absent hline (by rintro _ ⟨⟩; exact nofun)
  · exact names_of_work (.lost now) hline (h a line hline).address rfl rfl
      (by rw [Link.perform, hlink]; rfl)

theorem send_names (h : b.AllStand) (f : ClientFrame) :
    Names a b e (.send a f) e (.ok (b.send a f)) b := by
  unfold send
  cases hline : b.lines.find? a with
  | none => exact names_of_absent hline (by rintro _ ⟨⟩; exact nofun)
  | some line =>
      have hwork : Names a b e (.send a f) e (.ok (line.link.send f))
          (b.setLink a line line.link) :=
        names_of_work (.send f) hline (h a line hline).address rfl rfl rfl
      rwa [setLink_self hline] at hwork

theorem keep_names (h : b.AllStand) {f : ClientFrame}
    (ok : b.perform e (.keep a f) = .ok (b', e', answer)) :
    Names a b e (.keep a f) e' answer b' := by
  rw [perform] at ok
  split at ok
  · next hkeep =>
    cases ok
    obtain ⟨line, hline, rfl⟩ := keep_cases hkeep
    exact names_of_work (.keep f) hline (h a line hline).address rfl rfl rfl
  · next hkeep =>
    cases ok
    exact names_of_refused (keep_error hkeep).1

theorem tick_serves (h : b.AllStand) (now : Instant) (a : Address) :
    Serves a b e (.tick now) e (.ok (b.tick now).2) (b.tick now).1 := by
  have hasked : LinkAction.on a (b.tick now).2 =
      ((b.lines.find? a).map fun line => (line.link.tick now).2).getD [] :=
    Table.filter_flatMap_values fun k line hline x hx =>
      ((line.link.tick_moves now).address x hx).trans (h k line hline).address
  cases hline : b.lines.find? a with
  | none => exact .away hline (by simp [tick, Table.find?_map, hline])
  | some line =>
      rw [hline] at hasked
      exact .works line (line.link.tick now).1 (.tick now) _ hline rfl rfl
        (by simp [tick, Table.find?_map, hline]) hasked

theorem closeAll_serves (h : b.AllStand) (a : Address) :
    Serves a b e .closeAll e (.ok b.closeAll.2) b.closeAll.1 := by
  have hasked : LinkAction.on a b.closeAll.2 =
      ((b.lines.find? a).map fun line => line.link.close.2).getD [] :=
    Table.filter_flatMap_values fun k line hline x hx =>
      (line.link.close_moves.address x hx).trans (h k line hline).address
  cases hline : b.lines.find? a with
  | none => exact .away hline rfl
  | some line =>
      rw [hline] at hasked
      exact .goes line hline (.inr rfl) rfl hasked

theorem Names.serves_each {a' : Address} (h : Names a b e op e' answer b')
    (names : op.address? = some a) : Serves a' b e op e' answer b' := by
  by_cases heq : a = a'
  · exact heq ▸ h.serves
  · obtain ⟨hkept, hsilent⟩ := h.others a' heq
    cases hline : b.lines.find? a' with
    | none => exact .away hline (hkept.trans hline)
    | some line =>
        refine .elsewhere line hline (hkept.trans hline) ?_ hsilent
        simpa [Operation.reaches, names] using heq

theorem perform_serves (h : b.AllStand) (ok : b.perform e op = .ok (b', e', answer)) (a : Address) :
    Serves a b e op e' answer b' := by
  cases op with
  | acquire a' =>
      cases ok
      exact acquire_names.serves_each rfl
  | release a' => exact (release_names h ok).serves_each rfl
  | opened a' now =>
      cases ok
      exact (opened_names h now).serves_each rfl
  | lost a' now => exact (lost_names h ok).serves_each rfl
  | send a' f =>
      cases ok
      exact (send_names h f).serves_each rfl
  | keep a' f => exact (keep_names h ok).serves_each rfl
  | tick now =>
      cases ok
      exact tick_serves h now a
  | closeAll =>
      cases ok
      exact closeAll_serves h a

theorem perform_settings (ok : b.perform e op = .ok (b', e', answer)) :
    b'.settings = b.settings := by
  cases op with
  | acquire a =>
      cases ok
      exact acquire_settings
  | opened a now =>
      cases ok
      unfold opened
      split <;> rfl
  | lost a now =>
      obtain ⟨⟨b₁, e₁⟩, hlost, hanswer⟩ := bind_eq_ok.1 ok
      cases hanswer
      rcases lost_cases hlost with ⟨-, rfl, -⟩ | ⟨_, _, -, -, rfl⟩ <;> rfl
  | release a =>
      rw [perform] at ok
      split at ok
      · next hrelease =>
        cases ok
        obtain ⟨_, -, ⟨-, -, rfl⟩ | ⟨-, -, rfl⟩⟩ := release_cases hrelease <;> rfl
      · cases ok
        rfl
  | keep a f =>
      rw [perform] at ok
      split at ok
      · next hkeep =>
        cases ok
        obtain ⟨_, -, rfl⟩ := keep_cases hkeep
        rfl
      · cases ok
        rfl
  | send | tick | closeAll =>
      cases ok
      rfl

theorem call?_of_onLink {does : Link.Operation} (h : op.onLink a = some does) :
    does.call? = none := by
  unfold Operation.onLink at h
  split at h
  · cases op <;> cases h <;> rfl
  · cases h

theorem perform_stands (h : b.AllStand) (ok : b.perform e op = .ok (b', e', answer)) :
    b'.AllStand := by
  intro a line' hline
  rw [perform_settings ok]
  cases perform_serves h ok a with
  | away _ absent | goes _ _ _ absent =>
      rw [absent] at hline
      cases hline
  | comes _ _ hcomes =>
      rw [hcomes] at hline
      cases hline
      exact ⟨Nat.one_pos, rfl, rfl, nofun⟩
  | more line _ held counted =>
      rw [counted] at hline
      cases hline
      exact { h a line held with held := Nat.succ_pos _ }
  | fewer line _ held others counted =>
      rw [counted] at hline
      cases hline
      exact { h a line held with held := Nat.sub_pos_of_lt others }
  | elsewhere line held kept =>
      rw [kept] at hline
      cases hline
      exact h a _ held
  | works line link does asked held reaches done kept =>
      rw [kept] at hline
      cases hline
      obtain ⟨hholders, haddress, hsettings, hup⟩ := h a line held
      obtain ⟨⟨hsame, hset⟩, -⟩ := Link.perform_own done
      refine ⟨hholders, hsame.trans haddress, hset.trans hsettings, ?_⟩
      rw [Ne, Link.perform_down_iff done, call?_of_onLink reaches]
      exact hup

theorem perform_refused {error : Error} (ok : b.perform e op = .ok (b', e', .error error)) :
    b' = b := by
  cases op with
  | release a | keep a f =>
      rw [perform] at ok
      split at ok <;> cases ok
      rfl
  | lost a now =>
      obtain ⟨_, -, hanswer⟩ := bind_eq_ok.1 ok
      cases hanswer
  | acquire | opened | send | tick | closeAll => cases ok

/-- An address can be let go of unless nobody holds it. -/
theorem release_refused_iff (h : b.AllStand)
    (ok : b.perform e (.release a) = .ok (b', e', answer)) :
    answer = .error (.unknownAddress a) ↔ b.holders a = 0 := by
  rw [perform] at ok
  split at ok
  · next hrelease =>
    cases ok
    obtain ⟨line, hline, -⟩ := release_cases hrelease
    refine iff_of_false (fun h => by cases h) ?_
    simpa [holders, hline] using (h a line hline).held.ne'
  · next hrelease =>
    cases ok
    obtain ⟨hline, rfl⟩ := release_error hrelease
    simp [holders, hline]

/-- Without jitter no operation fails or draws a random word. -/
theorem perform_steady (h : b.AllStand) (steady : b.settings.retry.jitterPercent = 0)
    (op : Operation) : ∃ b' answer, ∀ e, b.perform e op = .ok (b', e, answer) := by
  cases op with
  | lost a now =>
      suffices hlost : ∃ b', ∀ e, b.lost a now e = .ok (b', e) by
        obtain ⟨b', hlost⟩ := hlost
        exact ⟨b', .ok [], fun e => by rw [perform, hlost]; rfl⟩
      unfold lost
      cases hline : b.lines.find? a with
      | none => exact ⟨b, fun _ => rfl⟩
      | some line =>
          rw [← (h a line hline).settings] at steady
          obtain ⟨link, asked, hperform⟩ := Link.perform_steady steady (.lost now)
          refine ⟨b.setLink a line link, fun e => ?_⟩
          dsimp only
          rw [(Link.perform_lost (hperform e)).1]
          rfl
  | release a =>
      simp only [perform]
      split <;> exact ⟨_, _, fun _ => rfl⟩
  | keep a f =>
      simp only [perform]
      split <;> exact ⟨_, _, fun _ => rfl⟩
  | acquire | opened | send | tick | closeAll => exact ⟨_, _, fun _ => rfl⟩

/-! ## One address in a run -/

def takes (a : Address) (t : Turn) : Bool := t.op = .acquire a

/-- Whether a holder of the address let go of it. -/
def drops (a : Address) (t : Turn) : Bool := t.op = .release a ∧ t.answer.isOk

/-- What a lone link is to do in place of the one that is held for an address. -/
def lonely (a : Address) (log : List Turn) : List Link.Operation :=
  .start :: (stay a log).filterMap fun t => t.op.onLink a

/-- What a log tells of an address and its link. -/
structure Follows (a : Address) (settings : LinkSettings) (log : List Turn) (b : Switchboard) :
    Prop where
  stands : b.AllStand
  uses : b.settings = settings
  absent : b.link? a = none → stay a log = []
  holders : b.holders a + (stay a log).countP (drops a) = (stay a log).countP (takes a)
  lone : ∀ l, b.link? a = some l → ∃ told, (∀ e,
    Channel.run Link.perform (.new a settings) e (lonely a log) = .ok (told, l, e)) ∧
      told.flatMap Channel.Turn.answer = (stay a log).flatMap fun t => asks a t.answer

variable {log : List Turn} {t : Turn} {settings : LinkSettings} {line line' : Line}

theorem stay_snoc_of_none (log : List Turn) (h : t.after.lines.find? a = none) :
    stay a (log ++ [t]) = [] := by
  unfold stay
  rw [List.rtakeWhile_concat, if_neg (by simp [link?, h])]

theorem stay_snoc_of_line (log : List Turn) (h : t.after.lines.find? a = some line) :
    stay a (log ++ [t]) = stay a log ++ [t] := by
  unfold stay
  rw [List.rtakeWhile_concat, if_pos (by simp [link?, h])]

theorem lonely_snoc_of_line (log : List Turn) (h : t.after.lines.find? a = some line) :
    lonely a (log ++ [t]) = lonely a log ++ (t.op.onLink a).toList := by
  unfold lonely
  rw [stay_snoc_of_line log h, List.filterMap_append, List.cons_append]
  cases hdoes : t.op.onLink a <;> simp [hdoes]

theorem follows_new (a : Address) (settings : LinkSettings) :
    Follows a settings [] (new settings) where
  stands := nofun
  uses := rfl
  absent _ := rfl
  holders := rfl
  lone := nofun

theorem onLink_of_idle (h : op.work? = none) : op.onLink a = none := by
  simp [Operation.onLink, h]

theorem does_nothing (l : Link) (idle : op.onLink a = none) (silent : asks a answer = []) :
    ∃ told, (∀ e, Channel.run Link.perform l e (op.onLink a).toList = .ok (told, l, e)) ∧
      told.flatMap Channel.Turn.answer = asks a answer :=
  ⟨[], fun e => by rw [idle]; rfl, silent.symm⟩

theorem Follows.stays (h : Follows a settings log b) (stands : b'.AllStand)
    (uses : b'.settings = settings) (held : b.lines.find? a = some line)
    (kept : b'.lines.find? a = some line')
    (counted : line'.holders + (if drops a ⟨b, op, answer, b'⟩ then 1 else 0) =
      line.holders + (if takes a ⟨b, op, answer, b'⟩ then 1 else 0))
    (does : ∃ told, (∀ e, Channel.run Link.perform line.link e (op.onLink a).toList =
      .ok (told, line'.link, e)) ∧ told.flatMap Channel.Turn.answer = asks a answer) :
    Follows a settings (log ++ [⟨b, op, answer, b'⟩]) b' := by
  have hstay := stay_snoc_of_line (t := ⟨b, op, answer, b'⟩) log kept
  refine ⟨stands, uses, fun hnone => by simp [link?, kept] at hnone, ?_, fun l hl => ?_⟩
  · have hbefore := h.holders
    have hline : b.holders a = line.holders := by simp [Switchboard.holders, held]
    have hline' : b'.holders a = line'.holders := by simp [Switchboard.holders, kept]
    rw [hstay, List.countP_append, List.countP_append, List.countP_singleton,
      List.countP_singleton, hline']
    omega
  · obtain rfl : line'.link = l := Option.some.inj ((link?_of_line kept).symm.trans hl)
    obtain ⟨told, hrun, htold⟩ := h.lone _ (link?_of_line held)
    obtain ⟨more, hmore, hasked⟩ := does
    refine ⟨told ++ more, fun e => ?_, ?_⟩
    · rw [lonely_snoc_of_line (t := ⟨b, op, answer, b'⟩) log kept]
      exact Channel.run_append (hrun e) (hmore e)
    · rw [hstay, List.flatMap_append, List.flatMap_append, htold, hasked]
      simp

theorem perform_follows (h : Follows a settings log b)
    (steady : settings.retry.jitterPercent = 0)
    (ok : b.perform e op = .ok (b', e', answer)) :
    Follows a settings (log ++ [⟨b, op, answer, b'⟩]) b' := by
  have hstands : b'.AllStand := perform_stands h.stands ok
  have huses : b'.settings = settings := (perform_settings ok).trans h.uses
  cases perform_serves h.stands ok a with
  | away _ absent | goes _ _ _ absent =>
      have hstay := stay_snoc_of_none (t := ⟨b, op, answer, b'⟩) log absent
      refine ⟨hstands, huses, fun _ => hstay, ?_, fun l hl => ?_⟩
      · simp [hstay, Switchboard.holders, absent]
      · simp [link?, absent] at hl
  | comes taken absent first asked =>
      subst taken asked
      have hstay := stay_snoc_of_line (t := ⟨b, .acquire a, .ok [.opening a], b'⟩) log first
      rw [h.absent (by simp [link?, absent])] at hstay
      refine ⟨hstands, huses, fun hnone => by simp [link?, first] at hnone, ?_, fun l hl => ?_⟩
      · simp [hstay, Switchboard.holders, first, drops, takes]
      · obtain rfl := Option.some.inj ((link?_of_line first).symm.trans hl)
        refine ⟨[⟨.new a settings, .start, [.opening a], (Link.new a settings).start.1⟩],
          fun e => ?_, ?_⟩
        · have hlonely : lonely a (log ++ [⟨b, .acquire a, .ok [.opening a], b'⟩]) = [.start] := by
            rw [lonely, hstay]
            simp [Operation.onLink, Operation.work?]
          rw [hlonely, ← h.uses]
          rfl
        · rw [hstay]
          simp [asks, LinkAction.on, LinkAction.address]
  | more line taken held counted quiet =>
      subst taken quiet
      exact h.stays hstands huses held counted (by simp [drops, takes])
        (does_nothing line.link (onLink_of_idle rfl) rfl)
  | fewer line dropped held others counted quiet =>
      subst dropped quiet
      refine h.stays hstands huses held counted ?_
        (does_nothing line.link (onLink_of_idle rfl) rfl)
      have hdrops : drops a ⟨b, .release a, .ok [], b'⟩ = true := by
        simp [drops, Except.isOk, Except.toBool]
      rw [hdrops]
      simp [takes]
      omega
  | elsewhere line held kept passes silent =>
      have hnone : op.onLink a = none := by simp [Operation.onLink, passes]
      refine h.stays hstands huses held kept ?_ (does_nothing line.link hnone silent)
      have hneither : op ≠ .release a ∧ op ≠ .acquire a := by
        constructor <;> rintro rfl <;> simp [Operation.reaches, Operation.address?] at passes
      simp [drops, takes, hneither]
  | works line link does asked held reaches done kept told =>
      have hneither : op ≠ .release a ∧ op ≠ .acquire a := by
        constructor <;> rintro rfl <;> simp [Operation.onLink, Operation.work?] at reaches
      have hsteady : line.link.settings.retry.jitterPercent = 0 := by
        rw [(h.stands a line held).settings, h.uses]
        exact steady
      obtain ⟨link', asked', hperform⟩ := Link.perform_steady hsteady does
      obtain ⟨rfl, -, rfl⟩ : link' = link ∧ e = e' ∧ asked' = asked := by
        simpa [hperform e] using done
      refine h.stays hstands huses held kept (by simp [drops, takes, hneither])
        ⟨[⟨line.link, does, asked', link'⟩], fun e => ?_, by simp [told]⟩
      rw [reaches]
      exact Channel.run_cons_eq_ok_iff.2 ⟨_, _, _, _, hperform e, rfl, rfl⟩

theorem run_steady (steady : settings.retry.jitterPercent = 0) (ops : List Operation) :
    ∃ log b, ∀ e, Channel.run perform (new settings) e ops = .ok (log, b, e) := by
  refine Channel.run_steady (I := fun b => b.AllStand ∧ b.settings = settings) ?_
    ⟨nofun, rfl⟩ ops
  rintro b op ⟨hstands, rfl⟩
  obtain ⟨b', answer, hperform⟩ := perform_steady hstands steady op
  have ok := hperform (.cycle [])
  exact ⟨b', answer, hperform, perform_stands hstands ok, perform_settings ok⟩

theorem run_follows (steady : settings.retry.jitterPercent = 0) {ops : List Operation}
    (ok : Channel.run perform (new settings) e ops = .ok (log, b, e')) (a : Address) :
    Follows a settings log b :=
  Channel.run_preserves (fun _ _ _ _ _ _ _ follows performed =>
    perform_follows follows steady performed) [] (follows_new a settings) ok

theorem turn_of_mem {ops : List Operation}
    (ok : Channel.run perform (new settings) e ops = .ok (log, b, e')) (ht : t ∈ log) :
    t.before.AllStand ∧ ∃ e₁ e₂, t.before.perform e₁ t.op = .ok (t.after, e₂, t.answer) := by
  obtain ⟨past, later, split⟩ := List.append_of_mem ht
  obtain ⟨e₁, e₂, hpast, hturn⟩ := Channel.run_split ok split
  have before : t.before.AllStand := Channel.run_preserves (I := fun _ b => b.AllStand)
    (fun _ _ _ _ _ _ _ stands performed => perform_stands stands performed) [] nofun hpast
  exact ⟨before, e₁, e₂, hturn⟩

/-- Links come with the first holder, and go with the last one or when all are closed. -/
theorem comes_or_goes (h : b.AllStand) (ok : b.perform e op = .ok (b', e', answer))
    (changed : (b.link? a).isSome ≠ (b'.link? a).isSome) :
    (op = .acquire a ∧ b.holders a = 0 ∧ answer = .ok [.opening a]) ∨
      (op = .release a ∧ b.holders a = 1 ∨ op = .closeAll) ∧
        ∃ l, b.link? a = some l ∧ asks a answer = l.close.2 := by
  rw [link?_isSome, link?_isSome] at changed
  cases perform_serves h ok a with
  | away absent still => simp [absent, still] at changed
  | comes taken absent _ asked => exact .inl ⟨taken, by simp [holders, absent], asked⟩
  | goes line held ends _ asked =>
      have hholders : b.holders a = line.holders := by simp [holders, held]
      rw [← hholders] at ends
      exact .inr ⟨ends, _, link?_of_line held, asked⟩
  | more _ _ held kept | fewer _ _ held _ kept | works _ _ _ _ held _ _ kept
  | elsewhere _ held kept => simp [held, kept] at changed

theorem AllStand.alive {l : Link} (h : b.AllStand) (held : b.link? a = some l) :
    l.phase.name = "Connecting" ∨ l.phase.name = "Connected" ∨
      l.phase.name = "Disconnected" ∧ l.retryArmed = true := by
  obtain ⟨line, hline, rfl⟩ := link?_eq_some held
  have hup := (h a line hline).up
  unfold Link.retryArmed Link.retryDelay?
  cases hphase : line.link.phase with
  | down => exact absurd hphase hup
  | waiting | opening | live => simp [Link.Phase.name]

/-- Whatever is done to a switchboard whose waits have no jitter, an address has as many holders as
came and did not let go of it, and only one that nobody holds cannot be let go of. What is refused
changes nothing. The link of an address that is held is in the state of a lone link that was
started, and it asks for what the lone link asks for; it is connected, being connected, or about to
be connected again. -/
theorem links_stand_alone (settings : LinkSettings) (steady : settings.retry.jitterPercent = 0)
    (e : Entropy) (ops : List Operation) :
    ∃ log b, Channel.run perform (new settings) e ops = .ok (log, b, e) ∧
      (∀ t ∈ log, ∀ error, t.answer = .error error → t.after = t.before) ∧
      ∀ a,
        b.holders a + (stay a log).countP (drops a) = (stay a log).countP (takes a) ∧
        (∀ t ∈ log, t.op = .release a →
          (t.answer = .error (.unknownAddress a) ↔ t.before.holders a = 0)) ∧
        (∀ t ∈ log, (t.before.link? a).isSome ≠ (t.after.link? a).isSome →
          (t.op = .acquire a ∧ t.before.holders a = 0 ∧ t.answer = .ok [.opening a]) ∨
            (t.op = .release a ∧ t.before.holders a = 1 ∨ t.op = .closeAll) ∧
              ∃ l, t.before.link? a = some l ∧ asks a t.answer = l.close.2) ∧
        ((b.link? a).isSome = true ↔ 0 < b.holders a) ∧
        ∀ l, b.link? a = some l →
          (∃ told, Channel.run Link.perform (.new a settings) e (lonely a log) =
              .ok (told, l, e) ∧
            told.flatMap Channel.Turn.answer = (stay a log).flatMap fun t => asks a t.answer) ∧
          (l.phase.name = "Connecting" ∨ l.phase.name = "Connected" ∨
            l.phase.name = "Disconnected" ∧ l.retryArmed = true) := by
  obtain ⟨log, b, ok⟩ := run_steady steady ops
  refine ⟨log, b, ok e, ?_, fun a => ?_⟩
  · intro t ht error herror
    obtain ⟨-, e₁, e₂, hturn⟩ := turn_of_mem (ok e) ht
    rw [herror] at hturn
    exact perform_refused hturn
  · have follows := run_follows steady (ok e) a
    have hheld : ∀ line, b.lines.find? a = some line → 0 < line.holders := fun line hline =>
      (follows.stands a line hline).held
    refine ⟨follows.holders, fun t ht hop => ?_, fun t ht changed => ?_,
      link?_isSome_iff hheld, fun l held => ⟨?_, follows.stands.alive held⟩⟩
    · obtain ⟨before, e₁, e₂, hturn⟩ := turn_of_mem (ok e) ht
      rw [hop] at hturn
      exact release_refused_iff before hturn
    · obtain ⟨before, e₁, e₂, hturn⟩ := turn_of_mem (ok e) ht
      exact comes_or_goes before hturn changed
    · obtain ⟨told, hrun, htold⟩ := follows.lone l held
      exact ⟨told, hrun e, htold⟩

/-- One address is held twice, let go of once, lost and opened again; another one is let go of while
its transport opens, and once more than it was held. -/
theorem held_link_is_lone_link :
    let settings : LinkSettings := ⟨.ofSeconds 30, .fixed (.ofSeconds 3)⟩
    let gone : Address := .room ⟨1, 2⟩
    let ops : List Operation := [.acquire .global, .acquire gone, .opened .global (.ofSeconds 1),
      .acquire .global, .release .global, .lost .global (.ofSeconds 2), .release gone,
      .opened gone (.ofSeconds 3), .release gone, .tick (.ofSeconds 5)]
    ∃ log b l told, Channel.run perform (new settings) (.cycle []) ops = .ok (log, b, .cycle []) ∧
      b.holders .global = 1 ∧ b.link? .global = some l ∧ b.link? gone = none ∧
      Channel.run Link.perform (.new .global settings) (.cycle [])
        [.start, .opened (.ofSeconds 1), .lost (.ofSeconds 2), .tick (.ofSeconds 5)] =
          .ok (told, l, .cycle []) ∧
      ∃ t ∈ log, t.op = .release gone ∧ t.answer = .error (.unknownAddress gone) ∧
        t.after = t.before := by
  intro settings gone ops
  obtain ⟨log, b, ok, refused, follows⟩ := links_stand_alone settings rfl (.cycle []) ops
  have hends : (Channel.run perform (new settings) (.cycle []) ops).toOption.map
      (fun (log, b, _) => (b.holders .global, b.holders gone, lonely .global log,
        (log[8]?.map fun t => (t.op, t.before.holders gone)))) =
      some (1, 0, [.start, .opened (.ofSeconds 1), .lost (.ofSeconds 2), .tick (.ofSeconds 5)],
        some (.release gone, 0)) := by decide +kernel
  rw [ok] at hends
  obtain ⟨hone, hnone, hlonely, hturn⟩ : _ ∧ _ ∧ _ ∧ _ := by simpa [Except.toOption] using hends
  obtain ⟨t, ht, hop, hholders⟩ := hturn
  obtain ⟨-, -, -, hheld, hlone⟩ := follows .global
  obtain ⟨-, hunknown, -, hgone, -⟩ := follows gone
  obtain ⟨l, hl⟩ := Option.isSome_iff_exists.1 (hheld.2 (by omega))
  obtain ⟨⟨told, hrun, -⟩, -⟩ := hlone l hl
  have hmem : t ∈ log := List.mem_of_getElem? ht
  have hanswer := (hunknown t hmem hop).2 hholders
  refine ⟨log, b, l, told, ok, hone, hl, ?_, hlonely ▸ hrun, t, hmem, hop, hanswer,
    refused t hmem _ hanswer⟩
  rw [← Option.not_isSome_iff_eq_none, hgone]
  omega

end Switchboard

end LiveChat
