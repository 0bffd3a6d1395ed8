import LiveChat.Proofs.Channel.Run
import LiveChat.Proofs.Channel.Transport
import Mathlib.Data.List.DropRight

/-!
# The life of a link

What a log says of the owner's calls and of the transport's news decides whether a link waits to be
opened again and how many failures it counts; once closed it asks for nothing until it is started.

The type of a link ties its timers to its phase. A loose link keeps them apart and tests after each
change that they still fit together. It does what the link does, so the tests never fail.
-/

namespace LiveChat

namespace Link

inductive Operation where
  | start
  | opened (now : Instant)
  | lost (now : Instant)
  | send (f : ClientFrame)
  | keep (f : ClientFrame)
  | close
  | tick (now : Instant)
  deriving DecidableEq

/-- Starting and closing are the owner's calls. -/
def Operation.call? : Operation → Option Operation
  | .start => some .start
  | .close => some .close
  | _ => none

def perform (l : Link) (e : Entropy) : Operation → Except Fault (Link × Entropy × List LinkAction)
  | .start => .ok (l.start.1, e, l.start.2)
  | .opened now => .ok ((l.opened now).1, e, (l.opened now).2)
  | .lost now => do
    let (l', e') ← l.lost now e
    .ok (l', e', [])
  | .send f => .ok (l, e, l.send f)
  | .keep f => .ok (l.keep f, e, [])
  | .close => .ok (l.close.1, e, l.close.2)
  | .tick now => .ok ((l.tick now).1, e, (l.tick now).2)

abbrev Turn := Channel.Turn Link Operation (List LinkAction)

/-- The owner's last call. -/
def lastCall (log : List Turn) : Option Operation :=
  (log.filterMap fun t => t.op.call?).getLast?

/-- Whether the news that the transport is open took effect. -/
def comesUp (t : Turn) : Bool :=
  match t.op with
  | .opened _ => t.after ≠ t.before
  | _ => false

/-- Whether the news that the transport is gone took effect. -/
def fails (t : Turn) : Bool :=
  match t.op with
  | .lost _ => t.after ≠ t.before
  | _ => false

/-- How often the link has failed since it last came up. -/
def failuresIn (log : List Turn) : Nat := (log.rtakeWhile fun t => !comesUp t).countP fails

variable {l l' : Link} {e e' : Entropy} {op : Operation} {asked : List LinkAction}
  {log past : List Turn} {t : Turn}

theorem lastCall_snoc : lastCall (log ++ [t]) = t.op.call?.or (lastCall log) := by
  unfold lastCall
  rw [List.filterMap_append]
  cases hcall : t.op.call? <;> simp [hcall]

theorem failuresIn_snoc : failuresIn (log ++ [t]) =
    if comesUp t then 0 else if fails t then failuresIn log + 1 else failuresIn log := by
  unfold failuresIn
  rw [List.rtakeWhile_concat]
  cases hup : comesUp t with
  | true => simp
  | false => cases hfails : fails t <;> simp [List.countP_append, hfails]

/-! ## What one operation does -/

theorem perform_lost {now : Instant} (ok : l.perform e (.lost now) = .ok (l', e', asked)) :
    l.lost now e = .ok (l', e') ∧ asked = [] := by
  obtain ⟨⟨last, e₁⟩, hlost, hresult⟩ := bind_eq_ok.1 ok
  cases hresult
  exact ⟨hlost, rfl⟩

/-- Only the owner's calls bring a link down and back. -/
theorem perform_down_iff (ok : l.perform e op = .ok (l', e', asked)) :
    l'.phase = .down ↔ op.call?.elim (l.phase = .down) (· = .close) := by
  cases op with
  | lost now =>
      rcases lost_cases (perform_lost ok).1 with ⟨-, rfl, -⟩ | ⟨hbusy, delay, -, rfl⟩
      · exact Iff.rfl
      · have hup : l.phase ≠ .down := fun h => by simp [isLive, h] at hbusy
        exact iff_of_false Phase.noConfusion hup
  | start | opened | close | tick =>
      cases ok
      cases hphase : l.phase <;>
        simp [Operation.call?, start, opened, close, tick, hphase] <;> split <;> simp [hphase]
  | send | keep =>
      cases ok
      exact Iff.rfl

theorem perform_failures (ok : l.perform e op = .ok (l', e', asked)) :
    l'.failures = if comesUp ⟨l, op, asked, l'⟩ then 0
      else if fails ⟨l, op, asked, l'⟩ then min (l.failures + 1) maxFailures else l.failures := by
  cases op with
  | lost now =>
      rcases lost_cases (perform_lost ok).1 with ⟨-, rfl, -⟩ | ⟨hbusy, delay, -, rfl⟩
      · simp [comesUp, fails]
      · have hnew : l.phase ≠ .waiting now delay := fun h => by simp [isLive, h] at hbusy
        have hchanged : { l with
            phase := .waiting now delay, failures := min (l.failures + 1) maxFailures } ≠ l :=
          fun h => hnew (congrArg Link.phase h).symm
        simp [comesUp, fails, hchanged]
  | opened now =>
      cases ok
      cases hphase : l.phase with
      | opening =>
          have hchanged : { l with phase := .live now, failures := 0 } ≠ l := fun h => by
            have := congrArg Link.phase h
            simp [hphase] at this
          simp [comesUp, opened, hphase, hchanged]
      | down | waiting | live => simp [comesUp, fails, opened, hphase]
  | start | close | tick =>
      cases ok
      cases hphase : l.phase <;> simp [comesUp, fails, start, close, tick, hphase] <;>
        split <;> rfl
  | send | keep =>
      cases ok
      rfl

/-- A link that is down asks for nothing but when it is started. -/
theorem perform_of_down (down : l.phase = .down) (unstarted : op ≠ .start)
    (ok : l.perform e op = .ok (l', e', asked)) : asked = [] := by
  cases op with
  | start => exact absurd rfl unstarted
  | lost now => exact (perform_lost ok).2
  | opened | close | tick | send =>
      cases ok
      simp [opened, close, tick, send, isLive, down]
  | keep =>
      cases ok
      rfl

theorem perform_error {f : Fault} (h : l.perform e op = .error f) : f = .overflow := by
  cases op with
  | lost now =>
      cases hlost : l.lost now e with
      | ok pair =>
          rw [perform, hlost] at h
          cases h
      | error g =>
          rw [perform, hlost] at h
          cases h
          exact lost_error hlost
  | start | opened | send | keep | close | tick => cases h

/-! ## What a log tells of the link -/

structure Keeps (log : List Turn) (l : Link) : Prop where
  down : l.phase = .down ↔ lastCall log ≠ some .start
  failures : l.failures = min (failuresIn log) maxFailures

theorem keeps_new (a : Address) (settings : LinkSettings) : Keeps [] (new a settings) :=
  ⟨by simp [new, lastCall], by simp [new, failuresIn]⟩

theorem call?_eq_start_or_close {call : Operation} (h : op.call? = some call) :
    call = .start ∨ call = .close := by
  cases op with
  | start =>
      cases h
      exact .inl rfl
  | close =>
      cases h
      exact .inr rfl
  | opened | lost | send | keep | tick => cases h

theorem Keeps.perform (h : Keeps log l) (ok : l.perform e op = .ok (l', e', asked)) :
    Keeps (log ++ [⟨l, op, asked, l'⟩]) l' := by
  constructor
  · rw [perform_down_iff ok, lastCall_snoc]
    cases hcall : op.call? with
    | none => simpa [hcall] using h.down
    | some call =>
        rcases call?_eq_start_or_close hcall with rfl | rfl <;> simp
  · rw [perform_failures ok, failuresIn_snoc, h.failures]
    split
    · simp
    · split <;> omega

theorem Keeps.run (h : Keeps past l) {ops : List Operation}
    (ok : Channel.run Link.perform l e ops = .ok (log, l', e')) : Keeps (past ++ log) l' :=
  Channel.run_preserves (fun _ _ _ _ _ _ _ keeps performed => keeps.perform performed) past h ok

theorem beatArmed_iff (l : Link) : l.beatArmed = true ↔ l.phase.name = "Connected" := by
  unfold beatArmed isLive
  cases l.phase <;> simp [Phase.name]

theorem Keeps.retryArmed_iff (h : Keeps log l) :
    l.retryArmed = true ↔ l.phase.name = "Disconnected" ∧ lastCall log = some .start := by
  have hstarted : lastCall log = some .start ↔ l.phase ≠ .down := by rw [Ne, h.down, not_not]
  rw [hstarted]
  unfold retryArmed retryDelay?
  cases l.phase <;> simp [Phase.name]

/-- Whether the owner's last call was to close the link. -/
def closedIn (log : List Turn) : Bool := lastCall log = some .close

theorem closedIn_snoc (log : List Turn) (t : Turn) :
    closedIn (log ++ [t]) = t.op.call?.elim (closedIn log) (· = .close) := by
  unfold closedIn
  rw [lastCall_snoc]
  cases t.op.call? with
  | none => rfl
  | some call => simp

theorem Keeps.down_of_closedIn (h : Keeps log l) (closed : closedIn log = true) :
    l.phase = .down := by
  have hclosed : lastCall log = some .close := of_decide_eq_true closed
  rw [h.down, hclosed]
  decide

end Link

/-! ## Timers apart from the phase -/

namespace LooseLink

inductive Status where
  | disconnected
  | connecting
  | connected
  deriving DecidableEq, Repr

end LooseLink

/-- A link whose timers are no part of its phase, and which remembers that its owner closed it. -/
structure LooseLink where
  address : Address
  settings : LinkSettings
  status : LooseLink.Status
  beatAt : Option Instant
  retry : Option (Instant × Duration)
  failures : Nat
  closedByOwner : Bool
  standing : Table String ClientFrame
  deriving DecidableEq, Repr

namespace LooseLink

def new (a : Address) (settings : LinkSettings) : LooseLink :=
  ⟨a, settings, .disconnected, none, none, 0, false, .empty⟩

/-- The link, if its timers fit its status. -/
def check (l : LooseLink) : Except Fault LooseLink :=
  if l.beatAt.isSome ∧ l.retry.isSome then
    .error (.violation ("heartbeat and retry armed together on " ++ l.address.text))
  else if l.beatAt.isSome ∧ l.status ≠ .connected then
    .error (.violation ("heartbeat armed without a connection on " ++ l.address.text))
  else if l.retry.isSome ∧ l.status ≠ .disconnected then
    .error (.violation ("retry armed on a connection on " ++ l.address.text))
  else .ok l

def start (l : LooseLink) : Except Fault (LooseLink × List LinkAction) :=
  if l.status ≠ .disconnected then .ok (l, [])
  else do
    let l ← { l with closedByOwner := false, retry := none, status := .connecting }.check
    .ok (l, [.opening l.address])

def opened (l : LooseLink) (now : Instant) : Except Fault (LooseLink × List LinkAction) :=
  if l.status ≠ .connecting then .ok (l, [])
  else do
    let l ← { l with status := .connected, failures := 0, beatAt := some now }.check
    .ok (l, l.standing.values.map (.sending l.address))

def lost (l : LooseLink) (now : Instant) (e : Entropy) : Except Fault (LooseLink × Entropy) :=
  if l.closedByOwner ∨ l.status = .disconnected then .ok (l, e)
  else
    let failures := min (l.failures + 1) Link.maxFailures
    match l.settings.retry.delay failures e with
    | (.ok delay, e) => do
      let l ← { l with
        status := .disconnected, beatAt := none, retry := some (now, delay), failures }.check
      .ok (l, e)
    | (.error fault, _) => .error fault

def send (l : LooseLink) (f : ClientFrame) : List LinkAction :=
  if l.status ≠ .connected then [] else [.sending l.address f]

def keep (l : LooseLink) (f : ClientFrame) : LooseLink :=
  { l with standing := l.standing.insert f.kind f }

def close (l : LooseLink) : Except Fault (LooseLink × List LinkAction) := do
  let asked := if l.status ≠ .disconnected then [.closing l.address] else []
  let l ← { l with
    closedByOwner := true, status := .disconnected, beatAt := none, retry := none }.check
  .ok (l, asked)

def beat (l : LooseLink) (now : Instant) : LooseLink × List LinkAction :=
  match l.beatAt with
  | some beatAt =>
    if l.settings.heartbeatEvery ≤ now - beatAt then
      ({ l with beatAt := some now }, [.sending l.address .heartbeat])
    else (l, [])
  | none => (l, [])

def tryAgain (l : LooseLink) (now : Instant) : LooseLink × List LinkAction :=
  match l.retry with
  | some (since, delay) =>
    if delay ≤ now - since then
      ({ l with retry := none, status := .connecting }, [.opening l.address])
    else (l, [])
  | none => (l, [])

def tick (l : LooseLink) (now : Instant) : Except Fault (LooseLink × List LinkAction) := do
  let (l, asked) := match l.status with
    | .connected => l.beat now
    | .disconnected => l.tryAgain now
    | .connecting => (l, [])
  let l ← l.check
  .ok (l, asked)

def perform (l : LooseLink) (e : Entropy) :
    Link.Operation → Except Fault (LooseLink × Entropy × List LinkAction)
  | .start => l.start.map fun (l, asked) => (l, e, asked)
  | .opened now => (l.opened now).map fun (l, asked) => (l, e, asked)
  | .lost now => (l.lost now e).map fun (l, e) => (l, e, [])
  | .send f => .ok (l, e, l.send f)
  | .keep f => .ok (l.keep f, e, [])
  | .close => l.close.map fun (l, asked) => (l, e, asked)
  | .tick now => (l.tick now).map fun (l, asked) => (l, e, asked)

end LooseLink

namespace Link

def status (l : Link) : LooseLink.Status :=
  match l.phase with
  | .down | .waiting _ _ => .disconnected
  | .opening => .connecting
  | .live _ => .connected

def beatAt (l : Link) : Option Instant :=
  match l.phase with
  | .live beatAt => some beatAt
  | _ => none

def retry (l : Link) : Option (Instant × Duration) :=
  match l.phase with
  | .waiting since delay => some (since, delay)
  | _ => none

/-- The link with its timers taken out of its phase. -/
def loose (l : Link) (closedByOwner : Bool) : LooseLink :=
  ⟨l.address, l.settings, l.status, l.beatAt, l.retry, l.failures, closedByOwner, l.standing⟩

variable {l : Link} {closed : Bool} {e : Entropy}

/-- The timers of a link fit its status. -/
theorem check_loose (l : Link) (closed : Bool) : (l.loose closed).check = .ok (l.loose closed) := by
  unfold LooseLink.check
  cases hphase : l.phase <;> simp [loose, status, beatAt, retry, hphase]

/-- What a loose link does and then checks. -/
theorem check_bind_ok {β : Type} {m : LooseLink} (l : Link) (closed : Bool)
    (h : m = l.loose closed) (f : LooseLink → β) :
    (m.check >>= fun m => .ok (f m)) = .ok (f (l.loose closed)) := by
  rw [h, check_loose]
  rfl

theorem eq_false_of_up (h : closed = true → l.phase = .down) (up : l.phase ≠ .down) :
    closed = false := Bool.eq_false_iff.2 fun hclosed => up (h hclosed)

theorem start_loose (h : closed = true → l.phase = .down) :
    (l.loose closed).start = .ok (l.start.1.loose false, l.start.2) := by
  unfold LooseLink.start
  cases hphase : l.phase with
  | down | waiting =>
      rw [if_neg (by simp [loose, status, hphase])]
      have hnext : { l.loose closed with
          closedByOwner := false, retry := none, status := .connecting } =
          l.start.1.loose false := by
        simp [loose, start, status, beatAt, retry, hphase]
      rw [check_bind_ok _ _ hnext]
      simp [loose, start, hphase]
  | opening | live =>
      rw [if_pos (by simp [loose, status, hphase]), eq_false_of_up h (by simp [hphase])]
      simp [start, hphase]

theorem opened_loose (now : Instant) :
    (l.loose closed).opened now = .ok ((l.opened now).1.loose closed, (l.opened now).2) := by
  unfold LooseLink.opened
  cases hphase : l.phase with
  | opening =>
      rw [if_neg (by simp [loose, status, hphase])]
      have hnext : { l.loose closed with status := .connected, failures := 0, beatAt := some now } =
          (l.opened now).1.loose closed := by
        simp [loose, opened, status, beatAt, retry, hphase]
      rw [check_bind_ok _ _ hnext]
      simp [loose, opened, hphase]
  | down | waiting | live =>
      rw [if_pos (by simp [loose, status, hphase])]
      simp [opened, hphase]

theorem lost_loose (h : closed = true → l.phase = .down) (now : Instant) :
    (l.loose closed).lost now e = (l.lost now e).map fun (l', e') => (l'.loose closed, e') := by
  unfold LooseLink.lost
  cases hphase : l.phase with
  | down | waiting =>
      rw [if_pos (by simp [loose, status, hphase])]
      simp [lost, hphase, Except.map]
  | opening | live =>
      have hopen : closed = false := eq_false_of_up h (by simp [hphase])
      rw [if_neg (by simp [loose, status, hphase, hopen]), lost, hphase]
      dsimp only [loose]
      rcases l.settings.retry.delay (min (l.failures + 1) maxFailures) e with ⟨fault | delay, e'⟩
      · rfl
      · exact check_bind_ok { l with
          phase := .waiting now delay, failures := min (l.failures + 1) maxFailures } _ rfl (·, e')

theorem close_loose : (l.loose closed).close = .ok (l.close.1.loose true, l.close.2) := by
  unfold LooseLink.close
  have hnext : { l.loose closed with
      closedByOwner := true, status := .disconnected, beatAt := none, retry := none } =
      l.close.1.loose true := by
    cases hphase : l.phase <;> simp [loose, close, status, beatAt, retry, hphase]
  dsimp only
  rw [check_bind_ok _ _ hnext]
  cases hphase : l.phase <;> simp [loose, close, status, hphase]

theorem tick_loose (now : Instant) :
    (l.loose closed).tick now = .ok ((l.tick now).1.loose closed, (l.tick now).2) := by
  have hticked : (match (l.loose closed).status with
      | .connected => (l.loose closed).beat now
      | .disconnected => (l.loose closed).tryAgain now
      | .connecting => (l.loose closed, [])) = ((l.tick now).1.loose closed, (l.tick now).2) := by
    cases hphase : l.phase with
    | down | opening =>
        simp [loose, tick, status, beatAt, retry, LooseLink.tryAgain, hphase]
    | live beatAt =>
        simp only [loose, tick, status, Link.beatAt, retry, LooseLink.beat, hphase]
        split <;> simp [hphase]
    | waiting since delay =>
        simp only [loose, tick, status, beatAt, retry, LooseLink.tryAgain, hphase]
        split <;> simp [hphase]
  unfold LooseLink.tick
  rw [hticked]
  exact check_bind_ok _ _ rfl fun m => (m, (l.tick now).2)

/-- A loose link does what the link does, and is closed by its owner from a close to a start. -/
theorem perform_loose (h : closed = true → l.phase = .down) (e : Entropy) (op : Operation) :
    (l.loose closed).perform e op = (l.perform e op).map fun (l', e', asked) =>
      (l'.loose (op.call?.elim closed (· = .close)), e', asked) := by
  cases op with
  | start => rw [LooseLink.perform, start_loose h]; rfl
  | opened now => rw [LooseLink.perform, opened_loose]; rfl
  | lost now =>
      rw [LooseLink.perform, lost_loose h, perform]
      cases l.lost now e <;> rfl
  | send f =>
      unfold LooseLink.perform LooseLink.send perform send
      cases hphase : l.phase <;> simp [loose, status, isLive, hphase, Except.map, Operation.call?]
  | keep f => rfl
  | close => rw [LooseLink.perform, close_loose]; rfl
  | tick now => rw [LooseLink.perform, tick_loose]; rfl

/-- Run side by side, the loose link answers as the link does. -/
theorem run_loose {past : List Turn} (h : Keeps past l) (ops : List Operation) :
    (Channel.run LooseLink.perform (l.loose (closedIn past)) e ops).map
        (fun (log, l', e') => (log.map Channel.Turn.answer, l', e')) =
      (Channel.run perform l e ops).map fun (log, l', e') =>
        (log.map Channel.Turn.answer, l'.loose (closedIn (past ++ log)), e') := by
  induction ops generalizing l e past with
  | nil => simp [Channel.run, Except.map]
  | cons op ops ih =>
      have hloose := perform_loose h.down_of_closedIn e op
      cases hperform : l.perform e op with
      | error f =>
          rw [hperform] at hloose
          rw [Channel.run_cons_of_error hperform, Channel.run_cons_of_error hloose]
          rfl
      | ok next =>
          obtain ⟨l', e', asked⟩ := next
          rw [hperform] at hloose
          have hrest := ih (e := e') (h.perform hperform)
          rw [closedIn_snoc] at hrest
          rw [Channel.run_cons_of_ok hperform, Channel.run_cons_of_ok hloose]
          revert hrest
          rcases Channel.run LooseLink.perform _ e' ops with f | ⟨log, m, e''⟩ <;>
            rcases Channel.run perform l' e' ops with g | ⟨log', l'', e₁⟩ <;>
            simp [Except.map]

/-- The checks of a loose link never fail. -/
theorem run_loose_error (a : Address) (settings : LinkSettings) (ops : List Operation) {f : Fault}
    (failed : Channel.run LooseLink.perform (.new a settings) e ops = .error f) :
    f = .overflow := by
  have same := run_loose (e := e) (keeps_new a settings) ops
  have hloose : (Link.new a settings).loose (closedIn []) = .new a settings := rfl
  rw [hloose, failed] at same
  cases hrun : Channel.run perform (.new a settings) e ops with
  | ok result =>
      rw [hrun] at same
      cases same
  | error g =>
      rw [hrun] at same
      cases same
      exact Channel.run_error (fun _ _ _ _ => perform_error) hrun

/-- Whatever is done to a link, only a connected one has a heartbeat running, and it waits to be
opened again just when it is disconnected and its owner started it last. It counts the failures
since it last came up. Once its owner has closed it, it asks for nothing and has no timer until it
is started. Its timers, kept apart, always pass the checks. -/
theorem timers_follow_lifecycle (a : Address) (settings : LinkSettings) (e : Entropy)
    (ops : List Operation) :
    (Channel.run LooseLink.perform (.new a settings) e ops).map
        (fun (log, l, e') => (log.map Channel.Turn.answer, l, e')) =
      (Channel.run perform (.new a settings) e ops).map (fun (log, l, e') =>
        (log.map Channel.Turn.answer, l.loose (closedIn log), e')) ∧
    (∀ f, Channel.run LooseLink.perform (.new a settings) e ops = .error f → f = .overflow) ∧
    ∀ log l e', Channel.run perform (.new a settings) e ops = .ok (log, l, e') →
      (l.beatArmed = true ↔ l.phase.name = "Connected") ∧
      (l.retryArmed = true ↔ l.phase.name = "Disconnected" ∧ lastCall log = some .start) ∧
      l.failures = min (failuresIn log) maxFailures ∧
      (lastCall log = some .close →
        l.phase.name = "Disconnected" ∧ l.beatArmed = false ∧ l.retryArmed = false) ∧
      ∀ past t later, log = past ++ t :: later → lastCall past = some .close → t.op ≠ .start →
        t.answer = [] := by
  refine ⟨run_loose (keeps_new a settings) ops, fun _ => run_loose_error a settings ops, ?_⟩
  intro log l e' ok
  have keeps : Keeps log l := (keeps_new a settings).run ok
  refine ⟨l.beatArmed_iff, keeps.retryArmed_iff, keeps.failures, fun closed => ?_, ?_⟩
  · have hdown : l.phase = .down := keeps.down_of_closedIn (decide_eq_true closed)
    simp [Phase.name, beatArmed, isLive, retryArmed, retryDelay?, hdown]
  · intro past t later split closed unstarted
    obtain ⟨e₁, e₂, hpast, hturn⟩ := Channel.run_split ok split
    have before : Keeps past t.before := (keeps_new a settings).run hpast
    exact perform_of_down (before.down_of_closedIn (decide_eq_true closed)) unstarted hturn

/-- A link that failed twice and was closed lets the time of its second retry pass. -/
theorem closed_link_lets_retry_pass :
    let ops : List Operation := [.start, .lost (.ofSeconds 1), .tick (.ofSeconds 4),
      .lost (.ofSeconds 5), .close, .opened (.ofSeconds 6), .tick (.ofSeconds 60)]
    ∃ past t l e', Channel.run perform (.new .global ⟨.ofSeconds 30, .fixed (.ofSeconds 3)⟩)
        (.cycle []) ops = .ok (past ++ [t], l, e') ∧
      lastCall past = some .close ∧ t.op = .tick (.ofSeconds 60) ∧ t.answer = [] ∧
      lastCall (past ++ [t]) = some .close ∧ l.failures = 2 ∧ l.phase.name = "Disconnected" ∧
      l.beatArmed = false ∧ l.retryArmed = false := by
  intro ops
  obtain ⟨-, -, follows⟩ := timers_follow_lifecycle .global ⟨.ofSeconds 30, .fixed (.ofSeconds 3)⟩
    (.cycle []) ops
  have hends : (Channel.run perform (.new .global ⟨.ofSeconds 30, .fixed (.ofSeconds 3)⟩)
      (.cycle []) ops).toOption.map (fun (log, _) => (log.getLast?.map Channel.Turn.op,
        lastCall log.dropLast, min (failuresIn log) maxFailures)) =
      some (some (.tick (.ofSeconds 60)), some .close, 2) := by decide +kernel
  cases hrun : Channel.run perform _ _ ops with
  | error f =>
      rw [hrun] at hends
      cases hends
  | ok result =>
      obtain ⟨log, l, e'⟩ := result
      rw [hrun] at hends
      obtain ⟨hlast, hpast, hfailures⟩ : _ ∧ _ ∧ _ := by simpa [Except.toOption] using hends
      obtain ⟨t, hlog, hop⟩ := hlast
      obtain ⟨past, rfl⟩ := List.getLast?_eq_some_iff.1 hlog
      rw [List.dropLast_concat] at hpast
      have hclosed : lastCall (past ++ [t]) = some .close := by
        rw [lastCall_snoc, hop, hpast]
        rfl
      obtain ⟨-, -, hcounted, hdown, hsilent⟩ := follows _ _ _ hrun
      have hquiet : t.answer = [] := hsilent past t [] rfl hpast (by rw [hop]; nofun)
      obtain ⟨hname, hbeat, hretry⟩ := hdown hclosed
      exact ⟨past, t, l, e', rfl, hpast, hop, hquiet, hclosed, hcounted.trans hfailures, hname,
        hbeat, hretry⟩

end Link

end LiveChat
