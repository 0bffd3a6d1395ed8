import LiveChat.Proofs.Channel.Lifecycle
import Mathlib.Data.List.Chain

/-!
# When a link tries again, and when it beats

A link that lost its transport lets every tick pass until the wait that it drew is over, and asks
for the transport at the first tick after that. The wait is told by the failures in a row. A live
link sends a heartbeat at a tick when the last one is as old as the settings say, so no two of them
come closer together. Ticks may come at any time, also out of order.
-/

namespace LiveChat

namespace Link

/-- When a tick sent a heartbeat. One that the owner sends is not told apart from other frames. -/
def beat? (t : Turn) : Option Instant :=
  match t.op with
  | .tick now => if t.answer = [.sending t.before.address .heartbeat] then some now else none
  | _ => none

def beats (since : Instant) (log : List Turn) : List Instant := since :: log.filterMap beat?

/-- When the last heartbeat was sent; before the first one, when the link came alive. -/
def lastBeat (since : Instant) (log : List Turn) : Instant :=
  (log.filterMap beat?).getLast?.getD since

variable {l l' : Link} {e e' : Entropy} {op : Operation} {asked : List LinkAction}
  {log past : List Turn} {t : Turn} {since now : Instant} {delay : Duration}

theorem beats_snoc : beats since (log ++ [t]) = beats since log ++ (beat? t).toList := by
  unfold beats
  rw [List.filterMap_append, List.cons_append]
  cases h : beat? t <;> simp [h]

theorem lastBeat_snoc : lastBeat since (log ++ [t]) = (beat? t).getD (lastBeat since log) := by
  unfold lastBeat
  rw [List.filterMap_append]
  cases h : beat? t <;> simp [h]

theorem getLast?_beats : (beats since log).getLast? = some (lastBeat since log) :=
  List.getLast?_cons

/-! ## What stays while the link waits, or is live -/

theorem perform_alike (ok : l.perform e op = .ok (l', e', asked)) :
    l'.address = l.address ∧ l'.settings = l.settings := by
  cases op with
  | lost now =>
      have alike := lost_alike (perform_lost ok).1
      exact ⟨alike.address, alike.settings⟩
  | opened now =>
      cases ok
      exact ⟨(l.opened_alike now).address, (l.opened_alike now).settings⟩
  | tick now =>
      cases ok
      exact ⟨(l.tick_alike now).address, (l.tick_alike now).settings⟩
  | start | close =>
      cases ok
      cases hphase : l.phase <;> simp [start, close, hphase]
  | send | keep =>
      cases ok
      exact ⟨rfl, rfl⟩

theorem run_alike {ops : List Operation} (ok : Channel.run perform l e ops = .ok (log, l', e')) :
    l'.address = l.address ∧ l'.settings = l.settings := by
  apply Channel.run_preserves (I := fun _ s => s.address = l.address ∧ s.settings = l.settings) _ []
    ⟨rfl, rfl⟩ ok
  intro log s e op s' e' asked same performed
  obtain ⟨haddress, hsettings⟩ := perform_alike performed
  exact ⟨haddress.trans same.1, hsettings.trans same.2⟩

theorem tick_of_waiting (waiting : l.phase = .waiting since delay) (now : Instant) :
    l.tick now = if delay ≤ now - since then ({ l with phase := .opening }, [.opening l.address])
      else (l, []) := by
  unfold tick
  rw [waiting]

theorem tick_of_live (live : l.phase = .live since) (now : Instant) :
    l.tick now = if l.settings.heartbeatEvery ≤ now - since then
      ({ l with phase := .live now }, [.sending l.address .heartbeat]) else (l, []) := by
  unfold tick
  rw [live]

/-- The operation is no call of the owner, and no tick at which the wait is over. -/
def Idles (since : Instant) (delay : Duration) (op : Operation) : Prop :=
  op.call? = none ∧ ∀ now, op = .tick now → now - since < delay

theorem perform_of_waiting (waiting : l.phase = .waiting since delay) (idles : Idles since delay op)
    (ok : l.perform e op = .ok (l', e', asked)) :
    l'.phase = .waiting since delay ∧ asked = [] := by
  obtain ⟨uncalled, early⟩ := idles
  cases op with
  | start | close => cases uncalled
  | lost now =>
      obtain ⟨hlost, rfl⟩ := perform_lost ok
      rcases lost_cases hlost with ⟨-, rfl, -⟩ | ⟨hbusy, -⟩
      · exact ⟨waiting, rfl⟩
      · simp [isLive, waiting] at hbusy
  | tick now =>
      cases ok
      rw [tick_of_waiting waiting, if_neg (Duration.not_le.2 (early now rfl))]
      exact ⟨waiting, rfl⟩
  | opened | send | keep =>
      cases ok
      simp [opened, send, keep, isLive, waiting]

theorem run_of_waiting (waiting : l.phase = .waiting since delay) {ops : List Operation}
    (ok : Channel.run perform l e ops = .ok (log, l', e'))
    (idle : ∀ v ∈ log, Idles since delay v.op) : l'.phase = .waiting since delay := by
  apply Channel.run_preserves_while (I := fun _ s => s.phase = .waiting since delay)
    (G := fun v => Idles since delay v.op) _ waiting ok idle
  intro log s e op s' e' asked before idles performed
  exact (perform_of_waiting before idles performed).1

/-- A link that is still live has moved its heartbeat on to the one just sent, if there is one. -/
theorem perform_of_live (live : l.phase = .live since) (stays : l'.isLive = true)
    (ok : l.perform e op = .ok (l', e', asked)) :
    l'.phase = .live ((beat? ⟨l, op, asked, l'⟩).getD since) ∧
      ∀ now, beat? ⟨l, op, asked, l'⟩ = some now → l.settings.heartbeatEvery ≤ now - since := by
  cases op with
  | lost now =>
      rcases lost_cases (perform_lost ok).1 with ⟨-, rfl, -⟩ | ⟨-, delay, -, rfl⟩
      · exact ⟨live, nofun⟩
      · cases stays
  | tick now =>
      cases ok
      rw [tick_of_live live]
      by_cases hdue : l.settings.heartbeatEvery ≤ now - since
      · simp [beat?, hdue]
      · simp [beat?, hdue, live]
  | close =>
      cases ok
      simp [close, isLive, live] at stays
  | start | opened | send | keep =>
      cases ok
      simp [beat?, start, opened, keep, live]

theorem pairwise_of_isChain {every : Duration} {times : List Instant}
    (h : times.IsChain fun a b => every ≤ b - a) :
    times.Pairwise fun a b => every ≤ b - a := by
  have : Trans (fun a b : Instant => every ≤ b - a) (fun a b => every ≤ b - a)
      (fun a b => every ≤ b - a) := by
    constructor
    intro a b c hab hbc
    rw [Duration.le_def, Duration.nanos_sub] at hab hbc ⊢
    omega
  exact List.isChain_iff_pairwise.1 h

/-- A link whose last heartbeat is at the last of these times, each apart from the one before. -/
structure Beats (since : Instant) (log : List Turn) (l : Link) : Prop where
  live : l.phase = .live (lastBeat since log)
  apart : (beats since log).IsChain fun a b => l.settings.heartbeatEvery ≤ b - a

theorem Beats.perform (h : Beats since log l) (stays : l'.isLive = true)
    (ok : l.perform e op = .ok (l', e', asked)) :
    Beats since (log ++ [⟨l, op, asked, l'⟩]) l' := by
  obtain ⟨hphase, hdue⟩ := perform_of_live h.live stays ok
  constructor
  · rw [lastBeat_snoc]
    exact hphase
  · rw [(perform_alike ok).2, beats_snoc, List.isChain_append]
    refine ⟨h.apart, ?_, fun a ha b hb => ?_⟩
    · cases beat? ⟨l, op, asked, l'⟩ <;> simp
    · rw [getLast?_beats] at ha
      cases ha
      cases hbeat : beat? ⟨l, op, asked, l'⟩ with
      | none => simp [hbeat] at hb
      | some now =>
          obtain rfl : now = b := by simpa [hbeat] using hb
          exact hdue now hbeat

theorem Beats.run (live : l.phase = .live since) {ops : List Operation}
    (ok : Channel.run Link.perform l e ops = .ok (log, l', e'))
    (stays : ∀ v ∈ log, v.after.isLive = true) : Beats since log l' := by
  apply Channel.run_preserves_while (I := Beats since) (G := fun v => v.after.isLive = true) _
    ⟨live, List.isChain_singleton _⟩ ok stays
  intro log s e op s' e' asked before stays performed
  exact before.perform stays performed

/-! ## From a loss to the next attempt -/

/-- A loss that took effect leaves the link waiting for as long as its failures tell. -/
theorem perform_of_fails (ok : l.perform e (.lost since) = .ok (l', e', asked))
    (effective : l' ≠ l) :
    ∃ delay, l'.phase = .waiting since delay ∧
      (l.settings.retry.delay l'.failures e).1 = .ok delay := by
  rcases lost_cases (perform_lost ok).1 with ⟨-, rfl, -⟩ | ⟨-, delay, hdelay, rfl⟩
  · exact absurd rfl effective
  · exact ⟨delay, rfl, congrArg Prod.fst hdelay⟩

theorem perform_of_comesUp (ok : l.perform e (.opened since) = .ok (l', e', asked))
    (effective : l' ≠ l) : l'.phase = .live since := by
  cases ok
  unfold opened at effective ⊢
  cases hphase : l.phase with
  | opening => rfl
  | down | waiting | live => simp [hphase] at effective

theorem turn_of_tick (tick : t.op = .tick now)
    (ok : t.before.perform e t.op = .ok (t.after, e', t.answer)) :
    t.before.tick now = (t.after, t.answer) := by
  rw [tick] at ok
  obtain ⟨hafter, hanswer⟩ : (t.before.tick now).1 = t.after ∧ (t.before.tick now).2 = t.answer := by
    injection ok with h
    injection h with hafter h
    injection h with _ hanswer
    exact ⟨hafter, hanswer⟩
  exact Prod.ext hafter hanswer

theorem tick_after_loss {ops : List Operation} {between : List Turn}
    (waiting : l.phase = .waiting since delay)
    (ok : Channel.run perform l e ops = .ok (between, t.before, e'))
    (idle : ∀ v ∈ between, Idles since delay v.op) (tick : t.before.tick now = (t.after, t.answer)) :
    (now - since < delay → t.answer = []) ∧
      (delay ≤ now - since → t.answer = [.opening l.address] ∧ t.after.phase = .opening) := by
  rw [tick_of_waiting (run_of_waiting waiting ok idle)] at tick
  constructor
  · intro early
    rw [if_neg (Duration.not_le.2 early)] at tick
    exact (congrArg Prod.snd tick).symm
  · intro due
    rw [if_pos due, (run_alike ok).1] at tick
    exact ⟨(congrArg Prod.snd tick).symm, (congrArg (fun pair => pair.1.phase) tick).symm⟩

/-- A heartbeat goes out at a tick exactly if the last one is old enough. -/
theorem tick_while_live {ops : List Operation} {during : List Turn} (live : l.phase = .live since)
    (ok : Channel.run perform l e ops = .ok (during, t.before, e'))
    (stays : ∀ v ∈ during, v.after.isLive = true)
    (tick : t.before.tick now = (t.after, t.answer)) :
    t.answer = if l.settings.heartbeatEvery ≤ now - lastBeat since during
      then [.sending l.address .heartbeat] else [] := by
  rw [tick_of_live (Beats.run live ok stays).live, (run_alike ok).1, (run_alike ok).2] at tick
  have answer := congrArg Prod.snd tick
  rw [apply_ite Prod.snd] at answer
  exact answer.symm

/-! ## The times of a whole run -/

/-- At whatever times the ticks come: a loss that takes effect makes the link wait, for the time
that its failures in a row tell and at most the percentage of it more; while the owner leaves it
alone, nothing comes of a tick until the wait is over, and the first tick then asks for the
transport. From the time that it came alive on, a link that stays live sends a heartbeat at a tick
exactly if the last one is as old as the settings say, so any two are at least so far apart. A run
fails only when a wait is out of range. -/
theorem retries_and_beats_on_time (a : Address) (settings : LinkSettings) (e : Entropy)
    (ops : List Operation) :
    (∀ f, Channel.run perform (.new a settings) e ops = .error f → f = .overflow) ∧
    ∀ log l e', Channel.run perform (.new a settings) e ops = .ok (log, l, e') →
      ∀ past t future, log = past ++ t :: future →
        (∀ since, t.op = .lost since → fails t = true →
          t.after.failures = min (failuresIn (past ++ [t])) maxFailures ∧
          ∃ delay, t.after.retryDelay? = some delay ∧
            settings.retry.ceiling t.after.failures ≤ delay ∧
            delay.nanos * 100 ≤ (settings.retry.ceiling t.after.failures).nanos *
              (100 + settings.retry.jitterPercent) ∧
            ∀ between u later now, future = between ++ u :: later → u.op = .tick now →
              (∀ v ∈ between, Idles since delay v.op) →
              (now - since < delay → u.answer = []) ∧
              (delay ≤ now - since →
                u.answer = [.opening a] ∧ u.after.phase.name = "Connecting")) ∧
        ∀ since, t.op = .opened since → comesUp t = true →
          ∀ during later, future = during ++ later → (∀ v ∈ during, v.after.isLive = true) →
            (beats since during).Pairwise (fun before after =>
              settings.heartbeatEvery ≤ after - before) ∧
            ∀ u rest now, later = u :: rest → u.op = .tick now →
              u.answer = if settings.heartbeatEvery ≤ now - lastBeat since during
                then [.sending a .heartbeat] else [] := by
  refine ⟨fun f => Channel.run_error fun _ _ _ _ => perform_error, ?_⟩
  intro log l e' ok past t future split
  obtain ⟨e₁, e₂, hpast, hturn, hfuture⟩ := Channel.run_at ok split
  obtain ⟨haddress, hsettings⟩ : t.after.address = a ∧ t.after.settings = settings := by
    have before := run_alike hpast
    have after := perform_alike hturn
    exact ⟨after.1.trans before.1, after.2.trans before.2⟩
  have effective : comesUp t = true ∨ fails t = true → t.after ≠ t.before := by
    unfold comesUp fails
    cases t.op <;> simp
  constructor
  · intro since lost failed
    have keeps : Keeps (past ++ [t]) t.after := ((keeps_new a settings).run hpast).perform hturn
    rw [lost] at hturn
    obtain ⟨delay, hphase, hdelay⟩ := perform_of_fails hturn (effective (.inr failed))
    rw [(run_alike hpast).2] at hdelay
    obtain ⟨hleast, hmost⟩ := Retry.delay_within hdelay
    refine ⟨keeps.failures, delay, by simp [retryDelay?, hphase], hleast, hmost, ?_⟩
    intro between u later now hsplit tick idle
    obtain ⟨e₃, e₄, hbetween, hu, -⟩ := Channel.run_at hfuture hsplit
    obtain ⟨hearly, hdue⟩ := tick_after_loss hphase hbetween idle (turn_of_tick tick hu)
    rw [haddress] at hdue
    refine ⟨hearly, fun due => ⟨(hdue due).1, ?_⟩⟩
    rw [(hdue due).2]
    rfl
  · intro since opened up during later hsplit stays
    rw [opened] at hturn
    have live := perform_of_comesUp hturn (effective (.inl up))
    constructor
    · obtain ⟨s, e₃, hduring, -⟩ := Channel.run_unappend hfuture hsplit
      have beats := Beats.run live hduring stays
      have apart := pairwise_of_isChain beats.apart
      rwa [(run_alike hduring).2, hsettings] at apart
    · intro u rest now hlater tick
      rw [hlater] at hsplit
      obtain ⟨e₃, e₄, hduring, hu, -⟩ := Channel.run_at hfuture hsplit
      have hbeat := tick_while_live live hduring stays (turn_of_tick tick hu)
      rwa [haddress, hsettings] at hbeat

/-- A standard link draws a tenth of a second more than three, and waits for as long. It is live for
thirty seconds when it sends its first heartbeat. -/
theorem standard_link_waits_and_beats :
    let ops : List Operation := [.start, .lost (.ofSeconds 1), .tick (.ofSeconds 4),
      .tick (.ofSeconds 5), .opened (.ofSeconds 6), .tick (.ofSeconds 35), .tick (.ofSeconds 36)]
    ∃ start lost early due up quiet beat l e',
      Channel.run perform (.new .global .standard) (.cycle [100]) ops =
        .ok ([start, lost, early, due, up, quiet, beat], l, e') ∧
      fails lost = true ∧ lost.after.retryDelay? = some (.ofMillis 3100) ∧
      lost.after.failures = 1 ∧ early.answer = [] ∧ due.answer = [.opening .global] ∧
      due.after.phase.name = "Connecting" ∧ comesUp up = true ∧ quiet.answer = [] ∧
      beat.answer = [.sending .global .heartbeat] := by
  intro ops
  let asked : Link := (Link.new .global .standard).start.1
  let waits : Link := { asked with
    phase := .waiting (.ofSeconds 1) (.ofMillis 3100), failures := 1 }
  let live : Link := { asked with phase := .live (.ofSeconds 6) }
  let start : Turn := ⟨.new .global .standard, .start, [.opening .global], asked⟩
  let lost : Turn := ⟨asked, .lost (.ofSeconds 1), [], waits⟩
  let early : Turn := ⟨waits, .tick (.ofSeconds 4), [], waits⟩
  let due : Turn := ⟨waits, .tick (.ofSeconds 5), [.opening .global], (waits.tick (.ofSeconds 5)).1⟩
  let up : Turn := ⟨(waits.tick (.ofSeconds 5)).1, .opened (.ofSeconds 6), [], live⟩
  let quiet : Turn := ⟨live, .tick (.ofSeconds 35), [], live⟩
  let beat : Turn := ⟨live, .tick (.ofSeconds 36), [.sending .global .heartbeat],
    (live.tick (.ofSeconds 36)).1⟩
  have hrun : Channel.run perform (.new .global .standard) (.cycle [100]) ops =
      .ok ([start, lost, early, due, up, quiet, beat], (live.tick (.ofSeconds 36)).1,
        (Entropy.cycle [100]).draw.2) := rfl
  obtain ⟨-, times⟩ := retries_and_beats_on_time .global .standard (.cycle [100]) ops
  obtain ⟨hcount, delay, harmed, -, -, ticks⟩ :=
    (times _ _ _ hrun [start] lost _ rfl).1 (.ofSeconds 1) rfl (by decide)
  obtain rfl : delay = .ofMillis 3100 := (Option.some.inj harmed).symm
  have hearly := ticks [] early _ (.ofSeconds 4) rfl rfl (by simp)
  have hdue := ticks [early] due _ (.ofSeconds 5) rfl rfl fun v hv => by
    obtain rfl := List.mem_singleton.1 hv
    refine ⟨rfl, fun now hop => ?_⟩
    cases hop
    decide
  have beats :=
    (times _ _ _ hrun [start, lost, early, due] up _ rfl).2 (.ofSeconds 6) rfl (by decide)
  have hquiet := (beats [] _ rfl (by decide)).2 quiet _ (.ofSeconds 35) rfl rfl
  have hbeat := (beats [quiet] _ rfl (by decide)).2 beat _ (.ofSeconds 36) rfl rfl
  exact ⟨start, lost, early, due, up, quiet, beat, _, _, hrun, by decide, harmed, hcount,
    hearly.1 (by decide), (hdue.2 (by decide)).1, (hdue.2 (by decide)).2, by decide, hquiet, hbeat⟩

end Link

end LiveChat
