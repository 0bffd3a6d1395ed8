import LiveChat.Presence.IdleWatch
import Mathlib.Data.List.Induction

/-!
# When the user counts as idle

A watch knows no more than a time and whether the user is idle. After a tick that says of the user
exactly whether the threshold has passed since the last activity, as long as no tick is earlier than
what came before it. Changes are reported when they happen, so they alternate, whatever the times.
-/

namespace LiveChat.IdleWatch

inductive Operation where
  | activity (now : Instant)
  | tick (now : Instant)
  deriving DecidableEq, Repr

namespace Operation

def time : Operation → Instant
  | .activity now | .tick now => now

def activity? : Operation → Option Instant
  | .activity now => some now
  | .tick _ => none

end Operation

def perform (w : IdleWatch) : Operation → IdleWatch × Option Availability
  | .activity now => w.activity now
  | .tick now => w.tick now

def after (w : IdleWatch) (ops : List Operation) : IdleWatch :=
  ops.foldl (fun w op => (w.perform op).1) w

def reports (w : IdleWatch) : List Operation → List Availability
  | [] => []
  | op :: ops => (w.perform op).2.toList ++ reports (w.perform op).1 ops

/-- When the user was last active; before the first activity, when the watch began. -/
def lastActivity (start : Instant) (ops : List Operation) : Instant :=
  (ops.filterMap Operation.activity?).getLast?.getD start

variable {w : IdleWatch} {start now : Instant} {threshold : Duration} {ops : List Operation}
  {op : Operation}

theorem after_snoc (w : IdleWatch) (ops : List Operation) (op : Operation) :
    w.after (ops ++ [op]) = ((w.after ops).perform op).1 := by
  simp [after]

theorem lastActivity_snoc : lastActivity start (ops ++ [op]) =
    op.activity?.getD (lastActivity start ops) := by
  unfold lastActivity
  rw [List.filterMap_append]
  cases op <;> simp [Operation.activity?]

/-! ## The time since the last activity -/

/-- What a watch knows of the operations so far. -/
structure Keeps (start : Instant) (threshold : Duration) (ops : List Operation) (w : IdleWatch) :
    Prop where
  threshold_eq : w.threshold = threshold
  armedAt_eq : w.armedAt = lastActivity start ops
  /-- An idle user has been so for long enough at any time from now on. -/
  due : w.idle = true → ∀ now, (∀ op ∈ ops, op.time ≤ now) →
    threshold ≤ now - lastActivity start ops

theorem keeps_new (start : Instant) (threshold : Duration) :
    Keeps start threshold [] (new start threshold) := ⟨rfl, rfl, nofun⟩

theorem tick_idle_iff (keeps : Keeps start threshold ops w) (later : ∀ op ∈ ops, op.time ≤ now) :
    (w.tick now).1.idle = true ↔ threshold ≤ now - lastActivity start ops := by
  obtain ⟨rfl, harmed, hdue⟩ := keeps
  unfold tick
  rw [← harmed] at hdue ⊢
  cases hidle : w.idle with
  | true => simpa [hidle] using hdue hidle now later
  | false => by_cases hpast : w.threshold ≤ now - w.armedAt <;> simp [hidle, hpast]

theorem tick_frame (w : IdleWatch) (now : Instant) :
    (w.tick now).1 = { w with idle := (w.tick now).1.idle } := by
  unfold tick
  split <;> rfl

theorem Keeps.perform (keeps : Keeps start threshold ops w) (op : Operation) :
    Keeps start threshold (ops ++ [op]) (w.perform op).1 := by
  cases op with
  | activity now =>
      have hlast : lastActivity start (ops ++ [.activity now]) = now := lastActivity_snoc
      exact ⟨keeps.threshold_eq, hlast.symm, nofun⟩
  | tick now =>
      have hlast : lastActivity start (ops ++ [.tick now]) = lastActivity start ops :=
        lastActivity_snoc
      show Keeps start threshold (ops ++ [.tick now]) (w.tick now).1
      rw [tick_frame]
      refine ⟨keeps.threshold_eq, keeps.armedAt_eq.trans hlast.symm, fun idle later latest => ?_⟩
      obtain ⟨earlier, hnow⟩ := List.forall_mem_append.1 latest
      rw [hlast]
      cases hidle : w.idle with
      | true => exact keeps.due hidle later earlier
      | false =>
          have hdue : w.threshold ≤ now - w.armedAt := by
            by_contra hearly
            simp [tick, hidle, hearly] at idle
          have hlater : now ≤ later := hnow _ List.mem_cons_self
          rw [keeps.threshold_eq, keeps.armedAt_eq] at hdue
          rw [Duration.le_def, Duration.nanos_sub] at hdue ⊢
          rw [Duration.le_def] at hlater
          omega

theorem keeps_after (start : Instant) (threshold : Duration) (ops : List Operation) :
    Keeps start threshold ops ((new start threshold).after ops) := by
  induction ops using List.reverseRecOn with
  | nil => exact keeps_new start threshold
  | append_singleton ops op ih =>
      rw [after_snoc]
      exact ih.perform op

/-! ## What is reported -/

/-- A change is reported, and nothing else. -/
theorem perform_reports (w : IdleWatch) (op : Operation) : (w.perform op).2 =
    if (w.perform op).1.idle = w.idle then none
    else some (if w.idle then .online else .idle) := by
  cases op with
  | activity now => cases hidle : w.idle <;> simp [perform, activity, hidle]
  | tick now =>
      cases hidle : w.idle <;> simp only [perform, tick, hidle] <;> split <;> simp_all

/-- Reports alternate, and the first one tells of the other state than the one at the beginning. -/
theorem reports_alternate {n : Nat} {report : Availability}
    (h : (w.reports ops)[n]? = some report) :
    report = if (n + w.idle.toNat) % 2 = 0 then .idle else .online := by
  induction ops generalizing w n with
  | nil => cases h
  | cons op ops ih =>
      rw [reports, perform_reports] at h
      by_cases same : (w.perform op).1.idle = w.idle
      · rw [if_pos same] at h
        rw [← same]
        exact ih h
      · have hflip : (w.perform op).1.idle = !w.idle := Bool.eq_not.2 same
        rw [if_neg same] at h
        cases n with
        | zero =>
            cases Option.some.inj h
            cases w.idle <;> rfl
        | succ n =>
            have hrest := ih h
            rw [hflip] at hrest
            cases hidle : w.idle with
            | true => simpa [hidle, Nat.add_assoc] using hrest
            | false => simpa [hidle] using hrest

/-- After a tick that is no earlier than what came before it the user is idle if and only if the
threshold has passed since the last activity, or since the watch began. After an activity the user
is not. A change is reported by the operation that brings it and nothing else is, so the reports are
idle, online, idle and so on. -/
theorem idle_from_threshold_to_activity (start : Instant) (threshold : Duration) :
    let w := new start threshold
    (∀ ops now, (∀ op ∈ ops, op.time ≤ now) →
      ((w.after (ops ++ [.tick now])).idle = true ↔ threshold ≤ now - lastActivity start ops)) ∧
    (∀ ops now, (w.after (ops ++ [.activity now])).idle = false) ∧
    (∀ ops op, ((w.after ops).perform op).2 =
      if (w.after (ops ++ [op])).idle = (w.after ops).idle then none
      else some (if (w.after (ops ++ [op])).idle then .idle else .online)) ∧
    ∀ ops n report, (w.reports ops)[n]? = some report →
      report = if n % 2 = 0 then .idle else .online := by
  intro w
  refine ⟨fun ops now later => ?_, fun ops now => ?_, fun ops op => ?_, fun ops n report h => ?_⟩
  · rw [after_snoc]
    exact tick_idle_iff (keeps_after start threshold ops) later
  · rw [after_snoc]
    rfl
  · rw [after_snoc, perform_reports]
    by_cases same : ((w.after ops).perform op).1.idle = (w.after ops).idle
    · rw [if_pos same, if_pos same]
    · rw [if_neg same, if_neg same, Bool.eq_not.2 same]
      cases (w.after ops).idle <;> rfl
  · exact reports_alternate h

/-- With a threshold of zero the user is idle at a tick at the very time of an activity, and online
again by an activity at that time. -/
theorem idle_at_once_without_threshold :
    let w := new .zero .zero
    let ops : List Operation := [.tick .zero, .activity (.ofSeconds 1)]
    (∀ op ∈ ops, op.time ≤ .ofSeconds 1) ∧
      (w.after (ops ++ [.tick (.ofSeconds 1)])).idle = true ∧
      w.reports (ops ++ [.tick (.ofSeconds 1)]) = [.idle, .online, .idle] ∧
      (w.reports (ops ++ [.tick (.ofSeconds 1)]))[1]? = some .online := by
  intro w ops
  obtain ⟨ticked, -, -, alternate⟩ := idle_from_threshold_to_activity .zero .zero
  have hlater : ∀ op ∈ ops, op.time ≤ .ofSeconds 1 := by decide
  have hreports : w.reports (ops ++ [.tick (.ofSeconds 1)]) = [.idle, .online, .idle] := by decide
  refine ⟨hlater, (ticked ops (.ofSeconds 1) hlater).2 (by decide), hreports, ?_⟩
  rw [hreports]
  exact congrArg some (alternate (ops ++ [.tick (.ofSeconds 1)]) 1 .online (by rw [hreports]; rfl))

end LiveChat.IdleWatch
