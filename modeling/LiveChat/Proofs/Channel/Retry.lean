import LiveChat.Channel.Retry

/-!
# Waits that can be told

The wait without what is added at random is the base, doubled with each failure, up to the cap;
that a multiple is cut off at the longest duration never shows. A wait is out of range only when
what is added at random takes it beyond the longest duration. It never is when the cap leaves room
for the most that can be added. What is added is at most the percentage of the wait that the
settings name.
-/

namespace LiveChat

theorem Duration.add_error {a b : Duration} {f : Fault} (h : a.add b = .error f) :
    f = .overflow := by
  unfold add ofNanos at h
  split at h
  · cases h
  · cases h
    rfl

theorem Duration.nanos_ofMillis (ms : UInt64) : (ofMillis ms).nanos = ms.toNat * 1000000 := rfl

namespace Retry

/-- Whether the wait after a failure can always be told. -/
def NeverOverflows (r : Retry) : Prop := ∀ failures e, ∃ d, (r.delay failures e).1 = .ok d

/-! ## Up to the cap -/

variable {r : Retry} {failures more : Nat}

theorem nanos_ceiling (r : Retry) (failures : Nat) : (r.ceiling failures).nanos =
    min (r.base.nanos * Nat.pow 2 (min (failures - 1) maxDoublings)) r.cap.nanos := by
  have hcap := r.cap.lt_limit
  rw [ceiling, Duration.nanos_min, Duration.scale, Duration.nanos_ofNanosCapped]
  show min _ _ = _
  omega

theorem ceiling_mono (h : failures ≤ more) : r.ceiling failures ≤ r.ceiling more := by
  have hdoublings : min (failures - 1) maxDoublings ≤ min (more - 1) maxDoublings := by omega
  have hscaled := Nat.mul_le_mul_left r.base.nanos (Nat.pow_le_pow_right Nat.two_pos hdoublings)
  rw [Duration.le_def, nanos_ceiling, nanos_ceiling]
  show min (r.base.nanos * 2 ^ _) _ ≤ min (r.base.nanos * 2 ^ _) _
  omega

theorem base_min_cap_le_ceiling (r : Retry) (failures : Nat) :
    r.base.min r.cap ≤ r.ceiling failures := by
  have hscaled : r.base.nanos ≤ r.base.nanos * Nat.pow 2 (min (failures - 1) maxDoublings) :=
    Nat.le_mul_of_pos_right _ (Nat.pow_pos Nat.two_pos)
  rw [Duration.le_def, Duration.nanos_min, nanos_ceiling]
  show min _ _ ≤ _
  omega

/-- Where sixteen doublings reach the cap, it does not show that there are no more of them. -/
theorem nanos_ceiling_of_reach (reach : r.cap.nanos ≤ r.base.nanos * Nat.pow 2 maxDoublings) :
    (r.ceiling failures).nanos = min (r.base.nanos * Nat.pow 2 (failures - 1)) r.cap.nanos := by
  rw [nanos_ceiling]
  rcases Nat.le_total (failures - 1) maxDoublings with few | many
  · rw [Nat.min_eq_left few]
  · have hscaled := Nat.mul_le_mul_left r.base.nanos (Nat.pow_le_pow_right Nat.two_pos many)
    have hfar : r.cap.nanos ≤ r.base.nanos * Nat.pow 2 (failures - 1) :=
      Nat.le_trans reach hscaled
    rw [Nat.min_eq_right many, Nat.min_eq_right reach, Nat.min_eq_right hfar]

/-! ## What is added at random -/

theorem delay_error {r : Retry} {failures : Nat} {e : Entropy} {f : Fault}
    (h : (r.delay failures e).1 = .error f) : f = .overflow := by
  unfold delay at h
  dsimp only at h
  split at h
  · cases h
  · exact Duration.add_error h

theorem jitterMillis_le (r : Retry) (wait : Duration) :
    r.jitterMillis wait ≤ (UInt64.size - 1) / 100 :=
  Nat.div_le_div_right (Nat.min_le_right _ _)

theorem jitterMillis_mul_le (r : Retry) (wait : Duration) :
    r.jitterMillis wait * 100 ≤ wait.millis * r.jitterPercent := by
  unfold jitterMillis
  apply Nat.le_trans (Nat.div_mul_le_self _ _)
  apply Nat.le_trans (Nat.min_le_left _ _)
  exact Nat.mul_le_mul_right _ (Nat.mod_le _ _)

theorem nanos_drawn_le (word : Nat) {span : Nat} (h : span ≤ (UInt64.size - 1) / 100) :
    (Duration.ofMillis (.ofNat (word % (span + 1)))).nanos ≤ span * 1000000 := by
  have hmod : word % (span + 1) < span + 1 := Nat.mod_lt _ (Nat.succ_pos _)
  have hsize : UInt64.size = 18446744073709551616 := rfl
  have hlt : word % (span + 1) < UInt64.size := by omega
  rw [Duration.nanos_ofMillis, UInt64.toNat_ofNat_of_lt' hlt]
  exact Nat.mul_le_mul_right _ (by omega)

/-- A wait with what is drawn for it is longer by at most the percentage of it. -/
theorem nanos_jittered_le (r : Retry) (wait : Duration) (word : Nat) :
    (wait.nanos + (Duration.ofMillis (.ofNat (word % (r.jitterMillis wait + 1)))).nanos) * 100 ≤
      wait.nanos * (100 + r.jitterPercent) := by
  have hspan := nanos_drawn_le word (r.jitterMillis_le wait)
  have hjitter := r.jitterMillis_mul_le wait
  -- Less than a millisecond of the wait is not counted when the span is worked out.
  have hwhole : wait.millis * 1000000 ≤ wait.nanos := Nat.div_mul_le_self _ _
  have hpercent := Nat.mul_le_mul_right r.jitterPercent hwhole
  have hdrawn : wait.millis * r.jitterPercent * 1000000 =
      wait.millis * 1000000 * r.jitterPercent := Nat.mul_right_comm _ _ _
  rw [Nat.mul_add]
  omega

/-- The wait after a failure is the capped one or longer, by at most the percentage of it. -/
theorem delay_within {r : Retry} {failures : Nat} {e : Entropy} {wait : Duration}
    (h : (r.delay failures e).1 = .ok wait) :
    r.ceiling failures ≤ wait ∧
      wait.nanos * 100 ≤ (r.ceiling failures).nanos * (100 + r.jitterPercent) := by
  unfold delay at h
  dsimp only at h
  rw [Duration.le_def]
  split at h
  · cases h
    exact ⟨Nat.le_refl _, Nat.mul_le_mul_left _ (Nat.le_add_right _ _)⟩
  · have hsum := Duration.add_eq_ok.1 h
    rw [hsum]
    exact ⟨Nat.le_add_right _ _, r.nanos_jittered_le _ _⟩

/-- A wait can be told when there is a duration as long as the most that it can be. -/
theorem delay_of_room {e : Entropy}
    (room : (r.ceiling failures).nanos * (100 + r.jitterPercent) / 100 < nanosLimit) :
    ∃ wait, (r.delay failures e).1 = .ok wait := by
  unfold delay
  dsimp only
  split
  · exact ⟨_, rfl⟩
  · have hmost := r.nanos_jittered_le (r.ceiling failures) e.draw.1.toNat
    refine ⟨⟨_, ?_⟩, Duration.add_eq_ok.2 rfl⟩
    omega

theorem delay_of_no_span {e : Entropy} (none : r.jitterMillis (r.ceiling failures) = 0) :
    (r.delay failures e).2 = e := by
  simp [delay, none]

theorem neverOverflows_of_cap {r : Retry}
    (room : r.cap.nanos + (UInt64.size - 1) / 100 * 1000000 < nanosLimit) : r.NeverOverflows := by
  intro failures e
  unfold delay
  dsimp only
  split
  · exact ⟨_, rfl⟩
  · have hcap := Duration.le_def.1 (r.ceiling_le_cap failures)
    have hspan := r.jitterMillis_le (r.ceiling failures)
    have hdrawn := nanos_drawn_le e.draw.1.toNat hspan
    have hmost := Nat.mul_le_mul_right 1000000 hspan
    have hadded := Nat.le_trans hdrawn hmost
    refine ⟨⟨_, Nat.lt_of_le_of_lt (Nat.add_le_add hcap hadded) room⟩, ?_⟩
    exact Duration.add_eq_ok.2 rfl

theorem neverOverflows_standard : standard.NeverOverflows := neverOverflows_of_cap (by decide)

/-! ## What waits are -/

/-- The wait without what is added at random never falls as failures go on. It lies between the cap
and the lesser of base and cap, and it is the base doubled with every failure after the first, up to
the cap, if sixteen doublings reach the cap. What is added leaves the wait in range if the most that
it can be is a duration, and it is at most the percentage of the wait; its span leaves room for one
more in a word, and no word is drawn where there is no span. -/
theorem waits_grow_within_bounds (r : Retry) :
    (∀ failures more, failures ≤ more → r.ceiling failures ≤ r.ceiling more) ∧
    (∀ failures, r.base.min r.cap ≤ r.ceiling failures ∧ r.ceiling failures ≤ r.cap) ∧
    (r.cap.nanos ≤ r.base.nanos * Nat.pow 2 16 → ∀ failures,
      (r.ceiling (failures + 1)).nanos = min (r.base.nanos * Nat.pow 2 failures) r.cap.nanos) ∧
    ∀ failures e,
      ((r.ceiling failures).nanos * (100 + r.jitterPercent) / 100 < nanosLimit →
        ∃ wait, (r.delay failures e).1 = .ok wait ∧ r.ceiling failures ≤ wait ∧
          wait.nanos * 100 ≤ (r.ceiling failures).nanos * (100 + r.jitterPercent)) ∧
      r.jitterMillis (r.ceiling failures) + 1 < UInt64.size ∧
      (r.jitterPercent = 0 ∨ r.jitterMillis (r.ceiling failures) = 0 →
        (r.delay failures e).2 = e) := by
  refine ⟨fun _ _ => ceiling_mono, fun failures => ?_, fun reach failures =>
    nanos_ceiling_of_reach reach, fun failures e => ⟨fun room => ?_, ?_, fun still => ?_⟩⟩
  · exact ⟨r.base_min_cap_le_ceiling failures, r.ceiling_le_cap failures⟩
  · obtain ⟨wait, hwait⟩ := delay_of_room (e := e) room
    exact ⟨wait, hwait, delay_within hwait⟩
  · have hspan := r.jitterMillis_le (r.ceiling failures)
    have hsize : UInt64.size = 18446744073709551616 := rfl
    omega
  · rcases still with steady | none
    · exact delay_of_no_span (jitterMillis_of_zero steady _)
    · exact delay_of_no_span none

/-- With a base of ten million million million seconds the second failure doubles it beyond the
longest duration, and a word does not count the milliseconds of the cap. -/
theorem long_waits_within_bounds :
    let r : Retry := ⟨.ofSeconds 10000000000000000000, .ofSeconds 15000000000000000000, 20⟩
    r.ceiling 1 ≤ r.ceiling 2 ∧ r.base ≤ r.ceiling 1 ∧ r.ceiling 3 = r.cap ∧
      (r.ceiling 2).nanos = min (r.base.nanos * 2) r.cap.nanos ∧
      (∃ wait, (r.delay 2 (.cycle [7])).1 = .ok wait ∧ r.cap ≤ wait ∧
        wait.nanos * 100 ≤ r.cap.nanos * 120) ∧
      ((Retry.fixed r.base).delay 2 (.cycle [7])).2.drawn = 0 := by
  intro r
  obtain ⟨mono, between, exact, within⟩ := waits_grow_within_bounds r
  have hcap : r.ceiling 2 = r.cap := by decide +kernel
  have hexact := exact (by decide +kernel) 1
  have hwait := (within 2 (.cycle [7])).1 (by decide +kernel)
  rw [hcap] at hwait
  refine ⟨mono 1 2 (by decide), ?_, by decide +kernel, hexact, hwait, ?_⟩
  · have hbase : r.base.min r.cap = r.base := by decide +kernel
    exact hbase ▸ (between 1).1
  · have hsteady := ((waits_grow_within_bounds (.fixed r.base)).2.2.2 2 (.cycle [7])).2.2 (.inl rfl)
    exact congrArg Entropy.drawn hsteady

end Retry

end LiveChat
