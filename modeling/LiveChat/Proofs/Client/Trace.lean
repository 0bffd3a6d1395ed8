import LiveChat.Proofs.Channel.Transport
import LiveChat.Proofs.Chat.Journal
import LiveChat.Proofs.Client.Run
import Mathlib.Data.List.Induction

/-!
# Traces

The trace of a run is the single stream of the events that were heard and the actions that were
done, in their order. Whether a transport is live or up is told from the trace alone: by what was
asked for and what was heard. The same can be followed happening by happening.
-/

namespace LiveChat.Client

inductive Happening where
  | heard (e : Event)
  | done (x : Action)

abbrev Trace := List Happening

def Turn.happenings (t : Turn) : Trace := .heard t.event :: t.actions.map .done

/-- The events and actions of a run. -/
def trace (log : List Turn) : Trace := log.flatMap Turn.happenings

theorem trace_snoc (log : List Turn) (t : Turn) :
    trace (log ++ [t]) = trace log ++ t.happenings := by
  simp [trace]

namespace Trace

/-- What has happened since the transport was last asked for. -/
def SinceAsked (s : Trace) (a : Address) (since : Trace) : Prop :=
  ∃ before, s = before ++ .done (.openTransport a) :: since ∧
    .done (.openTransport a) ∉ since

/-- The transport was asked for, and since then neither given up nor lost. -/
def Live (s : Trace) (a : Address) : Prop :=
  ∃ since, s.SinceAsked a since ∧ .done (.closeTransport a) ∉ since ∧
    .heard (.transportClosed a) ∉ since

/-- The transport is live and was heard to open since it was asked for. -/
def Up (s : Trace) (a : Address) : Prop :=
  ∃ since, s.SinceAsked a since ∧ .done (.closeTransport a) ∉ since ∧
    .heard (.transportClosed a) ∉ since ∧ .heard (.transportOpened a) ∈ since

variable {s : Trace} {a : Address} {h : Happening}

theorem sinceAsked_snoc {since : Trace} : SinceAsked (s ++ [h]) a since ↔
    (h = .done (.openTransport a) ∧ since = []) ∨
      (h ≠ .done (.openTransport a) ∧ ∃ since', since = since' ++ [h] ∧ s.SinceAsked a since') := by
  constructor
  · rintro ⟨before, heq, hnot⟩
    rcases snoc_eq_split_iff.1 heq with ⟨-, hasked, rfl⟩ | ⟨since', rfl, rfl⟩
    · exact .inl ⟨hasked, rfl⟩
    · simp only [List.mem_append, List.mem_singleton, not_or] at hnot
      exact .inr ⟨Ne.symm hnot.2, since', rfl, before, rfl, hnot.1⟩
  · rintro (⟨rfl, rfl⟩ | ⟨hne, since', rfl, before, rfl, hnot⟩)
    · exact ⟨s, rfl, by simp⟩
    · exact ⟨before, by simp, by simp [hnot, Ne.symm hne]⟩

theorem Up.live (h : s.Up a) : s.Live a := by
  obtain ⟨since, hsince, hclosed, hlost, -⟩ := h
  exact ⟨since, hsince, hclosed, hlost⟩

theorem live_snoc : Live (s ++ [h]) a ↔ h = .done (.openTransport a) ∨
    (s.Live a ∧ h ≠ .done (.closeTransport a) ∧ h ≠ .heard (.transportClosed a)) := by
  simp only [Live, sinceAsked_snoc]
  constructor
  · rintro ⟨since, ⟨rfl, -⟩ | ⟨-, since', rfl, hsince⟩, hclosed, hlost⟩
    · exact .inl rfl
    · simp only [List.mem_append, List.mem_singleton, not_or] at hclosed hlost
      exact .inr ⟨⟨since', hsince, hclosed.1, hlost.1⟩, Ne.symm hclosed.2, Ne.symm hlost.2⟩
  · rintro (rfl | ⟨⟨since, hsince, hclosed, hlost⟩, hne, hne'⟩)
    · exact ⟨[], .inl ⟨rfl, rfl⟩, by simp, by simp⟩
    · by_cases hasked : h = .done (.openTransport a)
      · exact ⟨[], .inl ⟨hasked, rfl⟩, by simp, by simp⟩
      · exact ⟨since ++ [h], .inr ⟨hasked, since, rfl, hsince⟩, by simp [hclosed, Ne.symm hne],
          by simp [hlost, Ne.symm hne']⟩

theorem up_snoc : Up (s ++ [h]) a ↔
    (s.Up a ∨ s.Live a ∧ h = .heard (.transportOpened a)) ∧ h ≠ .done (.openTransport a) ∧
      h ≠ .done (.closeTransport a) ∧ h ≠ .heard (.transportClosed a) := by
  simp only [Up, Live, sinceAsked_snoc]
  constructor
  · rintro ⟨since, ⟨rfl, rfl⟩ | ⟨hne, since', rfl, hsince⟩, hclosed, hlost, hopened⟩
    · cases hopened
    · simp only [List.mem_append, List.mem_singleton, not_or] at hclosed hlost hopened
      refine ⟨?_, hne, Ne.symm hclosed.2, Ne.symm hlost.2⟩
      rcases hopened with hopened | hopened
      · exact .inl ⟨since', hsince, hclosed.1, hlost.1, hopened⟩
      · exact .inr ⟨⟨since', hsince, hclosed.1, hlost.1⟩, hopened.symm⟩
  · rintro ⟨⟨since, hsince, hclosed, hlost, hopened⟩ | ⟨⟨since, hsince, hclosed, hlost⟩, hopened⟩,
      hne, hne', hne''⟩
    · exact ⟨since ++ [h], .inr ⟨hne, since, rfl, hsince⟩, by simp [hclosed, Ne.symm hne'],
        by simp [hlost, Ne.symm hne''], by simp [hopened]⟩
    · exact ⟨since ++ [h], .inr ⟨hne, since, rfl, hsince⟩, by simp [hclosed, Ne.symm hne'],
        by simp [hlost, Ne.symm hne''], by simp [hopened]⟩

end Trace

/-! ## Following the transports -/

/-- What a happening makes of the transports. -/
def Happening.next (w : Transports) : Happening → Transports
  | .done (.openTransport a) => Function.update w a .asked
  | .done (.closeTransport a) => Function.update w a .idle
  | .heard (.transportOpened a) => Function.update w a (w a).opened
  | .heard (.transportClosed a) => Function.update w a .idle
  | _ => w

namespace Happening

variable {w : Transports} {a : Address}

theorem next_ne_idle_iff (h : Happening) : h.next w a ≠ .idle ↔
    h = .done (.openTransport a) ∨
      (w a ≠ .idle ∧ h ≠ .done (.closeTransport a) ∧ h ≠ .heard (.transportClosed a)) := by
  unfold next
  split
  · next b => by_cases heq : b = a <;> simp [heq, @eq_comm _ a b]
  · next b => by_cases heq : b = a <;> simp [heq, @eq_comm _ a b]
  · next b => by_cases heq : b = a <;> simp [heq, @eq_comm _ a b, Transport.opened_eq_idle_iff]
  · next b => by_cases heq : b = a <;> simp [heq, @eq_comm _ a b]
  · simp_all

theorem next_eq_up_iff (h : Happening) : h.next w a = .up ↔
    (w a = .up ∨ w a ≠ .idle ∧ h = .heard (.transportOpened a)) ∧ h ≠ .done (.openTransport a) ∧
      h ≠ .done (.closeTransport a) ∧ h ≠ .heard (.transportClosed a) := by
  unfold next
  split
  · next b => by_cases heq : b = a <;> simp [heq, @eq_comm _ a b]
  · next b => by_cases heq : b = a <;> simp [heq, @eq_comm _ a b]
  · next b =>
    have hup : w a = .up → w a ≠ .idle := fun h => by simp [h]
    by_cases heq : b = a
    · simpa [heq, Transport.opened_eq_up_iff] using hup
    · simp [heq, @eq_comm _ a b]
  · next b => by_cases heq : b = a <;> simp [heq, @eq_comm _ a b]
  · simp_all

end Happening

def Trace.transports (s : Trace) : Transports := s.foldl Happening.next fun _ => .idle

namespace Trace

variable {s : Trace} {a : Address}

theorem transports_append (s t : Trace) :
    transports (s ++ t) = t.foldl Happening.next s.transports := List.foldl_append ..

/-- Following the happenings tells what the trace tells. -/
theorem transports_spec (s : Trace) (a : Address) :
    (s.transports a ≠ .idle ↔ s.Live a) ∧ (s.transports a = .up ↔ s.Up a) := by
  induction s using List.reverseRecOn with
  | nil =>
      have hlive : ¬ Live [] a := by
        rintro ⟨since, ⟨before, heq, -⟩, -⟩
        simp at heq
      have hup : ¬ Up [] a := by
        rintro ⟨since, ⟨before, heq, -⟩, -⟩
        simp at heq
      exact ⟨iff_of_false (by simp [transports]) hlive, iff_of_false (by simp [transports]) hup⟩
  | append_singleton s h ih =>
      rw [live_snoc, up_snoc, ← ih.1, ← ih.2, transports_append]
      exact ⟨h.next_ne_idle_iff, h.next_eq_up_iff⟩

end Trace

end LiveChat.Client
