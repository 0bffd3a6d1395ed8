import LiveChat.Proofs.Chat.Operation

/-!
# What is told of the user's typing

A conversation tells that its user has begun to type and that the user has stopped. Within a stay
one operation tells one of the two at most, and only what is news: a beginning to those who think
that the user is silent, an end to those who think that the user types. What is told in all is then
a number of bursts, the last of which may still be open.
-/

namespace LiveChat

def ClientFrame.isSignal : ClientFrame → Bool
  | .typing | .stoppedTyping => true
  | _ => false

def ChatEffect.signal? : ChatEffect → Option ClientFrame
  | .transmit f => if f.isSignal then some f else none
  | _ => none

theorem ChatEffect.signal?_of_isQuiet {e : ChatEffect} (h : e.isQuiet = true) :
    e.signal? = none := by
  cases e <;> first | rfl | cases h

/-! ## Bursts -/

/-- A beginning, an end, a beginning, and so on. -/
def Alternates (frames : List ClientFrame) : Prop :=
  ∀ n f, frames[n]? = some f → f = if n % 2 = 0 then .typing else .stoppedTyping

/-- What is told at once, with whether the user types before and after it. It is given whether the
user writes; only then a burst can begin. -/
inductive Signals (writes : Bool) : Bool → List ClientFrame → Bool → Prop
  | still (typing : Bool) : Signals writes typing [] typing
  | begins (written : writes = true) : Signals writes false [.typing] true
  | ends : Signals writes true [.stoppedTyping] false

/-- Who types afterwards has typed before or writes. -/
theorem Signals.of_typing {writes typing : Bool} {told : List ClientFrame}
    (h : Signals writes typing told true) : typing = true ∨ writes = true := by
  cases h with
  | still => exact .inl rfl
  | begins written => exact .inr written

/-- What was told so far, with whether the user types. -/
inductive Bursts : List ClientFrame → Bool → Prop
  | none : Bursts [] false
  | opened {frames : List ClientFrame} (closed : Bursts frames false) :
      Bursts (frames ++ [.typing]) true
  | closed {frames : List ClientFrame} (opened : Bursts frames true) :
      Bursts (frames ++ [.stoppedTyping]) false

namespace Bursts

variable {frames told : List ClientFrame} {writes typing typing' : Bool}

theorem append (h : Bursts frames typing) (signals : Signals writes typing told typing') :
    Bursts (frames ++ told) typing' := by
  cases signals with
  | still =>
      rw [List.append_nil]
      exact h
  | begins => exact .opened h
  | ends => exact .closed h

theorem length_mod_two (h : Bursts frames typing) : frames.length % 2 = typing.toNat := by
  induction h with
  | none => rfl
  | opened _ ih =>
      rw [List.length_append, List.length_singleton]
      simp only [Bool.toNat_false] at ih
      simp only [Bool.toNat_true]
      omega
  | closed _ ih =>
      rw [List.length_append, List.length_singleton]
      simp only [Bool.toNat_true] at ih
      simp only [Bool.toNat_false]
      omega

/-- The next frame stands where its turn is. -/
theorem alternates (h : Bursts frames typing) : Alternates frames := by
  have snoc : ∀ {frames : List ClientFrame} {next : ClientFrame}, Alternates frames →
      (next = if frames.length % 2 = 0 then .typing else .stoppedTyping) →
      Alternates (frames ++ [next]) := by
    intro frames next earlier hnext n f hf
    rcases Nat.lt_trichotomy n frames.length with hlt | rfl | hgt
    · rw [List.getElem?_append_left hlt] at hf
      exact earlier n f hf
    · rw [List.getElem?_concat_length] at hf
      exact (Option.some.inj hf).symm.trans hnext
    · rw [List.getElem?_eq_none (by simpa [Nat.succ_le_iff] using hgt)] at hf
      cases hf
  induction h with
  | none => exact nofun
  | opened closed ih => exact snoc ih (by rw [closed.length_mod_two]; rfl)
  | closed opened ih => exact snoc ih (by rw [opened.length_mod_two]; rfl)

theorem typing_iff (h : Bursts frames typing) :
    typing = true ↔ frames.getLast? = some .typing := by
  cases h <;> simp

theorem last_of_closed (h : Bursts frames false) :
    ∀ f ∈ frames.getLast?, f = .stoppedTyping := by
  cases h <;> simp

end Bursts

/-! ## Operations -/

theorem TypingSignal.input_signals (s : TypingSignal) (text : String) (now : Instant) :
    Signals true s.isTyping (s.input text now).2.toList (s.input text now).1.isTyping := by
  unfold input
  cases htyping : s.isTyping with
  | true => exact .still true
  | false =>
      simp only [Bool.false_eq_true, if_false]
      split
      · rw [htyping]
        exact .still false
      · exact .begins rfl

theorem TypingSignal.stop_signals (s : TypingSignal) (writes : Bool) :
    Signals writes s.isTyping s.stop.2.toList s.stop.1.isTyping := by
  unfold stop
  cases s.isTyping with
  | true => exact .ends
  | false => exact .still false

theorem TypingSignal.tick_signals (s : TypingSignal) (now : Instant) (timeout : Duration) :
    Signals false s.isTyping (s.tick now timeout).2.toList (s.tick now timeout).1.isTyping := by
  obtain ⟨_ | last⟩ := s
  · exact .still false
  · unfold tick
    dsimp only
    split
    · exact .still true
    · exact .ends

namespace Conversation

variable {c c' : Conversation} {op : Operation} {effects : List ChatEffect} {writes : Bool}

def Operation.isInput : Operation → Bool
  | .input .. => true
  | _ => false

/-- What effects tell of typing. -/
def signalsIn (effects : List ChatEffect) : List ClientFrame :=
  effects.filterMap ChatEffect.signal?

theorem signalsIn_append (effects effects' : List ChatEffect) :
    signalsIn (effects ++ effects') = signalsIn effects ++ signalsIn effects' :=
  List.filterMap_append

theorem signalsIn_of_quiet (h : ∀ e ∈ effects, e.isQuiet = true) : signalsIn effects = [] :=
  List.filterMap_eq_nil_iff.2 fun e he => ChatEffect.signal?_of_isQuiet (h e he)

theorem signalsIn_frame {frame : Option ClientFrame} {typing typing' : Bool}
    (h : Signals writes typing frame.toList typing') :
    signalsIn (frame.map ChatEffect.transmit).toList = frame.toList := by
  cases frame with
  | none => rfl
  | some f =>
      have hsignal : f.isSignal = true := by
        generalize hframe : (some f).toList = frames at h
        cases h <;> cases hframe <;> rfl
      simp [signalsIn, ChatEffect.signal?, hsignal]

theorem signalsIn_transmission (c : Conversation) (room : Room) (text : String) (ref : Ref)
    (live : Bool) :
    signalsIn [.timelineChanged, .scrollToNewest, c.transmission room text ref live] = [] := by
  cases live <;> rfl

theorem stopTyping_signals (c : Conversation) (writes : Bool) :
    Signals writes c.isTyping (signalsIn c.stopTyping.2) false := by
  have hstop := c.signal.stop_signals writes
  unfold stopTyping
  rw [signalsIn_frame hstop]
  exact hstop

theorem signals_of_same (signal : c'.signal = c.signal) (none : signalsIn effects = []) :
    Signals writes c.isTyping (signalsIn effects) c'.isTyping := by
  rw [none, isTyping, isTyping, signal]
  exact .still _

theorem historyLoaded_signal (r : HistoryRequest) (result : Except RequestError Page) :
    (c.historyLoaded r result).1.signal = c.signal := by
  by_cases awaits : c.Awaits r
  · rw [historyLoaded_of_awaits awaits]
    cases result <;> rfl
  · rw [historyLoaded_of_not_awaits awaits]

/-- Within a stay an operation tells what becomes of the user's typing. -/
theorem perform_signals (h : c.perform op = .ok (c', effects)) (stays : op.switches = false) :
    Signals op.isInput c.isTyping (signalsIn effects) c'.isTyping := by
  cases op with
  | enter | leave => cases stays
  | loadNewest =>
      obtain ⟨rfl, rfl⟩ := eq_of_ok h
      unfold loadNewest
      split
      · exact .still _
      · split <;> exact .still _
  | loadOlder =>
      obtain ⟨rfl, rfl⟩ := eq_of_ok h
      unfold loadOlder
      split
      · exact .still _
      · split <;> exact .still _
  | historyLoaded r result =>
      obtain ⟨rfl, rfl⟩ := eq_of_ok h
      exact signals_of_same (historyLoaded_signal r result)
        (signalsIn_of_quiet (historyLoaded_quiet r result))
  | send text now wall live =>
      rcases send_cases h with ⟨-, rfl, rfl⟩ | ⟨room, ref, -, -, -, rfl, rfl⟩
      · exact .still _
      · have hstop := c.signal.stop_signals false
        rw [signalsIn_append, signalsIn_transmission, List.append_nil, signalsIn_frame hstop]
        exact hstop
  | posted r result =>
      obtain ⟨rfl, rfl⟩ := eq_of_ok h
      obtain ⟨t, ht⟩ := posted_frame (c := c) r result
      exact signals_of_same (by rw [ht]) (signalsIn_of_quiet (posted_quiet r result))
  | received m =>
      obtain ⟨rfl, rfl⟩ := eq_of_ok h
      obtain ⟨t, ht⟩ := received_frame (c := c) m
      exact signals_of_same (by rw [ht]) (signalsIn_of_quiet (received_quiet m))
  | otherTyping user nickname now =>
      obtain ⟨rfl, rfl⟩ := eq_of_ok h
      refine signals_of_same ?_ (signalsIn_of_quiet (otherTyping_quiet user nickname now))
      unfold otherTyping
      split <;> rfl
  | otherStopped user =>
      obtain ⟨rfl, rfl⟩ := eq_of_ok h
      exact signals_of_same rfl (signalsIn_of_quiet (otherStopped_quiet user))
  | input text now =>
      obtain ⟨rfl, rfl⟩ := eq_of_ok h
      have hinput := c.signal.input_signals text now
      unfold input
      split
      · exact .still _
      · rw [signalsIn_frame hinput]
        exact hinput
  | stopTyping =>
      obtain ⟨rfl, rfl⟩ := eq_of_ok h
      exact c.stopTyping_signals _
  | tick now =>
      obtain ⟨rfl, rfl⟩ := eq_of_ok h
      have htick := c.signal.tick_signals now c.settings.typingTimeout
      unfold tick
      rw [signalsIn_append, signalsIn_of_quiet (typistsEffect_quiet _), List.append_nil,
        signalsIn_frame htick]
      exact htick

end Conversation

end LiveChat
