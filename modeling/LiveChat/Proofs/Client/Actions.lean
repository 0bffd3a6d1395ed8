import LiveChat.Client.Basic
import LiveChat.Proofs.Channel.Switchboard
import LiveChat.Proofs.Chat.Operation

/-!
# What is asked of the surroundings

Only sending a message asks for one to be stored. All else asks for less: to open a transport or to
load history, which is answered by an event, or for nothing that is answered. An event that answers
something asks for nothing that is answered, so nothing is asked without end.
-/

namespace LiveChat

def ClientFrame.isPost : ClientFrame → Bool
  | .post _ _ => true
  | _ => false

theorem ClientFrame.isPost_of_isWatch {f : ClientFrame} (h : f.isWatch = true) :
    f.isPost = false := by
  cases f with
  | watch => rfl
  | _ => cases h

/-! ## Links -/

/-- No message is sent; whether a transport may be asked for is given. -/
def LinkAction.Modest (asks : Bool) : LinkAction → Prop
  | .opening _ => asks = true
  | .closing _ => True
  | .sending _ f => f.isPost = false

/-! ## The conversation -/

/-- No message is sent; whether a page may be asked for is given. -/
def ChatEffect.Modest (asks : Bool) : ChatEffect → Prop
  | .fetch _ => asks = true
  | .post _ => False
  | .transmit f => f.isPost = false
  | _ => True

theorem ChatEffect.modest_of_isQuiet {e : ChatEffect} (h : e.isQuiet = true) (asks : Bool) :
    e.Modest asks := by
  cases e with
  | transmit | fetch | post => cases h
  | _ => trivial

namespace TypingSignal

variable {s : TypingSignal} {f : ClientFrame}

theorem input_isPost {text : String} {now : Instant} (h : (s.input text now).2 = some f) :
    f.isPost = false := by
  unfold input at h
  split at h
  · cases h
  · split at h
    · cases h
    · cases h
      rfl

theorem stop_isPost (h : s.stop.2 = some f) : f.isPost = false := by
  unfold stop at h
  dsimp only at h
  split at h
  · cases h
    rfl
  · cases h

theorem tick_isPost {now : Instant} {timeout : Duration} (h : (s.tick now timeout).2 = some f) :
    f.isPost = false := by
  unfold tick at h
  split at h
  · cases h
  · split at h
    · cases h
    · cases h
      rfl

end TypingSignal

namespace Conversation

variable {c c' : Conversation} {op : Operation} {effects : List ChatEffect}

/-- Whether an operation may load history. -/
def Operation.asks : Operation → Bool
  | .enter _ | .loadNewest | .loadOlder => true
  | _ => false

theorem frame_modest {frame : Option ClientFrame} (h : ∀ f, frame = some f → f.isPost = false)
    (asks : Bool) : ∀ e ∈ (frame.map ChatEffect.transmit).toList, e.Modest asks := by
  cases frame with
  | none => simp
  | some f => simpa [ChatEffect.Modest] using h f rfl

theorem beginLoad_modest (room : Room) (kind : LoadKind) :
    ∀ e ∈ (c.beginLoad room kind).2, e.Modest true := by
  intro e he
  obtain rfl := List.mem_singleton.1 he
  rfl

/-- Only sending asks for a message to be stored. -/
theorem perform_modest (h : c.perform op = .ok (c', effects)) (receives : op.isSend = false) :
    ∀ e ∈ effects, e.Modest op.asks := by
  have quiet : (∀ e ∈ effects, e.isQuiet = true) → ∀ e ∈ effects, e.Modest op.asks :=
    fun h e he => ChatEffect.modest_of_isQuiet (h e he) _
  cases op with
  | send => cases receives
  | enter room =>
      obtain ⟨-, rfl⟩ := eq_of_ok h
      intro e he
      rcases List.mem_cons.1 he with rfl | he
      · trivial
      · exact beginLoad_modest room .newest e he
  | leave =>
      obtain ⟨-, rfl⟩ := eq_of_ok h
      unfold leave
      split <;> simp [ChatEffect.Modest]
  | loadNewest =>
      obtain ⟨-, rfl⟩ := eq_of_ok h
      unfold loadNewest
      split
      · simp
      · split
        · simp
        · exact beginLoad_modest _ _
  | loadOlder =>
      obtain ⟨-, rfl⟩ := eq_of_ok h
      unfold loadOlder
      split
      · simp
      · split
        · simp
        · exact beginLoad_modest _ _
  | historyLoaded r result =>
      obtain ⟨-, rfl⟩ := eq_of_ok h
      exact quiet (historyLoaded_quiet r result)
  | posted r result =>
      obtain ⟨-, rfl⟩ := eq_of_ok h
      exact quiet (posted_quiet r result)
  | received m =>
      obtain ⟨-, rfl⟩ := eq_of_ok h
      exact quiet (received_quiet m)
  | otherTyping user nickname now =>
      obtain ⟨-, rfl⟩ := eq_of_ok h
      exact quiet (otherTyping_quiet user nickname now)
  | otherStopped user =>
      obtain ⟨-, rfl⟩ := eq_of_ok h
      exact quiet (otherStopped_quiet user)
  | input text now =>
      obtain ⟨-, rfl⟩ := eq_of_ok h
      unfold input
      split
      · simp
      · exact frame_modest (fun _ => TypingSignal.input_isPost) _
  | stopTyping =>
      obtain ⟨-, rfl⟩ := eq_of_ok h
      exact frame_modest (fun _ => TypingSignal.stop_isPost) _
  | tick now =>
      obtain ⟨-, rfl⟩ := eq_of_ok h
      intro e he
      rcases List.mem_append.1 he with he | he
      · exact frame_modest (fun _ => TypingSignal.tick_isPost) _ e he
      · exact ChatEffect.modest_of_isQuiet (typistsEffect_quiet _ e he) _

end Conversation

/-! ## The client -/

namespace Client

variable {c : Client} {asks : Bool}

/-- No message is stored; whether something may be asked for that is answered is given. -/
def Action.Modest (asks : Bool) : Action → Prop
  | .openTransport _ | .fetchHistory _ => asks = true
  | .sendFrame _ text => ∃ f : ClientFrame, f.isPost = false ∧ text = f.encode
  | .postMessage _ => False
  | _ => True

theorem Action.Modest.mono {x : Action} (h : x.Modest false) : x.Modest asks := by
  cases x with
  | openTransport | fetchHistory => cases h
  | _ => exact h

theorem ofLinks_modest {actions : List LinkAction} (h : ∀ x ∈ actions, x.Modest asks) :
    ∀ x ∈ ofLinks actions, x.Modest asks := by
  intro x hx
  obtain ⟨y, hy, rfl⟩ := List.mem_map.1 hx
  have hmodest := h y hy
  cases y with
  | opening a => exact hmodest
  | closing a => trivial
  | sending a f => exact ⟨f, hmodest, rfl⟩

theorem effectActions_modest {e : ChatEffect} (h : e.Modest asks) :
    ∀ x ∈ c.effectActions e, x.Modest asks := by
  cases e with
  | transmit f =>
      unfold effectActions
      dsimp only
      split
      · simp
      · exact ofLinks_modest (Switchboard.send_asks fun _ => h)
  | fetch r =>
      intro x hx
      obtain rfl := List.mem_singleton.1 hx
      exact h
  | post r => cases h
  | _ =>
      intro x hx
      obtain rfl := List.mem_singleton.1 hx
      trivial

theorem applyChat_modest (op : Conversation.Operation) {step : Conversation × List ChatEffect}
    (perform : c.conversation.perform op = .ok step) (receives : op.isSend = false) :
    ∀ x ∈ (c.applyChat step).2, x.Modest op.asks := by
  intro x hx
  obtain ⟨e, he, hx⟩ := List.mem_flatMap.1 hx
  exact effectActions_modest (Conversation.perform_modest perform receives e he) x hx

theorem sendGlobal_modest {frame : Option ClientFrame}
    (h : ∀ f, frame = some f → f.isPost = false) (asks : Bool) :
    ∀ x ∈ c.sendGlobal frame, x.Modest asks := by
  cases frame with
  | none => simp [sendGlobal]
  | some f => exact ofLinks_modest (Switchboard.send_asks fun _ => h f rfl)

/-- Whether an event is the answer to something that was asked for. -/
def Event.isAnswer : Event → Bool
  | .transportOpened _ | .historyLoaded _ _ | .posted _ _ | .frameReceived _ _ => true
  | _ => false

def Event.isSend : Event → Bool
  | .send _ => true
  | _ => false

end Client

end LiveChat
