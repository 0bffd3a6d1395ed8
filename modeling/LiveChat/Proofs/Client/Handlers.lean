import LiveChat.Client.Basic
import LiveChat.Proofs.Channel.Run

/-!
# Handlers that succeed

A handler that may fail is a sequence of steps that may fail. If it succeeds then so has each of its
steps, and what it makes of the client and has done is put together from theirs.
-/

namespace LiveChat.Client

variable {c c' : Client} {r : Reading} {room : Room} {actions : List Action}

/-! ## Going to and from rooms -/

theorem releaseRoom_of_release {b : Switchboard} {closing : List LinkAction}
    (h : c.switchboard.release (.room room) = .ok (b, closing)) :
    c.releaseRoom room = .ok ({ c with
        conversation := c.conversation.stopTyping.1, switchboard := b },
      (c.applyChat c.conversation.stopTyping).2 ++ ofLinks closing) := by
  unfold releaseRoom applyChat
  dsimp only
  rw [h]

theorem releaseRoom_eq_ok (ok : c.releaseRoom room = .ok (c', actions)) :
    ∃ b closing, c.switchboard.release (.room room) = .ok (b, closing) ∧
      c' = { c with conversation := c.conversation.stopTyping.1, switchboard := b } ∧
      actions = (c.applyChat c.conversation.stopTyping).2 ++ ofLinks closing := by
  cases hrelease : c.switchboard.release (.room room) with
  | error e =>
      unfold releaseRoom applyChat at ok
      dsimp only at ok
      rw [hrelease] at ok
      cases ok
  | ok released =>
      rw [releaseRoom_of_release hrelease] at ok
      cases ok
      exact ⟨_, _, rfl, rfl, rfl⟩

theorem leaveRoom_of_release {released : Client} (hroom : c.room? = some room)
    (h : c.releaseRoom room = .ok (released, actions)) :
    c.leaveRoom = .ok ((released.applyChat released.conversation.leave).1,
      actions ++ (released.applyChat released.conversation.leave).2) := by
  unfold leaveRoom
  rw [hroom]
  dsimp only
  rw [h]
  rfl

theorem leaveRoom_cases (ok : c.leaveRoom = .ok (c', actions)) :
    (c.room? = none ∧ c' = c ∧ actions = []) ∨
      ∃ room left released, c.room? = some room ∧ c.releaseRoom room = .ok (left, released) ∧
        c' = (left.applyChat left.conversation.leave).1 ∧
        actions = released ++ (left.applyChat left.conversation.leave).2 := by
  unfold leaveRoom at ok
  cases hroom : c.room? with
  | none =>
      rw [hroom] at ok
      cases ok
      exact .inl ⟨rfl, rfl, rfl⟩
  | some room =>
      rw [hroom] at ok
      obtain ⟨⟨left, released⟩, hrelease, hleave⟩ := bind_eq_ok.1 ok
      cases hleave
      exact .inr ⟨room, left, released, rfl, hrelease, rfl, rfl⟩

/-- What is left of entering a room once the channel of another has been let go of. -/
def join (c : Client) (released : List Action) (room : Room) : Client × List Action :=
  let (switchboard, opened) := c.switchboard.acquire (.room room)
  let (c, entered) := { c with switchboard }.applyChat (c.conversation.enter room)
  (c, released ++ ofLinks opened ++ entered)

theorem enterRoom_of_none (hroom : c.room? = none) :
    c.enterRoom room = .ok (c.join [] room) := by
  unfold enterRoom
  rw [if_neg (by simp [hroom]), hroom]
  rfl

theorem enterRoom_of_release {old : Room} {released : Client} (hroom : c.room? = some old)
    (hne : c.room? ≠ some room) (h : c.releaseRoom old = .ok (released, actions)) :
    c.enterRoom room = .ok (released.join actions room) := by
  unfold enterRoom
  rw [if_neg hne, hroom]
  dsimp only
  rw [h]
  rfl

theorem enterRoom_cases (ok : c.enterRoom room = .ok (c', actions)) :
    (c.room? = some room ∧ c' = c ∧ actions = []) ∨
      (c.room? = none ∧ c' = (c.join [] room).1 ∧ actions = (c.join [] room).2) ∨
      ∃ old left released, c.room? = some old ∧ c.room? ≠ some room ∧
        c.releaseRoom old = .ok (left, released) ∧ c' = (left.join released room).1 ∧
        actions = (left.join released room).2 := by
  by_cases hsame : c.room? = some room
  · unfold enterRoom at ok
    rw [if_pos hsame] at ok
    cases ok
    exact .inl ⟨hsame, rfl, rfl⟩
  · cases hroom : c.room? with
    | none =>
        rw [enterRoom_of_none hroom] at ok
        cases ok
        exact .inr (.inl ⟨rfl, rfl, rfl⟩)
    | some old =>
        unfold enterRoom at ok
        rw [if_neg hsame, hroom] at ok
        obtain ⟨⟨left, released⟩, hrelease, hjoin⟩ := bind_eq_ok.1 ok
        cases hjoin
        exact .inr (.inr ⟨old, left, released, rfl, hroom ▸ hsame, hrelease, rfl, rfl⟩)

theorem shutdown_eq_ok (ok : c.shutdown = .ok (c', actions)) :
    ∃ left leaving, c.leaveRoom = .ok (left, leaving) ∧
      c' = { left with switchboard := left.switchboard.closeAll.1, started := false } ∧
      actions = leaving ++ ofLinks left.switchboard.closeAll.2 := by
  unfold shutdown at ok
  obtain ⟨⟨left, leaving⟩, hleave, hclose⟩ := bind_eq_ok.1 ok
  cases hclose
  exact ⟨left, leaving, hleave, rfl, rfl⟩

/-! ## The global channel -/

theorem keepGlobal_cases {frame : Option ClientFrame} (ok : c.keepGlobal frame = .ok c') :
    (frame = none ∧ c' = c) ∨ ∃ f b, frame = some f ∧ c.switchboard.keep .global f = .ok b ∧
      c' = { c with switchboard := b } := by
  unfold keepGlobal at ok
  cases frame with
  | none =>
      cases ok
      exact .inl ⟨rfl, rfl⟩
  | some f =>
      dsimp only at ok
      split at ok
      · next b hkeep =>
        cases ok
        exact .inr ⟨f, b, rfl, hkeep, rfl⟩
      · cases ok

theorem start_of_keep {b : Switchboard}
    (h : { c with started := true,
                  switchboard := (c.switchboard.acquire .global).1 }.keepGlobal
        c.roster.subscription = .ok { c with started := true, switchboard := b })
    (stopped : c.started = false) :
    c.start = .ok ({ c with started := true, switchboard := b },
      ofLinks (c.switchboard.acquire .global).2) := by
  unfold start
  rw [if_neg (by simp [stopped])]
  dsimp only
  rw [h]
  rfl

theorem start_cases (ok : c.start = .ok (c', actions)) :
    (c.started = true ∧ c' = c ∧ actions = []) ∨ c.started = false ∧
      { c with started := true, switchboard := (c.switchboard.acquire .global).1 }.keepGlobal
        c.roster.subscription = .ok c' ∧ actions = ofLinks (c.switchboard.acquire .global).2 := by
  unfold start at ok
  split at ok
  · next hstarted =>
    cases ok
    exact .inl ⟨hstarted, rfl, rfl⟩
  · next hstopped =>
    obtain ⟨kept, hkeep, hstart⟩ := bind_eq_ok.1 ok
    cases hstart
    exact .inr ⟨Bool.eq_false_iff.2 hstopped, hkeep, rfl⟩

theorem watch_cases {users : List UserId} (ok : c.watch users = .ok (c', actions)) :
    (∃ roster, c.roster.watch users = (roster, none) ∧ c' = { c with roster } ∧ actions = []) ∨
      ∃ roster frame, c.roster.watch users = (roster, some frame) ∧
        actions = c'.sendGlobal (some frame) ∧
        ((c.switchboard.link? .global).isSome ∧
            { c with roster }.keepGlobal roster.subscription = .ok c' ∨
          c.switchboard.link? .global = none ∧ c' = { c with roster }) := by
  unfold watch at ok
  split at ok
  · next roster hwatch =>
    cases ok
    exact .inl ⟨roster, hwatch, rfl, rfl⟩
  · next roster frame hwatch =>
    refine .inr ⟨roster, frame, hwatch, ?_⟩
    dsimp only at ok
    split at ok
    · next hheld =>
      obtain ⟨kept, hkeep, hsend⟩ := bind_eq_ok.1 ok
      cases hsend
      exact ⟨rfl, .inl ⟨hheld, hkeep⟩⟩
    · next hnone =>
      cases ok
      exact ⟨rfl, .inr ⟨Option.not_isSome_iff_eq_none.1 hnone, rfl⟩⟩

theorem transportClosed_eq_ok {a : Address} (ok : c.transportClosed r a = .ok (c', actions)) :
    ∃ b entropy, c.switchboard.lost a r.now c.entropy = .ok (b, entropy) ∧
      c' = { c with switchboard := b, entropy } ∧ actions = [] := by
  unfold transportClosed at ok
  split at ok
  · next b entropy hlost =>
    cases ok
    exact ⟨b, entropy, hlost, rfl, rfl⟩
  · cases ok

/-! ## The user -/

/-- What reads the wall clock first succeeds only if that can be read. -/
theorem wall_of_readWall {next : Int64 → Step}
    (ok : readWall r >>= next = .ok (c', actions)) : ∃ wall, r.wall = some wall := by
  unfold readWall at ok
  cases hwall : r.wall with
  | none =>
      rw [hwall] at ok
      cases ok
  | some wall => exact ⟨wall, rfl⟩

/-- Whether the channel of the active room is live. -/
def isRoomLive (c : Client) : Bool :=
  (c.room?.map fun room => c.switchboard.isLive (.room room)).getD false

theorem send_of_ok {wall : Int64} (hwall : r.wall = some wall) {text : String}
    {step : Conversation × List ChatEffect}
    (h : c.conversation.send text r.now wall c.isRoomLive = .ok step) :
    c.send r text = .ok (c.applyChat step) := by
  unfold send readWall
  rw [hwall]
  unfold isRoomLive at h
  simp only [bind, Except.bind, h]

theorem send_of_error {wall : Int64} (hwall : r.wall = some wall) {text : String}
    {f : Fault} (h : c.conversation.send text r.now wall c.isRoomLive = .error f) :
    c.send r text = .error (.fault f) := by
  unfold send readWall
  rw [hwall]
  unfold isRoomLive at h
  simp only [bind, Except.bind, h]

theorem send_eq_ok {text : String} (ok : c.send r text = .ok (c', actions)) :
    ∃ wall step, r.wall = some wall ∧
      c.conversation.send text r.now wall c.isRoomLive = .ok step ∧
      c' = (c.applyChat step).1 ∧ actions = (c.applyChat step).2 := by
  obtain ⟨wall, hwall⟩ := wall_of_readWall ok
  cases hstep : c.conversation.send text r.now wall c.isRoomLive with
  | error f =>
      rw [send_of_error hwall hstep] at ok
      cases ok
  | ok step =>
      rw [send_of_ok hwall hstep] at ok
      cases ok
      exact ⟨wall, step, hwall, hstep, rfl, rfl⟩

theorem setNote_of_wall {wall : Int64} (hwall : r.wall = some wall)
    (note emoji : Option String) : c.setNote r note emoji =
      .ok ({ c with roster := (c.roster.setNote note emoji wall).1 },
        c.sendGlobal (some (c.roster.setNote note emoji wall).2) ++
          [.presenceChanged [c.identity.user]]) := by
  unfold setNote readWall
  rw [hwall]
  rfl

theorem setNote_eq_ok {note emoji : Option String}
    (ok : c.setNote r note emoji = .ok (c', actions)) :
    ∃ wall, r.wall = some wall ∧
      c' = { c with roster := (c.roster.setNote note emoji wall).1 } ∧
      actions = c.sendGlobal (some (c.roster.setNote note emoji wall).2) ++
        [.presenceChanged [c.identity.user]] := by
  obtain ⟨wall, hwall⟩ := wall_of_readWall ok
  rw [setNote_of_wall hwall] at ok
  cases ok
  exact ⟨wall, hwall, rfl, rfl⟩

end LiveChat.Client
