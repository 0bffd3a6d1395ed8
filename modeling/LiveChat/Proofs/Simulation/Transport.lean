import LiveChat.Proofs.Simulation.Drain

/-!
# The transports of the client and of the service

The client has a transport for each link, and the service has a set of those that are open. The two
are kept apart: the client's change with the events that it handles, the service's with the actions
that are carried out and with what is dropped. While every transport is opened that is asked for,
they are the same whenever nothing is queued. In between, one that is open for the service may be
asked for only to the client, and then the news that it has opened are still queued.
-/

namespace LiveChat.Simulation

open Client (Event Action Happening)
open Relation (ReflTransGen)

/-- The service has open what the client has asked for or has up, and what the client has only asked
for is still to be announced to it. -/
structure Mirrors (w : Transports) (s : Simulation) : Prop where
  opened : ∀ a, s.isOpen a = true ↔ w a ≠ .idle
  announced : ∀ a, w a = .asked → .transportOpened a ∈ s.queue

variable {identity : Identity} {settings : LinkSettings} {s s' t : Simulation} {w : Transports}
  {e : Event} {x : Action} {actions : List Action}

/-! ## Opening and giving up -/

theorem isOpen_insert (s : Simulation) (a b : Address) :
    { s with transports := s.transports.insert a () }.isOpen b = true ↔
      b = a ∨ s.isOpen b = true := by
  unfold isOpen Table.contains
  rw [Table.find?_insert]
  split
  · next heq => simp [heq]
  · next hne => simp [hne]

theorem isOpen_erase (s : Simulation) (a b : Address) :
    { s with transports := s.transports.erase a }.isOpen b = true ↔
      b ≠ a ∧ s.isOpen b = true := by
  unfold isOpen Table.contains
  rw [Table.find?_erase]
  split
  · next heq => simp [heq]
  · next hne => simp [hne]

namespace Mirrors

theorem mono (h : Mirrors w s) (transports : s'.transports = s.transports)
    (queue : s.queue ⊆ s'.queue) : Mirrors w s' := by
  refine ⟨fun a => ?_, fun a asked => queue (h.announced a asked)⟩
  rw [← h.opened a, isOpen, isOpen, transports]

theorem erase (h : Mirrors w s) (a : Address) :
    Mirrors (Function.update w a .idle) { s with transports := s.transports.erase a } := by
  refine ⟨fun b => ?_, fun b asked => ?_⟩
  · rw [isOpen_erase, h.opened b]
    by_cases heq : b = a
    · simp [heq]
    · simp [heq]
  · by_cases heq : b = a
    · simp [heq] at asked
    · rw [Function.update_of_ne heq] at asked
      exact h.announced b asked

theorem insert (h : Mirrors w s) (a : Address) :
    Mirrors (Function.update w a .asked)
      ({ s with transports := s.transports.insert a () }.enqueue (.transportOpened a)) := by
  refine ⟨fun b => ?_, fun b asked => ?_⟩
  · show { s with transports := s.transports.insert a () }.isOpen b = true ↔ _
    rw [isOpen_insert, h.opened b]
    by_cases heq : b = a
    · simp [heq]
    · simp [heq]
  · by_cases heq : b = a
    · subst heq
      exact List.mem_append_right _ List.mem_cons_self
    · rw [Function.update_of_ne heq] at asked
      exact List.mem_append_left _ (h.announced b asked)

theorem executes (h : Mirrors w s) (auto : s.options.autoOpen = true)
    (executes : s.Executes x s') : Mirrors (Happening.next w (.done x)) s' := by
  cases executes with
  | opens a => exact (h.insert a).mono rfl fun _ => id
  | asks a manual =>
      rw [auto] at manual
      cases manual
  | closes a => exact (h.erase a).mono rfl fun _ => id
  | serves still serves =>
      rw [still]
      obtain ⟨new, hqueue, -, -⟩ := serves.queue
      exact h.mono serves.transports (hqueue ▸ List.subset_append_left _ _)

theorem executeAll (h : Mirrors w s) (auto : s.options.autoOpen = true)
    (ok : actions.foldlM execute s = .ok s') :
    Mirrors ((actions.map Happening.done).foldl Happening.next w) s' := by
  induction actions generalizing s w with
  | nil =>
      cases ok
      exact h
  | cons x rest ih =>
      rw [List.foldlM_cons] at ok
      obtain ⟨next, hfirst, hrest⟩ := bind_eq_ok.1 ok
      have executes := execute_executes hfirst
      exact ih (h.executes auto executes) (executes.adds.options ▸ auto) hrest

/-- If the service agrees with the client once the client has heard of an event, then it agrees with
what the client has made of it. -/
theorem process (h : Mirrors (Happening.next s.client.switchboard.transports (.heard e)) s)
    (sound : s.client.Sound identity settings) (auto : s.options.autoOpen = true)
    (ok : s.process e = .ok s') : Mirrors s'.client.switchboard.transports s' := by
  obtain ⟨client, actions, hhandle, hrun⟩ := process_eq_ok ok
  have hends := (sound.disciplined hhandle).ends
  have hclient : s'.client = client := (executeAll_adds hrun).client
  rw [hclient, ← hends]
  exact executeAll (s := { s with client := client }) ⟨h.opened, h.announced⟩ auto hrun

/-- The news that a transport is open are the last that is missing of it. -/
theorem heard {rest : List Event} (h : Mirrors w s) (queue : s.queue = e :: rest)
    (kept : ∀ a, e ≠ .transportClosed a) :
    Mirrors (Happening.next w (.heard e)) { s with queue := rest } := by
  have later : ∀ a, e ≠ .transportOpened a → w a = .asked → .transportOpened a ∈ rest := by
    intro a hne asked
    have hmem := h.announced a asked
    rw [queue] at hmem
    exact (List.mem_cons.1 hmem).resolve_left (Ne.symm hne)
  cases e with
  | transportOpened a =>
      refine ⟨fun b => ?_, fun b asked => ?_⟩
      · show s.isOpen b = true ↔ Function.update w a (w a).opened b ≠ .idle
        rw [h.opened b]
        by_cases heq : b = a
        · subst heq
          rw [Function.update_self, Ne, Ne, Transport.opened_eq_idle_iff]
        · rw [Function.update_of_ne heq]
      · have asked : Function.update w a (w a).opened b = .asked := asked
        by_cases heq : b = a
        · subst heq
          rw [Function.update_self] at asked
          cases hwas : w b <;> simp [hwas, Transport.opened] at asked
        · rw [Function.update_of_ne heq] at asked
          exact later b (fun he => heq (Event.transportOpened.inj he).symm) asked
  | transportClosed a => exact absurd rfl (kept a)
  | _ => exact ⟨h.opened, fun b => later b fun he => by cases he⟩

end Mirrors

/-! ## Turns of the loop -/

/-- The transports of the client and of the service agree, and nothing that is queued or held
reports one lost. -/
structure Synced (identity : Identity) (settings : LinkSettings) (s : Simulation) : Prop where
  sound : s.client.Sound identity settings
  auto : s.options.autoOpen = true
  mirrors : Mirrors s.client.switchboard.transports s
  queue : ∀ a, .transportClosed a ∉ s.queue
  held : ∀ a, .transportClosed a ∉ s.held

namespace Synced

theorem process (sound : s.client.Sound identity settings) (auto : s.options.autoOpen = true)
    (mirrors : Mirrors (Happening.next s.client.switchboard.transports (.heard e)) s)
    (queue : ∀ a, .transportClosed a ∉ s.queue) (held : ∀ a, .transportClosed a ∉ s.held)
    (ok : s.process e = .ok s') : Synced identity settings s' := by
  obtain ⟨hsound, adds, -⟩ := process_adds sound ok
  have hauto : s'.options.autoOpen = true := (congrArg Options.autoOpen adds.options).trans auto
  refine ⟨hsound, hauto, mirrors.process sound auto ok, fun a ha => ?_, fun a ha => ?_⟩
  · obtain ⟨new, hqueue, hanswers, -⟩ := adds.queue
    rw [hqueue] at ha
    rcases List.mem_append.1 ha with ha | ha
    · exact queue a ha
    · cases hanswers _ ha
  · rcases adds.held _ ha with ha | ha
    · exact held a ha
    · cases ha

theorem turned (h : Synced identity settings s) (turned : s.Turned t) :
    Synced identity settings t := by
  obtain ⟨e, rest, hqueue, ok⟩ := turned
  have hnot : ∀ a, e ≠ .transportClosed a := by
    rintro a rfl
    exact h.queue a (hqueue ▸ List.mem_cons_self)
  refine process (s := { s with queue := rest }) h.sound h.auto (h.mirrors.heard hqueue hnot)
    (fun a ha => h.queue a ?_) h.held ok
  rw [hqueue]
  exact List.mem_cons_of_mem _ ha

theorem turns (h : Synced identity settings s) (turns : ReflTransGen Turned s t) :
    Synced identity settings t := by
  induction turns with
  | refl => exact h
  | tail _ turned ih => exact ih.turned turned

theorem drop (h : Synced identity settings s) (empty : s.queue = []) {a : Address}
    (ok : s.drop a = .ok t) : Synced identity settings t := by
  let lost : Simulation := { s with transports := s.transports.erase a }
  have hok : lost.dispatch (.transportClosed a) = .ok t := ok
  rw [dispatch_of_empty (s := lost) empty] at hok
  obtain ⟨next, hprocess, hdrain⟩ := bind_eq_ok.1 hok
  have heard : Mirrors (Happening.next s.client.switchboard.transports
      (.heard (.transportClosed a))) lost := h.mirrors.erase a
  have hnext := process (s := lost) h.sound h.auto heard h.queue h.held hprocess
  exact hnext.turns (drain_turned hdrain)

/-- When nothing is queued, the transports that are open are those of the links that are live. -/
theorem isOpen_eq (h : Synced identity settings s) (empty : s.queue = []) (a : Address) :
    s.isOpen a = s.client.switchboard.isLive a := by
  have hannounced : s.client.switchboard.transports a ≠ .asked := by
    intro asked
    have hmem := h.mirrors.announced a asked
    rw [empty] at hmem
    cases hmem
  rw [Bool.eq_iff_iff, h.mirrors.opened a, ← Switchboard.transports_eq_up_iff]
  cases htransport : s.client.switchboard.transports a <;> simp_all

end Synced

/-! ## Moves -/

/-- Transports are opened when the client asks for them, and are lost only by being dropped. -/
def Move.spares : Move → Bool
  | .call (.openTransport _) | .call (.dispatch (.transportClosed _)) => false
  | .call (.autoOpen on) => on
  | .set options => options.autoOpen
  | _ => true

namespace Synced

theorem enqueue (h : Synced identity settings s) (kept : ∀ a, e ≠ .transportClosed a) :
    Synced identity settings (s.enqueue e) := by
  refine ⟨h.sound, h.auto, h.mirrors.mono rfl (List.subset_append_left _ _), fun a ha => ?_, h.held⟩
  rcases List.mem_append.1 ha with ha | ha
  · exact h.queue a ha
  · exact kept a (List.mem_singleton.1 ha).symm

theorem same (h : Synced identity settings s) (client : s'.client = s.client)
    (auto : s'.options.autoOpen = true) (transports : s'.transports = s.transports)
    (queue : s'.queue = s.queue) (held : s'.held = s.held) : Synced identity settings s' := by
  refine ⟨client ▸ h.sound, auto, ?_, fun a => queue ▸ h.queue a, fun a => held ▸ h.held a⟩
  rw [client]
  exact h.mirrors.mono transports (queue ▸ fun _ => id)

theorem release (h : Synced identity settings s) {events : List Event}
    (among : ∀ e ∈ events, e ∈ s.held) :
    Synced identity settings { s with held := [], queue := s.queue ++ events } := by
  refine ⟨h.sound, h.auto, h.mirrors.mono rfl (List.subset_append_left _ _), fun a ha => ?_,
    fun _ => List.not_mem_nil⟩
  rcases List.mem_append.1 ha with ha | ha
  · exact h.queue a ha
  · exact h.held a (among _ ha)

theorem arrange (h : Synced identity settings s) {m : Move} (spares : m.spares = true)
    (kept : ∀ a, m ≠ .call (.drop a)) (ok : s.arrange m = .ok t) :
    Synced identity settings t := by
  cases m with
  | call call =>
      cases call with
      | dispatch e =>
          cases ok
          refine h.enqueue ?_
          rintro a rfl
          cases spares
      | advance span =>
          obtain ⟨clock, -, hdone⟩ := bind_eq_ok.1 ok
          cases hdone
          have hlater : Synced identity settings { s with clock := clock } :=
            h.same rfl h.auto rfl rfl rfl
          exact hlater.enqueue nofun
      | drop a => exact absurd rfl (kept a)
      | openTransport a => cases spares
      | deliver a f =>
          cases ok
          exact h.enqueue nofun
      | failPosts on | failHistory on =>
          cases ok
          exact h.same rfl h.auto rfl rfl rfl
      | autoOpen on =>
          cases ok
          exact h.same rfl spares rfl rfl rfl
  | set options =>
      cases ok
      exact h.same rfl spares rfl rfl rfl
  | store room sender body ref =>
      obtain ⟨stored, -, hdone⟩ := bind_eq_ok.1 ok
      cases hdone
      exact h.same rfl h.auto rfl rfl rfl
  | bring room sender body ref =>
      obtain ⟨stored, -, hdone⟩ := bind_eq_ok.1 ok
      cases hdone
      have hstored : Synced identity settings { s with server := stored.1 } :=
        h.same rfl h.auto rfl rfl rfl
      exact hstored.enqueue nofun
  | release =>
      cases ok
      exact h.release fun _ => id
  | releaseReversed =>
      cases ok
      exact h.release fun _ => List.mem_reverse.1

theorem move (h : Synced identity settings s) (empty : s.queue = []) {m : Move}
    (spares : m.spares = true) (ok : s.move m = .ok t) : Synced identity settings t := by
  by_cases hdrop : ∃ a, m = .call (.drop a)
  · obtain ⟨a, rfl⟩ := hdrop
    exact h.drop empty ok
  · rw [move_eq empty] at ok
    obtain ⟨arranged, harranged, hsettled⟩ := bind_eq_ok.1 ok
    exact (h.arrange spares (fun a heq => hdrop ⟨a, heq⟩) harranged).turns (drain_turned hsettled)

end Synced

/-- From a new session whose transports are opened as they are asked for, whatever events are
handled, answers released, and transports dropped, held by the client or not: after every move the
transports that are open for the service are those of the links that are live for the client. -/
theorem transports_agree (identity : Identity) (settings : Settings) (epoch : Int64)
    (entropy : Entropy) (options : Options) (audited : Bool) (auto : options.autoOpen = true)
    (s : Simulation) (reached : Reached (fun _ m => m.spares = true)
      (new identity settings epoch entropy options audited) s) (a : Address) :
    s.isOpen a = s.client.switchboard.isLive a := by
  have sound := Client.sound_new identity settings .zero entropy
  have empty : ∀ {t}, Reached (fun _ m => m.spares = true)
      (new identity settings epoch entropy options audited) t → t.queue = [] :=
    fun reached => (reached.rests sound rfl).2
  have synced : Synced identity settings.link s := by
    induction reached with
    | start =>
        refine ⟨sound, auto, ⟨fun a => ?_, nofun⟩, fun _ => List.not_mem_nil,
          fun _ => List.not_mem_nil⟩
        exact iff_of_false Bool.false_ne_true (not_not_intro rfl)
    | move reached spares made ih => exact ih.move (empty reached) spares made
    | elsewhere reached alike ih =>
        obtain ⟨entropy', hclient⟩ := alike.client
        refine ⟨hclient ▸ ih.sound.with_entropy entropy', alike.options ▸ ih.auto, ?_,
          fun a => alike.queue ▸ ih.queue a, fun a => alike.held ▸ ih.held a⟩
        rw [hclient]
        exact ih.mirrors.mono alike.transports (alike.queue ▸ fun _ => id)
  exact synced.isOpen_eq (empty reached) a

/-- The channel of a room is lost, an address is dropped that nobody holds, and the lost channel is
opened again in time. -/
theorem transports_agree_after_outage :
    let start := new ⟨1, "me"⟩ .standard 0 (.cycle [0]) .standard true
    ∃ down up, Reached (fun _ m => m.spares = true) start down ∧
      Reached (fun _ m => m.spares = true) start up ∧
      (down.isOpen (.room ⟨1, 2⟩), up.isOpen (.room ⟨1, 2⟩)) = (false, true) ∧
      down.client.switchboard.isLive (.room ⟨1, 2⟩) = false ∧
      up.client.switchboard.isLive (.room ⟨1, 2⟩) = true := by
  intro start
  let room : Room := ⟨1, 2⟩
  let outage : List Move := [.call (.dispatch .start), .call (.dispatch (.enterRoom room)),
    .call (.drop (.room room)), .call (.drop (.room ⟨1, 3⟩))]
  have hends : ((start.play (fun _ m => m.spares = true) outage).bind fun down =>
      (down.play (fun _ m => m.spares = true) [.call (.advance (.ofSeconds 60))]).map fun up =>
        (down.isOpen (.room room), up.isOpen (.room room))) = some (false, true) := by
    decide +kernel
  obtain ⟨down, houtage, hdown⟩ := Option.bind_eq_some_iff.1 hends
  obtain ⟨up, hadvance, hopen⟩ := Option.map_eq_some_iff.1 hdown
  have plays := Plays.start.play houtage
  have agree := transports_agree ⟨1, "me"⟩ .standard 0 (.cycle [0]) .standard true rfl
  obtain ⟨hlost, hfound⟩ := Prod.mk.inj hopen
  refine ⟨down, up, plays.reached, (plays.play hadvance).reached, hopen, ?_, ?_⟩
  · exact (agree down plays.reached _).symm.trans hlost
  · exact (agree up (plays.play hadvance).reached _).symm.trans hfound

end LiveChat.Simulation
