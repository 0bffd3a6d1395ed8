import LiveChat.Proofs.Client.Run

/-!
# Ticks at one instant

A tick does all that is due. What it does puts off each timer that it has served: the heartbeat is
timed anew from the tick on, a channel that is opened again waits no longer, and who has turned idle
or has stopped typing does not do so twice. So a further tick at the same instant finds nothing due,
even where the clock went back or a wait is zero.
-/

namespace LiveChat

theorem Link.tick_tick {l : Link} (beats : .zero < l.settings.heartbeatEvery) (now : Instant) :
    (l.tick now).1.tick now = ((l.tick now).1, []) := by
  have fresh : ¬ l.settings.heartbeatEvery ≤ now - now := by
    rw [Duration.sub_self]
    exact Nat.not_le.2 beats
  unfold tick
  cases hphase : l.phase with
  | down | opening => simp only [hphase]
  | waiting since delay =>
      by_cases due : delay ≤ now - since
      · simp only [if_pos due]
      · simp only [hphase, if_neg due]
  | live beatAt =>
      by_cases due : l.settings.heartbeatEvery ≤ now - beatAt
      · simp only [if_pos due, if_neg fresh]
      · simp only [hphase, if_neg due]

theorem Switchboard.tick_tick {b : Switchboard} (beats : ∀ a line, b.lines.find? a = some line →
    .zero < line.link.settings.heartbeatEvery) (now : Instant) :
    (b.tick now).1.tick now = ((b.tick now).1, []) := by
  have settled : ∀ a line, b.lines.find? a = some line →
      (line.link.tick now).1.tick now = ((line.link.tick now).1, []) :=
    fun a line hline => Link.tick_tick (beats a line hline) now
  refine Prod.ext (congrArg (Switchboard.mk _) (Table.ext_find? fun a => ?_)) ?_
  · simp only [tick, Table.find?_map, Option.map_map]
    cases hline : b.lines.find? a with
    | none => rfl
    | some line => simp [settled a line hline]
  · refine List.flatMap_eq_nil_iff.2 fun ticked hticked => ?_
    obtain ⟨a, hfind⟩ := Table.mem_values_iff.1 hticked
    rw [tick, Table.find?_map, Option.map_eq_some_iff] at hfind
    obtain ⟨line, hline, rfl⟩ := hfind
    exact congrArg Prod.snd (settled a line hline)

theorem IdleWatch.tick_tick (w : IdleWatch) (now : Instant) :
    (w.tick now).1.tick now = ((w.tick now).1, none) := by
  unfold tick
  by_cases due : !w.idle ∧ w.threshold ≤ now - w.armedAt
  · simp only [if_pos due, Bool.not_true, Bool.false_eq_true, false_and, if_false]
  · simp only [if_neg due]

theorem Roster.tick_tick (r : Roster) (now : Instant) :
    (r.tick now).1.tick now = ((r.tick now).1, none) := by
  simp [tick, IdleWatch.tick_tick]

theorem TypingSignal.tick_tick (s : TypingSignal) (now : Instant) (timeout : Duration) :
    (s.tick now timeout).1.tick now timeout = ((s.tick now timeout).1, none) := by
  unfold tick
  cases hlast : s.lastInput with
  | none => simp only [hlast]
  | some last =>
      by_cases early : now - last < timeout
      · simp only [hlast, if_pos early]
      · simp only [if_neg early, silent]

theorem Typists.expire_expire (t : Typists) (now : Instant) (ttl : Duration) :
    (t.expire now ttl).1.expire now ttl = ((t.expire now ttl).1, false) := by
  have kept : (t.expire now ttl).1.table.filter (fun _ e => now - e.refreshedAt < ttl) =
      (t.expire now ttl).1.table := by
    refine Table.ext_entries ?_
    simp [expire, Table.filter]
  unfold expire at kept ⊢
  simp [kept]

theorem Conversation.tick_tick (c : Conversation) (now : Instant) :
    (c.tick now).1.tick now = ((c.tick now).1, []) := by
  simp [tick, TypingSignal.tick_tick, Typists.expire_expire, typistsEffect]

namespace Client

theorem tick_tick {c : Client} (beats : ∀ a line, c.switchboard.lines.find? a = some line →
    .zero < line.link.settings.heartbeatEvery) (now : Instant) :
    (c.tick now).1.tick now = ((c.tick now).1, []) := by
  simp [tick, applyChat, Switchboard.tick_tick beats, Roster.tick_tick, Conversation.tick_tick,
    ofLinks, sendGlobal]

/-- Whatever the client has been through, a tick is handled, and when it is given again at once then
nothing is asked for and nothing changes, as long as there is some time between heartbeats. -/
theorem second_tick_does_nothing (identity : Identity) (settings : Settings) (start : Instant)
    (entropy : Entropy) (log : List Turn) (c : Client)
    (run : Run (new identity settings start entropy) log c)
    (beats : .zero < settings.link.heartbeatEvery) (r r' : Reading) (now : Instant) :
    ∃ c' actions, c.handle r (.tick now) = .ok (c', actions) ∧
      c'.handle r' (.tick now) = .ok (c', []) := by
  have sound := run.sound (sound_new identity settings start entropy)
  refine ⟨_, _, rfl, congrArg Except.ok (tick_tick (fun a line hline => ?_) now)⟩
  rwa [(sound.switchboard a line hline).settings, sound.settings]

/-- All waits are zero, and all that a tick can do is due: a channel is opened again, the other one
gets its heartbeat and is told that the user has stopped typing, who types goes, and the user turns
idle. -/
theorem all_due_at_one_tick :
    let room : Room := ⟨1, 2⟩
    let settings : Settings :=
      ⟨⟨.ofSeconds 1, .fixed .zero⟩, ⟨30, .zero, .zero, .zero⟩, .zero⟩
    let now : Instant := .ofSeconds 5
    .zero < settings.link.heartbeatEvery ∧
    ∃ log c, Run (new ⟨1, "ada"⟩ settings .zero (.cycle [])) log c ∧
      ∀ r, ∃ c', c.handle r (.tick now) = .ok (c',
          [.openTransport .global, .sendFrame (.room room) ClientFrame.heartbeat.encode,
            .sendFrame (.room room) ClientFrame.stoppedTyping.encode, .typistsChanged]) ∧
        c'.roster.idleWatch.idle = true ∧ c'.handle r (.tick now) = .ok (c', []) := by
  intro room settings now
  have beats : .zero < settings.link.heartbeatEvery := by decide
  obtain ⟨log, c, run, -, hends⟩ := Run.of_replay (new ⟨1, "ada"⟩ settings .zero (.cycle []))
    [(⟨.zero, none⟩, .start), (⟨.zero, none⟩, .transportOpened .global),
      (⟨.zero, none⟩, .enterRoom room), (⟨.zero, none⟩, .transportOpened (.room room)),
      (⟨.zero, none⟩, .frameReceived (.room room) (ServerFrame.typing 2 "bo").encode),
      (⟨.zero, none⟩, .input "hi"), (⟨.zero, none⟩, .transportClosed .global)]
    (f := fun _ c => ((c.tick now).2, (c.tick now).1.roster.idleWatch.idle))
    (a := ([.openTransport .global, .sendFrame (.room room) ClientFrame.heartbeat.encode,
      .sendFrame (.room room) ClientFrame.stoppedTyping.encode, .typistsChanged], true))
    (by decide +kernel)
  obtain ⟨hactions, hidle⟩ := Prod.mk.inj hends
  refine ⟨beats, log, c, run, fun r => ?_⟩
  obtain ⟨c', actions, hfirst, hsecond⟩ :=
    second_tick_does_nothing _ _ _ _ log c run beats r r now
  obtain ⟨rfl, rfl⟩ := Prod.mk.inj (Except.ok.inj hfirst)
  exact ⟨_, congrArg (fun actions => Except.ok (_, actions)) hactions, hidle, hsecond⟩

end Client

end LiveChat
