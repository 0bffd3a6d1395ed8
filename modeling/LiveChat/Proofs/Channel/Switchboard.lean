import LiveChat.Channel.Switchboard
import LiveChat.Proofs.Channel.Retry
import LiveChat.Proofs.Table

/-!
# Lines of a switchboard

A line stands under the address of its link, has the settings of the switchboard and at least one
holder, and keeps nothing but subscriptions. Every operation preserves this, and changes the number
of holders of one address at most.
-/

namespace LiveChat

def ClientFrame.isWatch : ClientFrame → Bool
  | .watch _ => true
  | _ => false

namespace Link

/-- All but the phase and the count of failures stays. -/
structure Alike (l l' : Link) : Prop where
  address : l'.address = l.address
  settings : l'.settings = l.settings
  standing : l'.standing = l.standing

variable {l l' : Link}

theorem opened_alike (l : Link) (now : Instant) : l.Alike (l.opened now).1 := by
  unfold opened
  split <;> exact ⟨rfl, rfl, rfl⟩

theorem tick_alike (l : Link) (now : Instant) : l.Alike (l.tick now).1 := by
  unfold tick
  split
  · split <;> exact ⟨rfl, rfl, rfl⟩
  · split <;> exact ⟨rfl, rfl, rfl⟩
  · exact ⟨rfl, rfl, rfl⟩
  · exact ⟨rfl, rfl, rfl⟩

/-- All that the loss of a transport can do: it counts only for a link that is being opened or
live. -/
theorem lost_cases {now : Instant} {e e' : Entropy} (ok : l.lost now e = .ok (l', e')) :
    (l.phase ≠ .opening ∧ l.isLive = false) ∧ l' = l ∧ e' = e ∨
      (l.phase = .opening ∨ l.isLive = true) ∧ ∃ delay,
        l.settings.retry.delay (min (l.failures + 1) maxFailures) e = (.ok delay, e') ∧
        l' = { l with
          phase := .waiting now delay, failures := min (l.failures + 1) maxFailures } := by
  unfold lost at ok
  cases hphase : l.phase with
  | down | waiting =>
      rw [hphase] at ok
      cases ok
      exact .inl ⟨by simp [isLive, hphase], rfl, rfl⟩
  | opening | live =>
      rw [hphase] at ok
      dsimp only at ok
      split at ok
      · next delay e₁ hdelay =>
        cases ok
        exact .inr ⟨by simp [isLive, hphase], delay, hdelay, rfl⟩
      · cases ok

theorem lost_alike {now : Instant} {e e' : Entropy} (h : l.lost now e = .ok (l', e')) :
    l.Alike l' := by
  rcases lost_cases h with ⟨-, rfl, -⟩ | ⟨-, delay, -, rfl⟩ <;> exact ⟨rfl, rfl, rfl⟩

end Link

theorem Link.lost_isOk {l : Link} (never : l.settings.retry.NeverOverflows) (now : Instant)
    (e : Entropy) : ∃ l' e', l.lost now e = .ok (l', e') := by
  unfold lost
  split
  · exact ⟨_, _, rfl⟩
  · exact ⟨_, _, rfl⟩
  all_goals
    dsimp only
    obtain ⟨d, hd⟩ := never (min (l.failures + 1) maxFailures) e
    generalize l.settings.retry.delay _ e = delay at hd
    obtain ⟨result, e'⟩ := delay
    obtain rfl : result = .ok d := hd
    exact ⟨_, _, rfl⟩

theorem Link.lost_error {l : Link} {now : Instant} {e : Entropy} {f : Fault}
    (h : l.lost now e = .error f) : f = .overflow := by
  unfold lost at h
  split at h
  · cases h
  · cases h
  all_goals
    dsimp only at h
    split at h
    · cases h
    · next fault e' hdelay =>
      cases h
      exact Retry.delay_error (congrArg Prod.fst hdelay)

/-- What holds of a line under an address. -/
structure Line.Fits (settings : LinkSettings) (a : Address) (line : Line) : Prop where
  held : 0 < line.holders
  address : line.link.address = a
  settings : line.link.settings = settings
  standing : ∀ f ∈ line.link.standing.values, f.isWatch = true

theorem Line.Fits.alike {settings : LinkSettings} {a : Address} {line : Line} {link : Link}
    (h : line.Fits settings a) (alike : line.link.Alike link) :
    Line.Fits settings a { line with link } where
  held := h.held
  address := alike.address.trans h.address
  settings := alike.settings.trans h.settings
  standing := by
    show ∀ f ∈ link.standing.values, f.isWatch = true
    rw [alike.standing]
    exact h.standing

theorem Line.Fits.keep {settings : LinkSettings} {a : Address} {line : Line} {f : ClientFrame}
    (h : line.Fits settings a) (watch : f.isWatch = true) :
    Line.Fits settings a { line with link := line.link.keep f } where
  held := h.held
  address := h.address
  settings := h.settings
  standing := by
    intro g hg
    obtain ⟨kind, hkind⟩ := Table.mem_values_iff.1 hg
    simp only [Link.keep, Table.find?_insert] at hkind
    split at hkind
    · cases hkind
      exact watch
    · exact h.standing g (Table.mem_values_iff.2 ⟨kind, hkind⟩)

namespace Switchboard

/-- Every line fits its address. -/
def Sound (b : Switchboard) : Prop := ∀ a line, b.lines.find? a = some line → line.Fits b.settings a

variable {b b' : Switchboard} {a a' : Address} {line : Line}

theorem sound_new (settings : LinkSettings) : (new settings).Sound := nofun

theorem Sound.insert (h : b.Sound) (fits : line.Fits b.settings a) :
    Sound { b with lines := b.lines.insert a line } := by
  intro a' line' hline
  simp only [Table.find?_insert] at hline
  split at hline
  · next heq =>
    cases hline
    exact heq ▸ fits
  · exact h a' line' hline

theorem Sound.setLink (h : b.Sound) (hline : b.lines.find? a = some line) {link : Link}
    (alike : line.link.Alike link) : (b.setLink a line link).Sound :=
  h.insert ((h a line hline).alike alike)

theorem link?_isSome : (b.link? a).isSome = (b.lines.find? a).isSome := Option.isSome_map

theorem link?_isSome_iff (held : ∀ line, b.lines.find? a = some line → 0 < line.holders) :
    (b.link? a).isSome = true ↔ 0 < b.holders a := by
  rw [link?_isSome, holders]
  cases hline : b.lines.find? a with
  | none => simp
  | some line => simpa using held line hline

theorem Sound.link?_isSome_iff (h : b.Sound) : (b.link? a).isSome = true ↔ 0 < b.holders a :=
  Switchboard.link?_isSome_iff fun line hline => (h a line hline).held

theorem holders_insert :
    holders { b with lines := b.lines.insert a line } a' =
      if a' = a then line.holders else b.holders a' := by
  simp only [holders, Table.find?_insert]
  by_cases heq : a' = a <;> simp [heq]

theorem holders_setLink (hline : b.lines.find? a = some line) (link : Link) :
    (b.setLink a line link).holders a' = b.holders a' := by
  rw [setLink, holders_insert]
  split
  · next heq => simp [heq, holders, hline]
  · rfl

/-! ## What succeeds and what is refused -/

theorem release_cases {actions : List LinkAction} (ok : b.release a = .ok (b', actions)) :
    ∃ line, b.lines.find? a = some line ∧
      (1 < line.holders ∧ actions = [] ∧
          b' = { b with lines := b.lines.insert a { line with holders := line.holders - 1 } } ∨
        line.holders ≤ 1 ∧ actions = line.link.close.2 ∧
          b' = { b with lines := b.lines.erase a }) := by
  unfold release at ok
  split at ok
  · cases ok
  · next line hline =>
    split at ok
    · next more =>
      cases ok
      exact ⟨line, hline, .inl ⟨more, rfl, rfl⟩⟩
    · next last =>
      cases ok
      exact ⟨line, hline, .inr ⟨Nat.le_of_not_lt last, rfl, rfl⟩⟩

theorem release_error {error : Error} (h : b.release a = .error error) :
    b.lines.find? a = none ∧ error = .unknownAddress a := by
  unfold release at h
  split at h
  · next hline =>
    cases h
    exact ⟨hline, rfl⟩
  · split at h <;> cases h

theorem lost_cases {now : Instant} {e e' : Entropy} (ok : b.lost a now e = .ok (b', e')) :
    b.lines.find? a = none ∧ b' = b ∧ e' = e ∨
      ∃ line link, b.lines.find? a = some line ∧ line.link.lost now e = .ok (link, e') ∧
        b' = b.setLink a line link := by
  unfold lost at ok
  split at ok
  · next hline =>
    cases ok
    exact .inl ⟨hline, rfl, rfl⟩
  · next line hline =>
    cases hlost : line.link.lost now e with
    | error f =>
        rw [hlost] at ok
        cases ok
    | ok pair =>
        rw [hlost] at ok
        cases ok
        exact .inr ⟨line, _, hline, hlost, rfl⟩

theorem keep_cases {f : ClientFrame} (ok : b.keep a f = .ok b') :
    ∃ line, b.lines.find? a = some line ∧ b' = b.setLink a line (line.link.keep f) := by
  unfold keep at ok
  split at ok
  · cases ok
  · next line hline =>
    cases ok
    exact ⟨line, hline, rfl⟩

theorem keep_error {f : ClientFrame} {error : Error} (h : b.keep a f = .error error) :
    b.lines.find? a = none ∧ error = .unknownAddress a := by
  unfold keep at h
  split at h
  · next hline =>
    cases h
    exact ⟨hline, rfl⟩
  · cases h

/-! ## Acquiring and releasing -/

@[simp] theorem acquire_settings : (b.acquire a).1.settings = b.settings := by
  unfold acquire
  split <;> rfl

theorem holders_acquire :
    (b.acquire a).1.holders a' = if a' = a then b.holders a + 1 else b.holders a' := by
  have hnow : b.holders a = ((b.lines.find? a).map Line.holders).getD 0 := rfl
  unfold acquire
  cases hline : b.lines.find? a with
  | some line =>
      rw [holders_insert, hnow, hline]
      rfl
  | none =>
      rw [hnow, hline]
      exact holders_insert

theorem Sound.acquire (h : b.Sound) : (b.acquire a).1.Sound := by
  unfold Switchboard.acquire
  split
  · next line hline =>
    have hfits := h a line hline
    exact h.insert ⟨Nat.succ_pos _, hfits.address, hfits.settings, hfits.standing⟩
  · exact h.insert ⟨Nat.one_pos, rfl, rfl, nofun⟩

/-- Letting go of an address that is held succeeds. -/
theorem Sound.release (h : b.Sound) (held : 0 < b.holders a) :
    ∃ b' actions, b.release a = .ok (b', actions) ∧ b'.Sound ∧ b'.settings = b.settings ∧
      ∀ a', b'.holders a' = if a' = a then b.holders a - 1 else b.holders a' := by
  unfold Switchboard.release
  cases hline : b.lines.find? a with
  | none => simp [holders, hline] at held
  | some line =>
      have hfits := h a line hline
      have hholders : b.holders a = line.holders := by simp [holders, hline]
      dsimp only
      split
      · next hmore =>
        refine ⟨_, _, rfl, h.insert ⟨?_, hfits.address, hfits.settings, hfits.standing⟩, rfl, ?_⟩
        · show 0 < line.holders - 1
          omega
        · intro a'
          rw [holders_insert, hholders]
      · next hlast =>
        refine ⟨_, _, rfl, ?_, rfl, fun a' => ?_⟩
        · intro a' line' hline'
          simp only [Table.find?_erase] at hline'
          split at hline'
          · cases hline'
          · exact h a' line' hline'
        · simp only [holders, Table.find?_erase, hline]
          split
          · simp
            omega
          · rfl

/-! ## What happens to a link -/

/-- The operations that concern the links alone. -/
structure SameHolders (b b' : Switchboard) : Prop where
  settings : b'.settings = b.settings
  holders : ∀ a, b'.holders a = b.holders a

theorem opened_spec (h : b.Sound) (now : Instant) :
    (b.opened a now).1.Sound ∧ b.SameHolders (b.opened a now).1 := by
  unfold opened
  split
  · exact ⟨h, rfl, fun _ => rfl⟩
  · next line hline =>
    exact ⟨h.setLink hline (line.link.opened_alike now), rfl, fun _ => holders_setLink hline _⟩

theorem lost_spec (h : b.Sound) {now : Instant} {e e' : Entropy}
    (ok : b.lost a now e = .ok (b', e')) : b'.Sound ∧ b.SameHolders b' := by
  rcases lost_cases ok with ⟨-, rfl, -⟩ | ⟨line, link, hline, hlost, rfl⟩
  · exact ⟨h, rfl, fun _ => rfl⟩
  · exact ⟨h.setLink hline (Link.lost_alike hlost), rfl, fun _ => holders_setLink hline _⟩

theorem Sound.lost_isOk (h : b.Sound) (never : b.settings.retry.NeverOverflows) (a : Address)
    (now : Instant) (e : Entropy) : ∃ b' e', b.lost a now e = .ok (b', e') := by
  unfold lost
  split
  · exact ⟨b, e, rfl⟩
  · next line hline =>
    rw [← (h a line hline).settings] at never
    obtain ⟨l', e', hlost⟩ := Link.lost_isOk never now e
    rw [hlost]
    exact ⟨_, _, rfl⟩

theorem lost_error {now : Instant} {e : Entropy} {f : Fault} (h : b.lost a now e = .error f) :
    f = .overflow := by
  unfold lost at h
  split at h
  · cases h
  · next line _ =>
    cases hlost : line.link.lost now e with
    | ok pair =>
        rw [hlost] at h
        cases h
    | error g =>
        rw [hlost] at h
        cases h
        exact Link.lost_error hlost

/-- A frame can be kept for an address that is held. -/
theorem Sound.keep (h : b.Sound) (held : 0 < b.holders a) {f : ClientFrame}
    (watch : f.isWatch = true) :
    ∃ b', b.keep a f = .ok b' ∧ b'.Sound ∧ b.SameHolders b' := by
  unfold Switchboard.keep
  cases hline : b.lines.find? a with
  | none => simp [holders, hline] at held
  | some line =>
      exact ⟨_, rfl, h.insert ((h a line hline).keep watch), rfl, fun _ => holders_setLink hline _⟩

theorem tick_spec (h : b.Sound) (now : Instant) :
    (b.tick now).1.Sound ∧ b.SameHolders (b.tick now).1 := by
  refine ⟨fun a line hline => ?_, rfl, fun a => ?_⟩
  · simp only [tick, Table.find?_map, Option.map_eq_some_iff] at hline
    obtain ⟨line, hline, rfl⟩ := hline
    exact (h a line hline).alike (line.link.tick_alike now)
  · simp only [holders, tick, Table.find?_map]
    cases b.lines.find? a <;> rfl

theorem closeAll_sound : b.closeAll.1.Sound := nofun

/-- A frame goes out if the link is live, and is dropped if not. -/
theorem Sound.send_eq (h : b.Sound) (a : Address) (f : ClientFrame) :
    b.send a f = if b.isLive a then [.sending a f] else [] := by
  unfold send isLive link?
  cases hline : b.lines.find? a with
  | none => rfl
  | some line =>
      have haddress := (h a line hline).address
      show line.link.send f = if line.link.isLive then _ else _
      rw [Link.send, haddress]

theorem Sound.send_of_live (h : b.Sound) (live : b.isLive a = true) (f : ClientFrame) :
    b.send a f = [.sending a f] := by
  rw [h.send_eq, if_pos live]

end Switchboard

/-! ## What is asked of transports

Whatever holds of the few things that an operation can ask for holds of all that it does ask for.
-/

variable {P : LinkAction → Prop}

namespace Link

theorem start_asks (l : Link) (opening : P (.opening l.address)) : ∀ x ∈ l.start.2, P x := by
  unfold start
  cases l.phase with
  | down | waiting => simpa using opening
  | opening | live => simp

theorem close_asks (l : Link) (closing : P (.closing l.address)) : ∀ x ∈ l.close.2, P x := by
  unfold close
  cases l.phase with
  | down | waiting => simp
  | opening | live => simpa using closing

theorem opened_asks (l : Link) (standing : ∀ f ∈ l.standing.values, P (.sending l.address f))
    (now : Instant) : ∀ x ∈ (l.opened now).2, P x := by
  unfold opened
  cases l.phase with
  | opening => simpa using standing
  | down | waiting | live => simp

theorem tick_asks (l : Link) (opening : P (.opening l.address))
    (beat : P (.sending l.address .heartbeat)) (now : Instant) : ∀ x ∈ (l.tick now).2, P x := by
  unfold tick
  cases l.phase with
  | down | opening => simp
  | live beatAt =>
      dsimp only
      split
      · simpa using beat
      · simp
  | waiting since delay =>
      dsimp only
      split
      · simpa using opening
      · simp

end Link

namespace Switchboard

variable {b b' : Switchboard} {a : Address} {actions : List LinkAction}

theorem acquire_asks (opening : P (.opening a)) : ∀ x ∈ (b.acquire a).2, P x := by
  unfold acquire
  split
  · simp
  · exact (Link.new a b.settings).start_asks opening

theorem release_asks (ok : b.release a = .ok (b', actions)) (closing : ∀ a, P (.closing a)) :
    ∀ x ∈ actions, P x := by
  obtain ⟨line, -, ⟨-, rfl, -⟩ | ⟨-, rfl, -⟩⟩ := release_cases ok
  · simp
  · exact line.link.close_asks (closing _)

theorem Sound.opened_asks (h : b.Sound) (closing : P (.closing a))
    (watch : ∀ f, f.isWatch = true → P (.sending a f)) (now : Instant) :
    ∀ x ∈ (b.opened a now).2, P x := by
  unfold opened
  split
  · simpa using closing
  · next line hline =>
    have hfits := h a line hline
    exact line.link.opened_asks (fun f hf => hfits.address.symm ▸ watch f (hfits.standing f hf)) now

theorem send_asks {f : ClientFrame} (sending : ∀ a, P (.sending a f)) : ∀ x ∈ b.send a f, P x := by
  unfold send
  split
  · simp
  · unfold Link.send
    split
    · simpa using sending _
    · simp

theorem tick_asks (opening : ∀ a, P (.opening a)) (beat : ∀ a, P (.sending a .heartbeat))
    (now : Instant) : ∀ x ∈ (b.tick now).2, P x := by
  intro x hx
  obtain ⟨line, -, hx⟩ := List.mem_flatMap.1 hx
  exact line.link.tick_asks (opening _) (beat _) now x hx

theorem closeAll_asks (closing : ∀ a, P (.closing a)) : ∀ x ∈ b.closeAll.2, P x := by
  intro x hx
  obtain ⟨line, -, hx⟩ := List.mem_flatMap.1 hx
  exact line.link.close_asks (closing _) x hx

end Switchboard

end LiveChat
