import LiveChat.Proofs.Channel.Switchboard

/-!
# What links keep and what they ask for

A link comes alive only when its transport opens, and only then sends what it keeps; what it keeps
changes only when a frame is kept. All other operations leave what is kept, bring no link alive and
ask for nobody's presence.
-/

namespace LiveChat

/-- The users whose presence a frame asks for. -/
def ClientFrame.users : ClientFrame → List UserId
  | .watch users => users
  | _ => []

/-- The link keeps what it kept, and does not come alive. -/
structure Link.Wanes (l l' : Link) : Prop where
  standing : l'.standing = l.standing
  live : l'.isLive = true → l.isLive = true

namespace Link

variable {l l' l'' : Link}

theorem Wanes.refl (l : Link) : l.Wanes l := ⟨rfl, id⟩

theorem Wanes.trans (h : l.Wanes l') (h' : l'.Wanes l'') : l.Wanes l'' :=
  ⟨h'.standing.trans h.standing, h.live ∘ h'.live⟩

theorem opened_wanes (h : l.phase ≠ .opening) (now : Instant) : l.Wanes (l.opened now).1 := by
  unfold opened
  split
  · next hphase => exact absurd hphase h
  · exact .refl l

theorem tick_wanes (l : Link) (now : Instant) : l.Wanes (l.tick now).1 := by
  refine ⟨(l.tick_alike now).standing, ?_⟩
  unfold tick
  cases hphase : l.phase with
  | live beatAt => exact fun _ => by simp [isLive, hphase]
  | waiting since delay =>
      dsimp only
      split
      · exact fun h => absurd h Bool.false_ne_true
      · exact id
  | down | opening => exact id

theorem lost_wanes {now : Instant} {e e' : Entropy} (h : l.lost now e = .ok (l', e')) :
    l.Wanes l' := by
  rcases lost_cases h with ⟨-, rfl, -⟩ | ⟨-, delay, -, rfl⟩
  · exact .refl l'
  · exact ⟨rfl, fun h => absurd h Bool.false_ne_true⟩

end Link

/-- The users whose presence is asked for on the global channel. -/
def LinkAction.users : LinkAction → List UserId
  | .sending .global f => f.users
  | _ => []

theorem LinkAction.users_sending {a : Address} (h : a ≠ .global) (f : ClientFrame) :
    (sending a f).users = [] := by
  cases a with
  | global => exact absurd rfl h
  | room => rfl

namespace Switchboard

variable {b b' b'' : Switchboard} {a a' : Address} {actions : List LinkAction}

/-- If the address still has a link, that keeps what it kept and does not come alive. -/
def Wanes (b b' : Switchboard) (a : Address) : Prop :=
  ∀ l', b'.link? a = some l' → ∃ l, b.link? a = some l ∧ l.Wanes l'

theorem wanes_of_eq (h : b'.link? a = b.link? a) : b.Wanes b' a :=
  fun l' hl' => ⟨l', h ▸ hl', .refl l'⟩

theorem Wanes.trans (h : b.Wanes b' a) (h' : b'.Wanes b'' a) : b.Wanes b'' a := by
  intro l'' hl''
  obtain ⟨l', hl', hwanes'⟩ := h' l'' hl''
  obtain ⟨l, hl, hwanes⟩ := h l' hl'
  exact ⟨l, hl, hwanes.trans hwanes'⟩

theorem link?_insert {line : Line} :
    link? { b with lines := b.lines.insert a line } a' =
      if a' = a then some line.link else b.link? a' := by
  simp only [link?, Table.find?_insert]
  by_cases heq : a' = a <;> simp [heq]

theorem link?_eq_some {l : Link} (h : b.link? a = some l) :
    ∃ line, b.lines.find? a = some line ∧ line.link = l := Option.map_eq_some_iff.1 h

theorem link?_of_line {line : Line} (h : b.lines.find? a = some line) :
    b.link? a = some line.link := by
  rw [link?, h]
  rfl

/-- Putting another link in the place of the one of an address. -/
theorem setLink_wanes {line : Line} {link : Link} (hline : b.lines.find? a = some line)
    (h : line.link.Wanes link) (a' : Address) : b.Wanes (b.setLink a line link) a' := by
  intro l' hl'
  rw [setLink, link?_insert] at hl'
  split at hl'
  · next heq =>
    cases hl'
    exact ⟨line.link, heq ▸ link?_of_line hline, h⟩
  · exact ⟨l', hl', .refl l'⟩

theorem acquire_wanes (h : a' ≠ a) : b.Wanes (b.acquire a).1 a' := by
  refine wanes_of_eq ?_
  unfold acquire
  split <;> rw [link?_insert, if_neg h]

theorem release_wanes (h : b.release a = .ok (b', actions)) (a' : Address) : b.Wanes b' a' := by
  obtain ⟨line, hline, ⟨-, -, rfl⟩ | ⟨-, -, rfl⟩⟩ := release_cases h
  · refine wanes_of_eq ?_
    rw [link?_insert]
    split
    · next heq => rw [heq, link?_of_line hline]
    · rfl
  · intro l' hl'
    rw [link?, Table.find?_erase] at hl'
    split at hl'
    · cases hl'
    · exact ⟨l', hl', .refl l'⟩

theorem opened_wanes (h : a' = a → ∀ l, b.link? a = some l → l.phase ≠ .opening)
    (now : Instant) : b.Wanes (b.opened a now).1 a' := by
  unfold opened
  split
  · exact wanes_of_eq rfl
  · next line hline =>
    by_cases heq : a' = a
    · exact setLink_wanes hline (Link.opened_wanes (h heq _ (link?_of_line hline)) now) a'
    · refine wanes_of_eq ?_
      show (b.setLink a line _).link? a' = _
      rw [setLink, link?_insert, if_neg heq]

theorem lost_wanes {now : Instant} {e e' : Entropy} (h : b.lost a now e = .ok (b', e'))
    (a' : Address) : b.Wanes b' a' := by
  rcases lost_cases h with ⟨-, rfl, -⟩ | ⟨line, link, hline, hlost, rfl⟩
  · exact wanes_of_eq rfl
  · exact setLink_wanes hline (Link.lost_wanes hlost) a'

theorem tick_wanes (b : Switchboard) (now : Instant) (a : Address) : b.Wanes (b.tick now).1 a := by
  intro l' hl'
  simp only [link?, tick, Table.find?_map, Option.map_map, Option.map_eq_some_iff] at hl'
  obtain ⟨line, hline, rfl⟩ := hl'
  exact ⟨line.link, link?_of_line hline, line.link.tick_wanes now⟩

theorem acquire_users : (b.acquire a).2.flatMap LinkAction.users = [] :=
  List.flatMap_eq_nil_iff.2 (acquire_asks rfl)

theorem release_users (h : b.release a = .ok (b', actions)) :
    actions.flatMap LinkAction.users = [] :=
  List.flatMap_eq_nil_iff.2 (release_asks h fun _ => rfl)

theorem closeAll_users : b.closeAll.2.flatMap LinkAction.users = [] :=
  List.flatMap_eq_nil_iff.2 (closeAll_asks fun _ => rfl)

theorem tick_users (now : Instant) : (b.tick now).2.flatMap LinkAction.users = [] :=
  List.flatMap_eq_nil_iff.2 (tick_asks (fun _ => rfl) (fun a => by cases a <;> rfl) now)

/-- What is sent on the channel of a room asks for no presence. -/
theorem Sound.send_users (h : b.Sound) (away : a ≠ .global) (f : ClientFrame) :
    (b.send a f).flatMap LinkAction.users = [] := by
  rw [h.send_eq]
  split <;> simp [LinkAction.users_sending away]

theorem Sound.opened_users (h : b.Sound) (away : a ≠ .global) (now : Instant) :
    (b.opened a now).2.flatMap LinkAction.users = [] :=
  List.flatMap_eq_nil_iff.2
    (h.opened_asks (by rfl) (fun f _ => LinkAction.users_sending away f) now)

end Switchboard

end LiveChat
