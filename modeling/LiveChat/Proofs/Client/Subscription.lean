import LiveChat.Proofs.Channel.Standing
import LiveChat.Proofs.Client.Transport
import LiveChat.Proofs.Presence.Roster
import LiveChat.Proofs.Wire.RoundTrip

/-!
# Subscriptions

The presence of users is asked for on the global channel: for all that are watched when the channel
comes alive, and for those that are new when more are watched while it is live. So since its
transport last came up each watched user has been asked for once and no other at all. What the
channel keeps for the next time is always what the roster watches.
-/

namespace LiveChat

namespace Roster

variable {r r' : Roster}

/-- What the global channel is to keep: that the watched users be asked for, if there are any. -/
def standing (r : Roster) : Table String ClientFrame :=
  match r.subscription with
  | none => .empty
  | some f => Table.empty.insert f.kind f

theorem standing_eq (r : Roster) :
    (r.subscription = none ∧ r.watched.keys = [] ∧ r.standing = .empty) ∨
      r.subscription = some (.watch r.watched.keys) ∧
        r.standing.entries = [("subscribe_presence", .watch r.watched.keys)] := by
  unfold standing subscription
  cases hempty : r.watched.isEmpty with
  | true => exact .inl ⟨rfl, congrArg (List.map _) (List.isEmpty_iff.1 hempty), rfl⟩
  | false => exact .inr ⟨rfl, rfl⟩

/-- What is kept asks for all that are watched. -/
theorem standing_users (r : Roster) :
    r.standing.values.flatMap ClientFrame.users = r.watched.keys := by
  unfold Table.values
  rcases r.standing_eq with ⟨-, hkeys, hstanding⟩ | ⟨-, hentries⟩
  · rw [hstanding, hkeys]
    rfl
  · simp [hentries, ClientFrame.users]

theorem subscription_eq_none_iff : r.subscription = none ↔ r.watched.keys = [] := by
  unfold subscription Table.isEmpty Table.keys
  cases r.watched.entries <;> simp

/-- Keeping what is now watched puts it in the place of what was watched before. -/
theorem standing_keep {l : Link} (kept : l.standing = r.standing)
    (grown : r'.subscription = none → r.subscription = none) :
    (r'.subscription.elim l l.keep).standing = r'.standing := by
  rcases r'.standing_eq with ⟨hnone, -, hempty⟩ | ⟨hsome, hentries'⟩
  · rw [hnone, hempty]
    unfold standing at kept
    rw [grown hnone] at kept
    exact kept
  · refine Table.ext_entries ?_
    rw [hsome, hentries']
    show Table.place _ _ l.standing.entries = _
    rw [kept]
    rcases r.standing_eq with ⟨-, -, hempty⟩ | ⟨-, hentries⟩
    · rw [hempty]
      rfl
    · rw [hentries]
      simp [Table.place, ClientFrame.kind]

end Roster

namespace Client

variable {identity : Identity} {settings : LinkSettings} {room : Option Room}
  {c c' c'' : Client} {r : Reading} {e : Event} {actions actions' : List Action}
  {log since : List Turn}

/-! ## What is asked for -/

/-- The users whose presence an action asks for on the global channel. -/
def Action.users : Action → List UserId
  | .sendFrame .global text => ((ClientFrame.decode text).map ClientFrame.users).getD []
  | _ => []

theorem Action.users_of_inward {x : Action} (h : x.isRequest = false) : x.users = [] := by
  cases x with
  | openTransport | closeTransport | sendFrame | fetchHistory | postMessage => cases h
  | _ => rfl

def askedFor (actions : List Action) : List UserId := actions.flatMap Action.users

@[simp] theorem askedFor_nil : askedFor [] = [] := rfl

@[simp] theorem askedFor_append (actions actions' : List Action) :
    askedFor (actions ++ actions') = askedFor actions ++ askedFor actions' := List.flatMap_append

theorem users_ofLink (x : LinkAction) : (Action.ofLink x).users = x.users := by
  cases x with
  | opening | closing => rfl
  | sending a f =>
      cases a with
      | room => rfl
      | global =>
          show ((ClientFrame.decode f.encode).map ClientFrame.users).getD [] = f.users
          rw [ClientFrame.decode_encode]
          rfl

theorem askedFor_ofLinks (actions : List LinkAction) :
    askedFor (ofLinks actions) = actions.flatMap LinkAction.users := by
  simp [askedFor, ofLinks, List.flatMap_map, users_ofLink]

theorem askedFor_sendGlobal {frame : Option ClientFrame} (h : ∀ f ∈ frame, f.users = []) :
    askedFor (c.sendGlobal frame) = [] := by
  cases frame with
  | none => rfl
  | some f =>
      have hf := h f rfl
      show askedFor (ofLinks (c.switchboard.send .global f)) = []
      rw [askedFor_ofLinks]
      unfold Switchboard.send Link.send
      split
      · rfl
      · next line _ =>
        split
        · cases line.link.address <;> simp [LinkAction.users, hf]
        · rfl

theorem asked_sendGlobal_of_link (sound : c.switchboard.Sound) {l : Link}
    (hl : c.switchboard.link? .global = some l) (f : ClientFrame) :
    askedFor (c.sendGlobal (some f)) = if l.isLive then f.users else [] := by
  obtain ⟨line, hline, rfl⟩ := Switchboard.link?_eq_some hl
  show askedFor (ofLinks (c.switchboard.send .global f)) = _
  rw [askedFor_ofLinks]
  unfold Switchboard.send Link.send
  rw [hline]
  dsimp only
  rw [(sound _ line hline).address]
  split <;> simp [LinkAction.users]

theorem keepGlobal_spec {frame : Option ClientFrame} (ok : c.keepGlobal frame = .ok c') :
    c'.roster = c.roster ∧ ∀ l, c.switchboard.link? .global = some l →
      c'.switchboard.link? .global = some (frame.elim l l.keep) := by
  rcases keepGlobal_cases ok with ⟨rfl, rfl⟩ | ⟨f, b, rfl, hkeep, rfl⟩
  · exact ⟨rfl, fun _ => id⟩
  · obtain ⟨line, hline, rfl⟩ := Switchboard.keep_cases hkeep
    refine ⟨rfl, fun l hl => ?_⟩
    obtain rfl := Option.some.inj ((Switchboard.link?_of_line hline).symm.trans hl)
    show (c.switchboard.setLink .global line _).link? .global = _
    rw [Switchboard.setLink, Switchboard.link?_insert, if_pos rfl]
    rfl

/-! ## Events that ask for nothing -/

/-- The same users are watched, the global channel keeps what it kept and does not come alive, and
nobody's presence is asked for. -/
structure Quiet (c c' : Client) (actions : List Action) : Prop where
  watched : c'.roster.watched = c.roster.watched
  links : c.switchboard.Wanes c'.switchboard .global
  asked : askedFor actions = []

theorem Quiet.trans (h : Quiet c c' actions) (h' : Quiet c' c'' actions') :
    Quiet c c'' (actions ++ actions') where
  watched := h'.watched.trans h.watched
  links := h.links.trans h'.links
  asked := by rw [askedFor_append, h.asked, h'.asked, List.append_nil]

/-- Nothing but the parts that do not concern the global channel has changed. -/
theorem Quiet.apart (watched : c'.roster.watched = c.roster.watched)
    (links : c'.switchboard = c.switchboard) (asked : askedFor actions = []) :
    Quiet c c' actions := ⟨watched, Switchboard.wanes_of_eq (by rw [links]), asked⟩

theorem Quiet.refl (c : Client) : Quiet c c [] := .apart rfl rfl rfl

theorem frameReceived_quiet (c : Client) (r : Reading) (a : Address) (text : String) :
    Quiet c (c.frameReceived r a text).1 (c.frameReceived r a text).2 := by
  refine .apart frameReceived_footprint.watched frameReceived_footprint.switchboard ?_
  exact List.flatMap_eq_nil_iff.2 fun x hx => Action.users_of_inward (frameReceived_inward x hx)

namespace SoundIn

theorem applyChat_quiet (h : c.SoundIn identity settings room)
    (step : Conversation × List ChatEffect) :
    Quiet c (c.applyChat step).1 (c.applyChat step).2 := by
  refine .apart rfl rfl (List.flatMap_eq_nil_iff.2 fun x hx => ?_)
  obtain ⟨effect, -, hx⟩ := List.mem_flatMap.1 hx
  cases effect with
  | transmit f =>
      unfold effectActions at hx
      dsimp only at hx
      split at hx
      · cases hx
      · next room _ =>
        have hsent := askedFor_ofLinks _ ▸ h.switchboard.send_users (a := .room room) nofun f
        exact List.flatMap_eq_nil_iff.1 hsent x hx
  | _ =>
      obtain rfl := List.mem_singleton.1 hx
      rfl

theorem releaseRoom_quiet (h : c.SoundIn identity settings room) {r : Room}
    (ok : c.releaseRoom r = .ok (c', actions)) : Quiet c c' actions := by
  obtain ⟨b, closing, hrelease, rfl, rfl⟩ := releaseRoom_eq_ok ok
  refine (h.applyChat_quiet _).trans ⟨rfl, Switchboard.release_wanes hrelease _, ?_⟩
  rw [askedFor_ofLinks]
  exact Switchboard.release_users hrelease

theorem join_quiet (h : c'.SoundIn identity settings none) {released : List Action}
    (before : Quiet c c' released) (room : Room) :
    Quiet c (c'.join released room).1 (c'.join released room).2 := by
  have hacquired : Quiet c' { c' with switchboard := (c'.switchboard.acquire (.room room)).1 }
      (ofLinks (c'.switchboard.acquire (.room room)).2) :=
    ⟨rfl, Switchboard.acquire_wanes nofun, by rw [askedFor_ofLinks, Switchboard.acquire_users]⟩
  have hentered := (h.acquireRoom room).applyChat_quiet (c'.conversation.enter room)
  exact (before.trans hacquired).trans hentered

end SoundIn

namespace Sound

theorem leaveRoom_quiet (h : c.Sound identity settings) (ok : c.leaveRoom = .ok (c', actions)) :
    Quiet c c' actions := by
  rcases leaveRoom_cases ok with ⟨-, rfl, rfl⟩ | ⟨room, left, released, hroom, hrelease, rfl, rfl⟩
  · exact .refl c'
  · rw [Sound, hroom] at h
    exact (h.releaseRoom_quiet hrelease).trans ((h.released hrelease).applyChat_quiet _)

theorem enterRoom_quiet (h : c.Sound identity settings) {room : Room}
    (ok : c.enterRoom room = .ok (c', actions)) : Quiet c c' actions := by
  rcases enterRoom_cases ok with
    ⟨-, rfl, rfl⟩ | ⟨hroom, rfl, rfl⟩ | ⟨old, left, released, hroom, -, hrelease, rfl, rfl⟩
  · exact .refl c'
  · rw [Sound, hroom] at h
    exact h.join_quiet (.refl c) room
  · rw [Sound, hroom] at h
    exact (h.released hrelease).join_quiet (h.releaseRoom_quiet hrelease) room

theorem shutdown_quiet (h : c.Sound identity settings) (ok : c.shutdown = .ok (c', actions)) :
    Quiet c c' actions := by
  obtain ⟨left, leaving, hleave, rfl, rfl⟩ := shutdown_eq_ok ok
  refine (h.leaveRoom_quiet hleave).trans ⟨rfl, nofun, ?_⟩
  rw [askedFor_ofLinks]
  exact Switchboard.closeAll_users

theorem tick_quiet (h : c.Sound identity settings) (now : Instant) :
    Quiet c (c.tick now).1 (c.tick now).2 := by
  have hlinks : Quiet c { c with switchboard := (c.switchboard.tick now).1,
                                 roster := (c.roster.tick now).1 }
      (ofLinks (c.switchboard.tick now).2) :=
    ⟨rfl, c.switchboard.tick_wanes now _, by rw [askedFor_ofLinks, Switchboard.tick_users]⟩
  refine (hlinks.trans (.apart rfl rfl (askedFor_sendGlobal fun f hf => ?_))).trans
    ((h.ticked now).applyChat_quiet _)
  obtain ⟨availability, -, rfl⟩ := Option.map_eq_some_iff.1 hf
  rfl

theorem transportOpened_quiet (h : c.Sound identity settings) (r : Reading) {a : Address}
    (uncounted : a = .global → ∀ l, c.switchboard.link? a = some l → l.phase ≠ .opening) :
    Quiet c (c.transportOpened r a).1 (c.transportOpened r a).2 := by
  refine ⟨rfl, Switchboard.opened_wanes (fun heq => uncounted heq.symm) r.now, ?_⟩
  show askedFor (ofLinks (c.switchboard.opened a r.now).2) = []
  rw [askedFor_ofLinks]
  by_cases hglobal : a = .global
  · unfold Switchboard.opened
    split
    · rfl
    · next line hline =>
      show (line.link.opened r.now).2.flatMap LinkAction.users = []
      unfold Link.opened
      split
      · next hphase => exact absurd hphase (uncounted hglobal _ (Switchboard.link?_of_line hline))
      · rfl
  · exact h.switchboard.opened_users hglobal r.now

end Sound

theorem transportClosed_quiet {a : Address} (ok : c.transportClosed r a = .ok (c', actions)) :
    Quiet c c' actions := by
  obtain ⟨b, entropy, hlost, rfl, rfl⟩ := transportClosed_eq_ok ok
  exact ⟨rfl, Switchboard.lost_wanes hlost _, rfl⟩

/-! ## Starting and watching -/

/-- Starting puts up the link of the global channel, with all that are watched to ask for. -/
theorem Sound.start_spec (h : c.Sound identity settings) (stopped : c.started = false)
    (ok : c.start = .ok (c', actions)) :
    c'.roster = c.roster ∧ ∀ l', c'.switchboard.link? .global = some l' →
      l'.isLive = false ∧ l'.standing = c.roster.standing := by
  have hnone : c.switchboard.lines.find? .global = none := by
    refine Option.not_isSome_iff_eq_none.1 fun hheld => ?_
    rw [← Switchboard.link?_isSome, h.switchboard.link?_isSome_iff, h.global, stopped] at hheld
    cases hheld
  have hlink : (c.switchboard.acquire .global).1.link? .global =
      some (Link.new .global c.switchboard.settings).start.1 := by
    unfold Switchboard.acquire
    rw [hnone]
    dsimp only
    rw [Switchboard.link?_insert, if_pos rfl]
  rcases start_cases ok with ⟨hstarted, -⟩ | ⟨-, hkeep, -⟩
  · rw [stopped] at hstarted
    cases hstarted
  · obtain ⟨hroster, hkept⟩ := keepGlobal_spec hkeep
    refine ⟨hroster, fun l' hl' => ?_⟩
    obtain rfl := Option.some.inj ((hkept _ hlink).symm.trans hl')
    refine ⟨?_, ?_⟩
    · cases c.roster.subscription <;> rfl
    · exact Roster.standing_keep (r := .new 0 .zero .zero) rfl fun _ => rfl

/-- The users that are new join those that are watched. They are asked for at once if the channel
is live, and the channel keeps all of them for the next time. -/
theorem Sound.watch_spec (h : c.Sound identity settings) {users : List UserId}
    (ok : c.watch users = .ok (c', actions)) :
    (c' = c ∧ actions = [] ∧ ∀ u ∈ users, u ∈ c.roster.watched.keys) ∨
      ∃ added, c'.roster.watched.keys.Perm (c.roster.watched.keys ++ added) ∧
        (∀ u, u ∈ added ↔ u ∈ users ∧ u ∉ c.roster.watched.keys) ∧
        ∀ l', c'.switchboard.link? .global = some l' →
          ∃ l, c.switchboard.link? .global = some l ∧
            l' = c'.roster.subscription.elim l l.keep ∧
            askedFor actions = if l.isLive then added else [] := by
  have hsound := (h.handles (r := ⟨.zero, none⟩) (e := .watch users) ok).sound
  rcases c.roster.watch_cases users with ⟨hsame, hall⟩ | ⟨roster, added, hwatch, hkeys, hadded⟩
  · unfold Client.watch at ok
    rw [hsame] at ok
    cases ok
    exact .inl ⟨rfl, rfl, hall⟩
  · rcases watch_cases ok with ⟨roster', hwatch', -⟩ | ⟨roster', frame, hwatch', rfl, hkept⟩
    · rw [hwatch] at hwatch'
      cases hwatch'
    · rw [hwatch] at hwatch'
      cases hwatch'
      rcases hkept with ⟨hheld, hkeep⟩ | ⟨hnone, rfl⟩
      · obtain ⟨l, hl⟩ := Option.isSome_iff_exists.1 hheld
        obtain ⟨hroster, hkept⟩ := keepGlobal_spec hkeep
        have hlive : (roster.subscription.elim l l.keep).isLive = l.isLive := by
          cases roster.subscription <;> rfl
        refine .inr ⟨added, hroster ▸ hkeys, hadded, fun l' hl' => ⟨l, hl, ?_, ?_⟩⟩
        · rw [hroster]
          exact Option.some.inj (hl'.symm.trans (hkept l hl))
        · rw [asked_sendGlobal_of_link hsound.switchboard (hkept l hl), hlive]
          rfl
      · refine .inr ⟨added, hkeys, hadded, fun l' hl' => ?_⟩
        cases hnone.symm.trans hl'

/-! ## Turns -/

/-- The users that an event is to watch. -/
def Event.users : Event → List UserId
  | .watch users => users
  | _ => []

/-- The transport of the global channel comes up while the link waits for it. -/
def Turn.Opens (t : Turn) : Prop :=
  t.event = .transportOpened .global ∧
    ∃ l, t.before.switchboard.link? .global = some l ∧ l.phase = .opening

/-- The turns since the transport of the global channel last came up, with that turn. -/
def SinceOpened (log since : List Turn) : Prop :=
  ∃ earlier t later, log = earlier ++ since ∧ since = t :: later ∧ t.Opens ∧
    ∀ t' ∈ later, ¬ t'.Opens

/-- The users whose presence was asked for on the global channel in these turns. -/
def askedIn (log : List Turn) : List UserId := log.flatMap fun t => askedFor t.actions

/-- The users that were to be watched in these turns. -/
def watchedIn (log : List Turn) : List UserId := log.flatMap fun t => t.event.users

@[simp] theorem askedIn_snoc (log : List Turn) (t : Turn) :
    askedIn (log ++ [t]) = askedIn log ++ askedFor t.actions := by simp [askedIn]

@[simp] theorem watchedIn_snoc (log : List Turn) (t : Turn) :
    watchedIn (log ++ [t]) = watchedIn log ++ t.event.users := by simp [watchedIn]

theorem SinceOpened.snoc (h : SinceOpened log since) {t : Turn} (unopened : ¬ t.Opens) :
    SinceOpened (log ++ [t]) (since ++ [t]) := by
  obtain ⟨earlier, first, later, rfl, rfl, opens, rest⟩ := h
  refine ⟨earlier, first, later ++ [t], by simp, rfl, opens, fun t' ht' => ?_⟩
  rcases List.mem_append.1 ht' with ht' | ht'
  · exact rest t' ht'
  · exact List.mem_singleton.1 ht' ▸ unopened

theorem sinceOpened_of_opens {t : Turn} (opens : t.Opens) : SinceOpened (log ++ [t]) [t] :=
  ⟨log, t, [], rfl, rfl, opens, by simp⟩

/-- What holds after every turn of a run. -/
structure Subscribes (log : List Turn) (c : Client) : Prop where
  watched : ∀ u, u ∈ c.roster.watched.keys ↔ u ∈ watchedIn log
  standing : ∀ l, c.switchboard.link? .global = some l → l.standing = c.roster.standing
  asked : ∀ l, c.switchboard.link? .global = some l → l.isLive = true →
    ∃ since, SinceOpened log since ∧ (askedIn since).Perm c.roster.watched.keys

namespace Subscribes

theorem quiet (h : Subscribes log c) (quiet : Quiet c c' actions) (unwatched : e.users = [])
    (unopened : ¬ Turn.Opens ⟨c, r, e, actions⟩) :
    Subscribes (log ++ [⟨c, r, e, actions⟩]) c' := by
  refine ⟨fun u => ?_, fun l' hl' => ?_, fun l' hl' live => ?_⟩
  · rw [quiet.watched, watchedIn_snoc, unwatched, List.append_nil]
    exact h.watched u
  · obtain ⟨l, hl, wanes⟩ := quiet.links l' hl'
    rw [wanes.standing, h.standing l hl]
    unfold Roster.standing Roster.subscription
    rw [quiet.watched]
  · obtain ⟨l, hl, wanes⟩ := quiet.links l' hl'
    obtain ⟨since, hsince, hasked⟩ := h.asked l hl (wanes.live live)
    refine ⟨_, hsince.snoc unopened, ?_⟩
    rw [askedIn_snoc, quiet.asked, List.append_nil, quiet.watched]
    exact hasked

/-- Opening asks for all that the channel keeps, which is all that are watched. -/
theorem opened (h : Subscribes log c) (sound : c.Sound identity settings) {l : Link}
    (hl : c.switchboard.link? .global = some l) (opening : l.phase = .opening) :
    Subscribes (log ++ [⟨c, r, .transportOpened .global, (c.transportOpened r .global).2⟩])
      (c.transportOpened r .global).1 := by
  obtain ⟨line, hline, rfl⟩ := Switchboard.link?_eq_some hl
  have hopened : c.switchboard.opened .global r.now =
      (c.switchboard.setLink .global line (line.link.opened r.now).1,
        line.link.standing.values.map (.sending .global)) := by
    unfold Switchboard.opened
    rw [hline]
    dsimp only
    rw [← (sound.switchboard _ line hline).address]
    unfold Link.opened
    rw [opening]
  have hlink : ∀ l', (c.transportOpened r .global).1.switchboard.link? .global = some l' →
      l' = (line.link.opened r.now).1 := by
    intro l' hl'
    have hsame : (c.transportOpened r .global).1.switchboard =
        c.switchboard.setLink .global line (line.link.opened r.now).1 := congrArg Prod.fst hopened
    rw [hsame, Switchboard.setLink, Switchboard.link?_insert, if_pos rfl] at hl'
    exact (Option.some.inj hl').symm
  have hasked : askedFor (c.transportOpened r .global).2 = c.roster.watched.keys := by
    show askedFor (ofLinks (c.switchboard.opened .global r.now).2) = _
    rw [hopened, askedFor_ofLinks, List.flatMap_map, ← Roster.standing_users,
      ← h.standing _ (Switchboard.link?_of_line hline)]
    rfl
  refine ⟨fun u => ?_, fun l' hl' => ?_, fun l' hl' live => ?_⟩
  · rw [watchedIn_snoc]
    exact (h.watched u).trans (by simp [Event.users])
  · rw [hlink l' hl', (line.link.opened_alike r.now).standing]
    exact h.standing _ (Switchboard.link?_of_line hline)
  · refine ⟨_, sinceOpened_of_opens ⟨rfl, _, hl, opening⟩, ?_⟩
    rw [askedIn, List.flatMap_singleton, hasked]
    exact .refl _

theorem start (h : Subscribes log c) (sound : c.Sound identity settings)
    (ok : c.start = .ok (c', actions)) : Subscribes (log ++ [⟨c, r, .start, actions⟩]) c' := by
  rcases start_cases ok with ⟨-, rfl, rfl⟩ | ⟨hstopped, -⟩
  · exact h.quiet (.refl c') rfl nofun
  · obtain ⟨hroster, hlink⟩ := sound.start_spec hstopped ok
    refine ⟨fun u => ?_, fun l' hl' => ?_, fun l' hl' live => ?_⟩
    · rw [hroster, watchedIn_snoc]
      exact (h.watched u).trans (by simp [Event.users])
    · rw [hroster]
      exact (hlink l' hl').2
    · rw [(hlink l' hl').1] at live
      cases live

theorem watch (h : Subscribes log c) (sound : c.Sound identity settings) {users : List UserId}
    (ok : c.watch users = .ok (c', actions)) :
    Subscribes (log ++ [⟨c, r, .watch users, actions⟩]) c' := by
  have unopened : ¬ Turn.Opens ⟨c, r, .watch users, actions⟩ := nofun
  rcases sound.watch_spec ok with ⟨rfl, rfl, hall⟩ | ⟨added, hkeys, hadded, hlink⟩
  · refine ⟨fun u => ?_, h.standing, fun l hl live => ?_⟩
    · rw [watchedIn_snoc, List.mem_append, ← h.watched]
      exact ⟨.inl, fun hu => hu.elim id (hall u)⟩
    · obtain ⟨since, hsince, hasked⟩ := h.asked l hl live
      refine ⟨_, hsince.snoc unopened, ?_⟩
      rwa [askedIn_snoc, askedFor_nil, List.append_nil]
  · have hgrown : c'.roster.subscription = none → c.roster.subscription = none := by
      rw [Roster.subscription_eq_none_iff, Roster.subscription_eq_none_iff]
      intro hnil
      rw [hnil] at hkeys
      exact (List.append_eq_nil_iff.1 hkeys.symm.eq_nil).1
    refine ⟨fun u => ?_, fun l' hl' => ?_, fun l' hl' live => ?_⟩
    · rw [hkeys.mem_iff, List.mem_append, hadded, h.watched, watchedIn_snoc, List.mem_append]
      show _ ↔ _ ∨ u ∈ users
      grind
    · obtain ⟨l, hl, rfl, -⟩ := hlink l' hl'
      exact Roster.standing_keep (h.standing l hl) hgrown
    · obtain ⟨l, hl, rfl, hadds⟩ := hlink l' hl'
      have hlive : l.isLive = true := by
        cases hsub : c'.roster.subscription <;> rw [hsub] at live <;> exact live
      obtain ⟨since, hsince, hasked⟩ := h.asked l hl hlive
      refine ⟨_, hsince.snoc unopened, ?_⟩
      rw [askedIn_snoc, hadds, if_pos hlive]
      exact (hasked.append_right _).trans hkeys.symm

/-- Every event preserves it. -/
theorem turn (h : Subscribes log c) (sound : c.Sound identity settings)
    (ok : c.handle r e = .ok (c', actions)) : Subscribes (log ++ [⟨c, r, e, actions⟩]) c' := by
  cases e with
  | start => exact h.start sound ok
  | watch users => exact h.watch sound ok
  | transportOpened a =>
      by_cases counts : a = .global ∧
          ∃ l, c.switchboard.link? .global = some l ∧ l.phase = .opening
      · obtain ⟨rfl, l, hl, opening⟩ := counts
        cases ok
        exact h.opened sound hl opening
      · cases ok
        refine h.quiet (sound.transportOpened_quiet r ?_) rfl ?_
        · rintro rfl l hl opening
          exact counts ⟨rfl, l, hl, opening⟩
        · rintro ⟨⟨⟩, hopening⟩
          exact counts ⟨rfl, hopening⟩
  | shutdown => exact h.quiet (sound.shutdown_quiet ok) rfl nofun
  | transportClosed a => exact h.quiet (transportClosed_quiet ok) rfl nofun
  | frameReceived a text =>
      have hframe : c.frameReceived r a text = (c', actions) := Except.ok.inj ok
      have hquiet := frameReceived_quiet c r a text
      rw [hframe] at hquiet
      exact h.quiet hquiet rfl nofun
  | tick now =>
      cases ok
      exact h.quiet (sound.tick_quiet now) rfl nofun
  | enterRoom room => exact h.quiet (sound.enterRoom_quiet ok) rfl nofun
  | leaveRoom => exact h.quiet (sound.leaveRoom_quiet ok) rfl nofun
  | loadOlder | reloadHistory | input | historyLoaded | posted =>
      cases ok
      exact h.quiet (sound.applyChat_quiet _) rfl nofun
  | send text =>
      obtain ⟨wall, step, -, -, rfl, rfl⟩ := send_eq_ok ok
      exact h.quiet (sound.applyChat_quiet step) rfl nofun
  | activity =>
      cases ok
      refine h.quiet (.apart rfl rfl (askedFor_sendGlobal fun f hf => ?_)) rfl nofun
      obtain ⟨availability, -, rfl⟩ := Option.map_eq_some_iff.1 hf
      rfl
  | setAvailability availability =>
      cases ok
      refine h.quiet (.apart rfl rfl (askedFor_sendGlobal ?_)) rfl nofun
      rintro f ⟨⟩
      rfl
  | setNote note emoji =>
      obtain ⟨wall, -, rfl, rfl⟩ := setNote_eq_ok ok
      refine h.quiet (.apart rfl rfl ?_) rfl nofun
      rw [askedFor_append, askedFor_sendGlobal]
      · rfl
      · rintro f ⟨⟩
        rfl

end Subscribes

theorem Run.subscribes {start : Client} (run : Run start log c)
    (sound : start.Sound identity settings) (fresh : Subscribes [] start) : Subscribes log c := by
  induction run with
  | start => exact fresh
  | turn run handled ih => exact ih.turn (run.sound sound) handled

/-- Whenever the global channel is live, the frames sent on it since its transport last came up ask
for the presence of each watched user once and of no other, and the users that are watched are those
that the user has ever asked to watch. -/
theorem asked_once_per_transport (identity : Identity) (settings : Settings) (start : Instant)
    (entropy : Entropy) (log : List Turn) (c : Client)
    (run : Run (new identity settings start entropy) log c)
    (live : c.switchboard.isLive .global = true) :
    ∃ since, SinceOpened log since ∧
      (∀ u, (askedIn since).count u = if c.roster.watched.contains u then 1 else 0) ∧
      ∀ u, c.roster.watched.contains u = true ↔ u ∈ watchedIn log := by
  have subscribes := run.subscribes (sound_new identity settings start entropy)
    ⟨fun u => by simp [watchedIn, new, Roster.new, Table.empty, Table.keys], nofun, nofun⟩
  obtain ⟨l, hl, hlive⟩ : ∃ l, c.switchboard.link? .global = some l ∧ l.isLive = true := by
    unfold Switchboard.isLive at live
    cases hlink : c.switchboard.link? .global with
    | none => simp [hlink] at live
    | some l => exact ⟨l, rfl, by simpa [hlink] using live⟩
  obtain ⟨since, hsince, hasked⟩ := subscribes.asked l hl hlive
  refine ⟨since, hsince, fun u => ?_, fun u => ?_⟩
  · rw [hasked.count_eq, (Table.keys_nodup _).count]
    simp [Table.contains_iff]
  · rw [Table.contains_iff]
    exact subscribes.watched u

/-- Users are asked for before the start, and again while the channel is live, lost and once more
live. -/
theorem asked_again_on_return :
    let events : List Event := [.watch [3, 2, 3], .start, .transportOpened .global, .watch [2, 4],
      .transportClosed .global, .watch [5, 4], .tick (.ofSeconds 60), .transportOpened .global,
      .watch [6, 6, 3]]
    ∃ log c, Run (new ⟨1, "ada"⟩ .standard .zero (.cycle [])) log c ∧
      log.map Turn.event = events ∧ c.switchboard.isLive .global = true ∧
      ∃ since, SinceOpened log since ∧
        ∀ u, (askedIn since).count u = if u ∈ [2, 3, 4, 5, 6] then 1 else 0 := by
  intro events
  let session := (new ⟨1, "ada"⟩ .standard .zero (.cycle [])).replay
    (events.map fun e => (⟨.zero, none⟩, e))
  have hends : session.toOption.map (fun s => (s.2.switchboard.isLive .global,
      s.2.roster.watched.keys)) = some (true, [2, 3, 4, 5, 6]) := by decide +kernel
  cases hsession : session with
  | error f =>
      rw [hsession] at hends
      cases hends
  | ok last =>
      rw [hsession] at hends
      obtain ⟨hlive, hkeys⟩ := Prod.mk.inj (Option.some.inj hends)
      obtain ⟨run, hevents⟩ := Run.start.replay hsession
      obtain ⟨since, hsince, honce, -⟩ := asked_once_per_transport _ _ _ _ _ _ run hlive
      refine ⟨_, _, run, hevents, hlive, since, hsince, fun u => ?_⟩
      rw [honce]
      simp only [Table.contains_iff, hkeys]

end Client

end LiveChat
