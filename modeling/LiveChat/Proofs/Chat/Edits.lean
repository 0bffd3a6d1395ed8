import LiveChat.Proofs.Chat.Operation

/-!
# The edits that a timeline goes through

Within a stay an operation makes one edit of the timeline, or puts the newest page in the place of
the confirmed entries. So no confirmed entry is taken out, changed or moved but by the newest page,
and the reading position is kept exactly when something came in above it.
-/

namespace LiveChat

namespace Timeline

variable {t t' : Timeline}

theorem confirmed_append (s t : Timeline) : confirmed (s ++ t) = s.confirmed ++ t.confirmed :=
  List.filter_append ..

theorem confirmed_cons (e : Entry) (t : Timeline) :
    confirmed (e :: t) = if e.isPending then t.confirmed else e :: t.confirmed := by
  unfold confirmed
  cases h : e.isPending <;> simp [h]

/-- An edit leaves the confirmed entries as they are, in their order. -/
theorem Edit.confirmed_sublist (h : Edit t t') : t.confirmed.Sublist t'.confirmed := by
  cases h with
  | keep => exact .refl _
  | append =>
      rw [confirmed_append]
      exact List.sublist_append_left _ _
  | prepend =>
      rw [confirmed_append]
      exact List.sublist_append_right _ _
  | settle hp hc =>
      simp only [confirmed_append, confirmed_cons, hp, hc, if_true]
      exact (List.Sublist.refl _).append (List.sublist_cons_self _ _)
  | retract hp =>
      simp only [confirmed_append, confirmed_cons, hp, if_true]
      exact .refl _

end Timeline

namespace Conversation

variable {c c' : Conversation} {op : Operation} {effects : List ChatEffect}

/-! ## The reading position -/

theorem frame_keepPosition (f : Option ClientFrame) :
    .keepPosition ∉ (f.map ChatEffect.transmit).toList := by
  cases f <;> simp

theorem typistsEffect_keepPosition (changed : Bool) : .keepPosition ∉ typistsEffect changed := by
  cases changed <;> simp [typistsEffect]

theorem retract_keepPosition (place : Option Nat) : .keepPosition ∉ (c.retract place).2 := by
  cases place <;> simp [retract]

theorem settle_keepPosition (m : Message) : .keepPosition ∉ (c.settle m).2 := by
  unfold settle
  split
  · simp
  · dsimp only
    split
    · exact retract_keepPosition _
    · generalize (if m.ref.isSome = true then _ else _ : Option Nat) = place
      cases place <;> simp

/-- Only an answer to a load can ask for the reading position to be kept. -/
theorem perform_keepPosition (h : c.perform op = .ok (c', effects))
    (unanswered : ∀ q result, op ≠ .historyLoaded q result) : .keepPosition ∉ effects := by
  cases op with
  | historyLoaded q result => exact absurd rfl (unanswered q result)
  | send text now wall live =>
      rcases send_cases h with ⟨-, -, rfl⟩ | ⟨room, ref, -, -, -, -, rfl⟩
      · simp
      · cases live <;> simp [transmission]
  | enter room =>
      obtain ⟨-, rfl⟩ := eq_of_ok h
      simp [enter, beginLoad]
  | leave =>
      obtain ⟨-, rfl⟩ := eq_of_ok h
      unfold leave
      split <;> simp
  | loadNewest =>
      obtain ⟨-, rfl⟩ := eq_of_ok h
      unfold loadNewest
      split
      · simp
      · split <;> simp [beginLoad]
  | loadOlder =>
      obtain ⟨-, rfl⟩ := eq_of_ok h
      unfold loadOlder
      split
      · simp
      · split <;> simp [beginLoad]
  | posted r result =>
      obtain ⟨-, rfl⟩ := eq_of_ok h
      unfold posted
      split
      · simp
      · cases result with
        | ok m => exact settle_keepPosition _
        | error e => exact retract_keepPosition _
  | received m =>
      obtain ⟨-, rfl⟩ := eq_of_ok h
      unfold received
      split
      · simp
      · split
        · exact settle_keepPosition m
        · split <;> simp
  | otherTyping user nickname now =>
      obtain ⟨-, rfl⟩ := eq_of_ok h
      unfold otherTyping
      split
      · simp
      · exact typistsEffect_keepPosition _
  | otherStopped user =>
      obtain ⟨-, rfl⟩ := eq_of_ok h
      exact typistsEffect_keepPosition _
  | input text now =>
      obtain ⟨-, rfl⟩ := eq_of_ok h
      unfold input
      split
      · simp
      · exact frame_keepPosition _
  | stopTyping =>
      obtain ⟨-, rfl⟩ := eq_of_ok h
      exact frame_keepPosition _
  | tick now =>
      obtain ⟨-, rfl⟩ := eq_of_ok h
      rw [tick, List.mem_append, not_or]
      exact ⟨frame_keepPosition _, typistsEffect_keepPosition _⟩

/-- The operation brings the page of the load in flight, which is of this kind. -/
def Takes (c : Conversation) (kind : LoadKind) (op : Operation) : Prop :=
  ∃ q page, op = .historyLoaded q (.ok page) ∧ c.Awaits q ∧ q.kind = kind

def GrewAbove (c c' : Conversation) : Prop :=
  ∃ block : Timeline, block ≠ [] ∧ block.pending = [] ∧ c'.timeline = block ++ c.timeline

theorem applyPage_keepPosition (q : HistoryRequest) (page : Page) :
    .keepPosition ∈ (c.applyPage q page).2 ↔
      q.kind = .older ∧ c.timeline.missing q.room.number page.messages ≠ [] := by
  unfold applyPage
  cases hkind : q.kind with
  | newest => simp
  | older =>
      dsimp only
      cases c.timeline.missing q.room.number page.messages <;> simp

theorem keepPosition_iff (h : c.perform op = .ok (c', effects)) :
    .keepPosition ∈ effects ↔ c.Takes .older op ∧ c.GrewAbove c' := by
  constructor
  · intro hmem
    cases op with
    | historyLoaded q result =>
        obtain ⟨rfl, rfl⟩ := eq_of_ok h
        by_cases awaits : c.Awaits q
        · rw [historyLoaded_of_awaits awaits] at hmem ⊢
          cases result with
          | error e => cases hmem
          | ok page =>
              obtain ⟨older, hnew⟩ := (applyPage_keepPosition q page).1 hmem
              refine ⟨⟨q, page, rfl, awaits, older⟩, _, hnew, ?_, applyPage_older older page⟩
              exact Timeline.pending_ofMessages _ _
        · rw [historyLoaded_of_not_awaits awaits] at hmem
          cases hmem
    | _ => exact absurd hmem (perform_keepPosition h nofun)
  · rintro ⟨⟨q, page, rfl, awaits, older⟩, block, hblock, -, hgrown⟩
    obtain ⟨rfl, rfl⟩ := eq_of_ok h
    rw [historyLoaded_of_awaits awaits] at hgrown ⊢
    refine (applyPage_keepPosition q page).2 ⟨older, fun hnone => hblock ?_⟩
    rw [applyPage_older older] at hgrown
    have heq : c.timeline.missing q.room.number page.messages = block :=
      List.append_cancel_right hgrown
    rw [← heq]
    exact hnone

/-! ## One edit for each operation -/

/-- An operation within a stay makes one edit of the timeline: it keeps it, appends a confirmed
entry, puts new confirmed ones in front, settles a pending one in its place or takes one back; a
message that is sent is appended as a pending entry; and the newest page comes in front of the
pending entries and takes the place of all others. Everywhere else the confirmed entries stay as
they are. The reading position is kept exactly when an older page has put something in front. Only
sending can fail, when the numbers of messages run out. -/
theorem timeline_edited_once (c : Conversation) (op : Operation) (stays : op.switches = false) :
    (∃ c' effects, c.perform op = .ok (c', effects) ∧
      (Timeline.Edit c.timeline c'.timeline ∨
        (op.isSend = true ∧
          ∃ e : Entry, e.isPending = true ∧ c'.timeline = c.timeline ++ [e]) ∨
        c.Takes .newest op ∧
          ∃ block : Timeline, block.pending = [] ∧ c'.timeline = block ++ c.timeline.pending) ∧
      (¬ c.Takes .newest op → c.timeline.confirmed.Sublist c'.timeline.confirmed) ∧
      (.keepPosition ∈ effects ↔ c.Takes .older op ∧ c.GrewAbove c')) ∨
    op.isSend = true ∧ c.perform op = .error .overflow ∧ UInt64.size ≤ c.lastRef.toNat + 1 := by
  cases hperform : c.perform op with
  | error f =>
      cases op with
      | send text now wall live =>
          obtain ⟨rfl, hfull⟩ := send_error hperform
          exact .inr ⟨rfl, rfl, hfull⟩
      | _ => cases hperform
  | ok after =>
      obtain ⟨c', effects⟩ := after
      refine .inl ⟨c', effects, rfl, ?_, ?_, keepPosition_iff hperform⟩
      · cases perform_timelineStep hperform with
        | edited _ edit => exact .inl edit
        | cleared switches =>
            rw [stays] at switches
            cases switches
        | @reloaded q page awaited newest _ timeline =>
            refine .inr (.inr ⟨⟨q, page, rfl, awaited, newest⟩, _, ?_, timeline⟩)
            exact Timeline.pending_ofMessages _ _
        | sent _ _ timeline => exact .inr (.inl ⟨rfl, _, rfl, timeline⟩)
      · intro kept
        cases perform_timelineStep hperform with
        | edited _ edit => exact edit.confirmed_sublist
        | cleared switches =>
            rw [stays] at switches
            cases switches
        | @reloaded q page awaited newest => exact absurd ⟨q, page, rfl, awaited, newest⟩ kept
        | sent _ _ timeline =>
            rw [timeline, Timeline.confirmed_append]
            exact List.sublist_append_left _ _

/-- An older page that repeats a message, and that has one of the number of a pending entry, comes
in above what was there. -/
theorem older_page_with_repeats :
    let message (id : MessageId) : Message := ⟨id, none, some 2, none, none, "hi", .text, 0, none⟩
    let settings : ChatSettings := { ChatSettings.standard with pageSize := 1 }
    let newest : HistoryRequest := ⟨⟨1, 2⟩, 1, 1, .newest, 1, 0⟩
    let older : HistoryRequest := ⟨⟨1, 2⟩, 1, 2, .older, 1, 1⟩
    let shown := ((new ⟨1, "ada"⟩ settings).enter ⟨1, 2⟩).1.historyLoaded newest
      (.ok ⟨[message 5], 9⟩)
    ∃ sent, shown.1.send "ho" .zero 3 true = .ok sent ∧
      let op : Operation := .historyLoaded older (.ok ⟨[message 1, message 1, message 3], 9⟩)
      op.switches = false ∧ ∃ c' effects, sent.1.loadOlder.1.perform op = .ok (c', effects) ∧
        c'.timeline.ids = [1, 5, 3] ∧ .keepPosition ∈ effects ∧
        sent.1.loadOlder.1.timeline.confirmed.Sublist c'.timeline.confirmed := by
  intro message settings newest older shown
  refine ⟨_, rfl, ?_⟩
  intro op
  refine ⟨rfl, ?_⟩
  rcases timeline_edited_once _ op rfl with
    ⟨c', effects, hperform, -, hkept, hposition⟩ | ⟨hsend, -⟩
  · refine ⟨c', effects, hperform, ?_, ?_, hkept ?_⟩
    · cases hperform
      decide +kernel
    · rw [hposition]
      refine ⟨⟨older, _, rfl, ⟨rfl, rfl, rfl, rfl⟩, rfl⟩, ?_⟩
      cases hperform
      exact ⟨[Entry.ofMessage 2 (message 1)], by simp, rfl, rfl⟩
    · rintro ⟨q, page, hop, -, hkind⟩
      obtain ⟨rfl, -⟩ := Operation.historyLoaded.inj hop
      cases hkind
  · cases hsend

end Conversation

end LiveChat
