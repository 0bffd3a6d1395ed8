import LiveChat.Proofs.Chat.Settlement
import LiveChat.Proofs.Chat.Sound
import Mathlib.Data.List.Nodup

/-!
# Confirmations in any order

A pending message can be confirmed over the channel, by the answer to its post, or both ways, and
each way more than once. In whatever order the confirmations of several messages come, each pending
entry is in the end replaced in its place and nothing else has changed.
-/

namespace LiveChat

namespace Entry

def answer? (answers : List Message) (e : Entry) : Option Message :=
  e.ref?.bind fun ref => answers.find? (·.ref = some ref)

/-- The message that confirms the entry, or the entry if none does. -/
def confirmedBy (room : UInt64) (answers : List Message) (e : Entry) : Entry :=
  match e.answer? answers with
  | some m => ofMessage room m
  | none => e

variable {answers answers' : List Message} {m : Message} {e : Entry} {ref : Ref}

theorem answer?_eq_some (h : e.answer? answers = some m) :
    m ∈ answers ∧ ∃ ref, e.ref? = some ref ∧ m.ref = some ref := by
  obtain ⟨ref, href, hfind⟩ := Option.bind_eq_some_iff.1 h
  exact ⟨List.mem_of_find?_eq_some hfind, ref, href, by simpa using List.find?_some hfind⟩

theorem answer?_eq_none_iff :
    e.answer? answers = none ↔ ∀ d ∈ answers, ∀ ref, e.ref? = some ref → d.ref ≠ some ref := by
  unfold answer?
  cases href : e.ref? with
  | none => simp
  | some ref => simp [List.find?_eq_none]

theorem answer?_snoc :
    e.answer? (answers ++ [m]) = (e.answer? answers).or (e.answer? [m]) := by
  unfold answer?
  cases e.ref? with
  | none => rfl
  | some ref => simp [List.find?_append]

/-- Neither the order of the messages nor how often one is listed counts. -/
theorem answer?_congr (same : ∀ d, d ∈ answers ↔ d ∈ answers')
    (distinct : ∀ d ∈ answers, ∀ d' ∈ answers, d.ref = d'.ref → d = d') :
    e.answer? answers = e.answer? answers' := by
  cases h : e.answer? answers with
  | none =>
      rw [answer?_eq_none_iff] at h
      exact (answer?_eq_none_iff.2 fun d hd => h d ((same d).2 hd)).symm
  | some m =>
      obtain ⟨hm, ref, href, hmref⟩ := answer?_eq_some h
      cases h' : e.answer? answers' with
      | none => exact absurd hmref (answer?_eq_none_iff.1 h' m ((same m).1 hm) ref href)
      | some m' =>
          obtain ⟨hm', ref', href', hmref'⟩ := answer?_eq_some h'
          obtain rfl : ref = ref' := Option.some.inj (href.symm.trans href')
          rw [distinct m hm m' ((same m').2 hm') (hmref.trans hmref'.symm)]

end Entry

namespace Timeline

/-- Each pending entry that one of the messages confirms is replaced in its place. -/
def confirmedBy (room : UInt64) (answers : List Message) (t : Timeline) : Timeline :=
  t.map (Entry.confirmedBy room answers)

variable {room : UInt64} {answers answers' : List Message} {m : Message} {t before after : Timeline}
  {p : Entry} {ref : Ref} {id : MessageId}

theorem confirmedBy_nil : t.confirmedBy room [] = t := by
  refine (List.map_congr_left fun e _ => ?_).trans (List.map_id t)
  rw [Entry.confirmedBy, Entry.answer?_eq_none_iff.2 (by simp)]
  rfl

theorem confirmedBy_congr (same : ∀ d, d ∈ answers ↔ d ∈ answers')
    (distinct : ∀ d ∈ answers, ∀ d' ∈ answers, d.ref = d'.ref → d = d') :
    t.confirmedBy room answers = t.confirmedBy room answers' := by
  refine List.map_congr_left fun e _ => ?_
  rw [Entry.confirmedBy, Entry.confirmedBy, Entry.answer?_congr same distinct]

/-- A message that came before, or whose number is not waited for, makes no difference. -/
theorem confirmedBy_snoc_of_idle (h : m ∈ answers ∨ ∀ ref ∈ t.refs, m.ref ≠ some ref) :
    t.confirmedBy room (answers ++ [m]) = t.confirmedBy room answers := by
  refine List.map_congr_left fun e he => ?_
  have hanswer : e.answer? (answers ++ [m]) = e.answer? answers := by
    rw [Entry.answer?_snoc]
    cases hold : e.answer? answers with
    | some d => rfl
    | none =>
        rw [Option.none_or, Entry.answer?_eq_none_iff]
        intro d hd ref href
        obtain rfl := List.mem_singleton.1 hd
        rcases h with hm | hidle
        · exact Entry.answer?_eq_none_iff.1 hold d hm ref href
        · exact hidle ref (List.mem_filterMap.2 ⟨e, he, href⟩)
  rw [Entry.confirmedBy, Entry.confirmedBy, hanswer]

/-- The first message with the number of a pending entry takes that entry's place. -/
theorem confirmedBy_snoc_of_first (room : UInt64) (href : p.ref? = some ref) (hm : m.ref = some ref)
    (first : ∀ d ∈ answers, d.ref ≠ some ref) (hbefore : ref ∉ before.refs)
    (hafter : ref ∉ after.refs) :
    (before ++ p :: after).confirmedBy room answers =
        before.confirmedBy room answers ++ p :: after.confirmedBy room answers ∧
      (before ++ p :: after).confirmedBy room (answers ++ [m]) =
        before.confirmedBy room answers ++
          Entry.ofMessage room m :: after.confirmedBy room answers := by
  have idle : ∀ {t : Timeline}, ref ∉ t.refs →
      t.confirmedBy room (answers ++ [m]) = t.confirmedBy room answers := by
    intro t hnot
    refine confirmedBy_snoc_of_idle (.inr fun r hr heq => hnot ?_)
    rw [hm] at heq
    exact Option.some.inj heq ▸ hr
  have hnone : p.answer? answers = none := by
    rw [Entry.answer?_eq_none_iff]
    intro d hd r hr
    rw [href] at hr
    exact Option.some.inj hr ▸ first d hd
  have hsome : p.answer? (answers ++ [m]) = some m := by
    rw [Entry.answer?_snoc, hnone, Option.none_or]
    simp [Entry.answer?, href, hm]
  constructor
  · simp only [confirmedBy, List.map_append, List.map_cons, Entry.confirmedBy, hnone]
  · rw [← idle hbefore, ← idle hafter]
    simp only [confirmedBy, List.map_append, List.map_cons, Entry.confirmedBy, hsome]

theorem mem_refs_confirmedBy :
    ref ∈ (t.confirmedBy room answers).refs ↔ ref ∈ t.refs ∧ ∀ d ∈ answers, d.ref ≠ some ref := by
  unfold refs confirmedBy
  rw [List.filterMap_map]
  simp only [List.mem_filterMap, Function.comp_apply]
  constructor
  · rintro ⟨e, he, href⟩
    unfold Entry.confirmedBy at href
    cases h : e.answer? answers with
    | some m =>
        rw [h] at href
        cases href
    | none =>
        rw [h] at href
        exact ⟨⟨e, he, href⟩, fun d hd => Entry.answer?_eq_none_iff.1 h d hd ref href⟩
  · rintro ⟨⟨e, he, href⟩, hnone⟩
    refine ⟨e, he, ?_⟩
    have h : e.answer? answers = none := by
      rw [Entry.answer?_eq_none_iff]
      intro d hd r hr
      rw [href] at hr
      exact Option.some.inj hr ▸ hnone d hd
    rw [Entry.confirmedBy, h]
    exact href

theorem mem_confirmedIds_iff :
    id ∈ t.confirmedIds ↔ ∃ e ∈ t, e.isPending = false ∧ e.id = id := by
  simp [confirmedIds, confirmed, ids, and_assoc]

theorem confirmedIds_confirmedBy_subset (h : id ∈ (t.confirmedBy room answers).confirmedIds) :
    id ∈ t.confirmedIds ∨ ∃ d ∈ answers, d.id = id := by
  obtain ⟨e', he', hpending, rfl⟩ := mem_confirmedIds_iff.1 h
  obtain ⟨e, he, rfl⟩ := List.mem_map.1 he'
  unfold Entry.confirmedBy at hpending ⊢
  cases hanswer : e.answer? answers with
  | some m => exact .inr ⟨m, (Entry.answer?_eq_some hanswer).1, rfl⟩
  | none =>
      rw [hanswer] at hpending
      exact .inl (mem_confirmedIds_iff.2 ⟨e, he, hpending, rfl⟩)

theorem mem_confirmedIds_confirmedBy (hm : m ∈ answers) (href : m.ref = some ref)
    (waited : ref ∈ t.refs) (distinct : ∀ d ∈ answers, ∀ d' ∈ answers, d.ref = d'.ref → d = d') :
    m.id ∈ (t.confirmedBy room answers).confirmedIds := by
  obtain ⟨e, he, hpending⟩ := List.mem_filterMap.1 waited
  refine mem_confirmedIds_iff.2 ⟨e.confirmedBy room answers, List.mem_map_of_mem he, ?_⟩
  have hanswer : e.answer? answers = some m := by
    cases h : e.answer? answers with
    | none => exact absurd href (Entry.answer?_eq_none_iff.1 h m hm ref hpending)
    | some d =>
        obtain ⟨hd, r, hr, hdref⟩ := Entry.answer?_eq_some h
        obtain rfl : r = ref := Option.some.inj (hr.symm.trans hpending)
        rw [distinct d hd m hm (hdref.trans href.symm)]
  rw [Entry.confirmedBy, hanswer]
  exact ⟨rfl, rfl⟩

/-! ## The place of a number -/

theorem placeOfRef?_eq_none (h : ref ∉ t.refs) : t.placeOfRef? ref = none := by
  rw [placeOfRef?, List.findIdx?_eq_none_iff]
  intro e he
  have hne : e.ref? ≠ some ref := fun href => h (List.mem_filterMap.2 ⟨e, he, href⟩)
  simpa using hne

theorem placeOfRef?_append (h : ref ∉ before.refs) (href : p.ref? = some ref) :
    (before ++ p :: after).placeOfRef? ref = some before.length := by
  have hnone := placeOfRef?_eq_none h
  unfold placeOfRef? at hnone ⊢
  rw [List.findIdx?_append, hnone]
  simp [List.findIdx?_cons, href]

end Timeline

namespace Conversation

/-- Whether an operation brings the confirmation of a message that was sent in a stay: over the
channel, or as the answer to its post. -/
inductive Operation.Confirms (room : Room) (stay : Nat) (m : Message) : Operation → Prop
  | returned : Confirms room stay m (.received m)
  | answered {body : String} {ref : Ref} (number : m.ref = some ref) :
      Confirms room stay m (.posted ⟨room, stay, body, ref⟩ (.ok m))

/-- Messages of the local user that confirm some of the pending entries, one each. -/
structure Confirmations (c : Conversation) (room : Room) (answers : List Message) : Prop where
  active : c.room = some room
  own : ∀ m ∈ answers, m.sender = some c.identity.user
  awaited : ∀ m ∈ answers, ∃ ref ∈ c.timeline.refs, m.ref = some ref
  refs : (answers.map Message.ref).Nodup
  ids : (answers.map Message.id).Nodup
  new : ∀ m ∈ answers, m.id ∉ c.timeline.confirmedIds

variable {c c' : Conversation} {room : Room} {answers past : List Message} {m : Message} {ref : Ref}
  {op : Operation} {ops : List Operation}

theorem Operation.Confirms.unique {stay : Nat} {d : Message} (h : op.Confirms room stay m)
    (h' : op.Confirms room stay d) : d = m := by
  cases h with
  | returned => cases h'; rfl
  | answered => cases h'; rfl

theorem Operation.Confirms.perform (h : op.Confirms room c.stay m) (active : c.room = some room)
    (own : m.sender = some c.identity.user) : c.perform op = .ok (c.settle m) := by
  cases h with
  | returned => exact congrArg Except.ok (received_of_own active own)
  | @answered body ref number =>
      have hcurrent := isCurrent_iff.2 ⟨active, rfl⟩
      have hsame : { m with ref := m.ref.or (some ref),
                            sender := m.sender.or (some c.identity.user) } = m := by
        rw [number, own]
        cases m
        cases number
        cases own
        rfl
      have hposted : c.posted ⟨room, c.stay, body, ref⟩ (.ok m) = c.settle m := by
        unfold Conversation.posted
        rw [if_neg (by simp [hcurrent])]
        dsimp only
        rw [hsame]
      exact congrArg Except.ok hposted

/-! ## One confirmation -/

theorem retract_gone (gone : ref ∉ c.timeline.refs) :
    c.retract (c.timeline.placeOfRef? ref) = (c, []) := by
  rw [Timeline.placeOfRef?_eq_none gone]
  rfl

/-- A message that is confirmed already, with nothing left that waits for it. -/
theorem settle_held (held : m.id ∈ c.timeline.confirmedIds)
    (gone : ∀ ref, m.ref = some ref → ref ∉ c.timeline.refs) : c.settle m = (c, []) := by
  unfold settle
  cases c.room with
  | none => rfl
  | some room =>
      dsimp only
      rw [if_pos (Timeline.holdsConfirmed_iff.2 held)]
      cases href : m.ref with
      | none => rfl
      | some ref => exact retract_gone (gone ref href)

theorem settle_pending {before after : Timeline} {p : Entry} (active : c.room = some room)
    (href : m.ref = some ref) (new : m.id ∉ c.timeline.confirmedIds)
    (place : c.timeline = before ++ p :: after) (hp : p.ref? = some ref)
    (first : ref ∉ before.refs) :
    (c.settle m).1 =
      { c with timeline := before ++ Entry.ofMessage room.number m :: after } := by
  have hheld : ¬ c.timeline.holdsConfirmed m.id = true := by
    rw [Timeline.holdsConfirmed_iff]
    exact new
  have hplace : c.timeline.placeOfRef? ref = some before.length := by
    rw [place]
    exact Timeline.placeOfRef?_append first hp
  unfold settle
  rw [active]
  dsimp only
  rw [if_neg hheld, href]
  simp only [Option.isSome_some, if_true, Option.bind_some, hplace]
  rw [place, List.set_append_right _ _ (Nat.le_refl _), Nat.sub_self, List.set_cons_zero]

def confirmedBy (c : Conversation) (room : Room) (answers : List Message) : Conversation :=
  { c with timeline := c.timeline.confirmedBy room.number answers }

/-- A number that is waited for stands in the timeline once. -/
theorem split_at_ref (nodup : c.timeline.refs.Nodup) (href : ref ∈ c.timeline.refs) :
    ∃ before p after, c.timeline = before ++ p :: after ∧ p.ref? = some ref ∧
      ref ∉ Timeline.refs before ∧ ref ∉ Timeline.refs after := by
  obtain ⟨p, hp, hpref⟩ := List.mem_filterMap.1 href
  obtain ⟨before, after, hsplit⟩ := List.append_of_mem hp
  rw [hsplit, Timeline.refs_append, Timeline.refs_cons, hpref, Option.toList_some,
    List.singleton_append, List.nodup_middle, List.nodup_cons, List.mem_append, not_or] at nodup
  exact ⟨before, p, after, hsplit, hpref, nodup.1⟩

theorem Confirmations.eq_of_ref (h : c.Confirmations room answers) {d : Message} (hm : m ∈ answers)
    (hd : d ∈ answers) (heq : m.ref = d.ref) : m = d :=
  List.inj_on_of_nodup_map h.refs hm hd heq

theorem Confirmations.settle (h : c.Confirmations room answers) (sound : c.Sound)
    (hpast : ∀ d ∈ past, d ∈ answers) (hm : m ∈ answers) :
    ((c.confirmedBy room past).settle m).1 = c.confirmedBy room (past ++ [m]) := by
  obtain ⟨ref, hwaited, href⟩ := h.awaited m hm
  by_cases hcame : m ∈ past
  · have hheld : m.id ∈ (c.timeline.confirmedBy room.number past).confirmedIds :=
      Timeline.mem_confirmedIds_confirmedBy hcame href hwaited
        fun d hd d' hd' => h.eq_of_ref (hpast d hd) (hpast d' hd')
    have hgone : ∀ r, m.ref = some r → r ∉ (c.timeline.confirmedBy room.number past).refs :=
      fun r hr hmem => (Timeline.mem_refs_confirmedBy.1 hmem).2 m hcame hr
    rw [settle_held hheld hgone, confirmedBy, confirmedBy,
      Timeline.confirmedBy_snoc_of_idle (.inl hcame)]
  · have hfirst : ∀ d ∈ past, d.ref ≠ some ref := fun d hd hdref =>
      hcame (h.eq_of_ref (hpast d hd) hm (hdref.trans href.symm) ▸ hd)
    have hnew : m.id ∉ (c.timeline.confirmedBy room.number past).confirmedIds := by
      intro hid
      rcases Timeline.confirmedIds_confirmedBy_subset hid with hold | ⟨d, hd, hdid⟩
      · exact h.new m hm hold
      · exact hcame (List.inj_on_of_nodup_map h.ids (hpast d hd) hm hdid ▸ hd)
    obtain ⟨before, p, after, hsplit, hp, hbefore, hafter⟩ := split_at_ref sound.refs hwaited
    obtain ⟨hnow, hnext⟩ := Timeline.confirmedBy_snoc_of_first room.number hp href hfirst
      hbefore hafter
    have hbefore' : ref ∉ (Timeline.confirmedBy room.number past before).refs := fun hmem =>
      hbefore (Timeline.mem_refs_confirmedBy.1 hmem).1
    rw [← hsplit] at hnow hnext
    rw [settle_pending (c := c.confirmedBy room past) h.active href hnew hnow hp hbefore']
    simp only [confirmedBy, hnext]

/-! ## All confirmations -/

theorem Confirmations.performs (h : c.Confirmations room answers) (sound : c.Sound)
    (hpast : ∀ d ∈ past, d ∈ answers)
    (deliveries : ∀ op ∈ ops, ∃ m ∈ answers, op.Confirms room c.stay m) :
    ∃ came, (∀ m, m ∈ came ↔ m ∈ past ∨ ∃ op ∈ ops, op.Confirms room c.stay m) ∧
      (c.confirmedBy room past).Performs ops (c.confirmedBy room came) := by
  induction ops generalizing past with
  | nil => exact ⟨past, by simp, .nil _⟩
  | cons op ops ih =>
      obtain ⟨m, hm, hop⟩ := deliveries op List.mem_cons_self
      have hpast' : ∀ d ∈ past ++ [m], d ∈ answers := by
        intro d hd
        rcases List.mem_append.1 hd with hd | hd
        · exact hpast d hd
        · exact List.mem_singleton.1 hd ▸ hm
      obtain ⟨came, hcame, htail⟩ := ih hpast' fun op hop =>
        deliveries op (List.mem_cons_of_mem _ hop)
      have hhead : (c.confirmedBy room past).perform op =
          .ok (c.confirmedBy room (past ++ [m]), ((c.confirmedBy room past).settle m).2) := by
        have hstep := hop.perform (c := c.confirmedBy room past) h.active (h.own m hm)
        rw [hstep, ← h.settle sound hpast hm]
      refine ⟨came, fun d => ?_, .cons op hhead htail⟩
      have hsame : d = m ↔ op.Confirms room c.stay d :=
        ⟨fun heq => heq ▸ hop, fun hd => hop.unique hd⟩
      rw [hcame, List.mem_append, List.mem_singleton, hsame, or_assoc]
      simp only [List.mem_cons, exists_eq_or_imp]

/-- Whatever the order, the ways and the repetitions in which the confirmations of pending messages
come, once all have come each entry is replaced in its place and all else is as before. A post that
fails after its message was confirmed does nothing. -/
theorem confirmations_commute (identity : Identity) (settings : ChatSettings)
    (earlier : List Operation) (c : Conversation)
    (reached : (new identity settings).Performs earlier c) (room : Room) (answers : List Message)
    (confirmations : c.Confirmations room answers) (ops : List Operation)
    (deliveries : ∀ op ∈ ops, ∃ m ∈ answers, op.Confirms room c.stay m) :
    ((∀ m ∈ answers, ∃ op ∈ ops, op.Confirms room c.stay m) →
      ∀ c', c.Performs ops c' ↔
        c' = { c with timeline := c.timeline.confirmedBy room.number answers }) ∧
    ∃ c', c.Performs ops c' ∧ ∀ op ∈ ops, ∀ m, op.Confirms room c.stay m →
      ∀ ref body e, m.ref = some ref →
        c'.posted ⟨room, c.stay, body, ref⟩ (.error e) = (c', []) := by
  have sound := reached.sound (sound_new identity settings)
  have hnothing : ∀ d ∈ ([] : List Message), d ∈ answers := nofun
  obtain ⟨came, hcame, hperforms⟩ := confirmations.performs sound hnothing deliveries
  have hstart : c.confirmedBy room [] = c := by rw [confirmedBy, Timeline.confirmedBy_nil]
  rw [hstart] at hperforms
  constructor
  · intro all c'
    have hsame : ∀ d, d ∈ came ↔ d ∈ answers := by
      intro d
      rw [hcame]
      constructor
      · rintro (hd | ⟨op, hop, hconfirms⟩)
        · cases hd
        · obtain ⟨m, hm, hconfirms'⟩ := deliveries op hop
          exact hconfirms'.unique hconfirms ▸ hm
      · exact fun hd => .inr (all d hd)
    have hend : c.confirmedBy room came = c.confirmedBy room answers := by
      rw [confirmedBy, confirmedBy, Timeline.confirmedBy_congr hsame fun d hd d' hd' =>
        confirmations.eq_of_ref ((hsame d).1 hd) ((hsame d').1 hd')]
    rw [hend] at hperforms
    exact ⟨fun hc' => hc'.unique hperforms, fun heq => heq ▸ hperforms⟩
  · refine ⟨_, hperforms, fun op hop m hconfirms ref body e href => ?_⟩
    have hgone : ref ∉ (c.confirmedBy room came).timeline.refs := fun hmem =>
      (Timeline.mem_refs_confirmedBy.1 hmem).2 m ((hcame m).2 (.inr ⟨op, hop, hconfirms⟩)) href
    have hcurrent : (c.confirmedBy room came).isCurrent room c.stay = true :=
      isCurrent_iff.2 ⟨confirmations.active, rfl⟩
    unfold posted
    rw [if_neg (by simp [hcurrent])]
    exact retract_gone hgone

/-- Two messages of one body, each confirmed under the number that the other was sent with. -/
theorem crossed_confirmations :
    let room : Room := ⟨1, 2⟩
    let entered := ((new ⟨1, "ada"⟩ .standard).enter room).1
    let c := (entered.afterSend room "hi" .zero 5 5).afterSend room "hi" (.ofSeconds 2) 5 6
    let first : Message := ⟨6, none, some 1, none, none, "hi", .text, 0, some 5⟩
    let second : Message := ⟨5, none, some 1, none, none, "hi", .text, 0, some 6⟩
    let ops : List Operation := [.posted ⟨room, 1, "hi", 6⟩ (.ok second), .received first,
      .received second, .posted ⟨room, 1, "hi", 5⟩ (.ok first)]
    (new ⟨1, "ada"⟩ .standard).Performs
        [.enter room, .send "hi" .zero 5 true, .send "hi" (.ofSeconds 2) 5 true] c ∧
      c.Confirmations room [first, second] ∧
      (∀ op ∈ ops, ∃ m ∈ [first, second], op.Confirms room c.stay m) ∧
      c.Performs ops
        { c with timeline := [Entry.ofMessage 2 first, Entry.ofMessage 2 second] } := by
  intro room entered c first second ops
  have reached : (new ⟨1, "ada"⟩ .standard).Performs
      [.enter room, .send "hi" .zero 5 true, .send "hi" (.ofSeconds 2) 5 true] c :=
    .cons _ rfl (.cons _ rfl (.one _ rfl))
  have confirmations : c.Confirmations room [first, second] :=
    ⟨rfl, by decide, by decide, by decide, by decide, by decide⟩
  have hfirst : first ∈ [first, second] := List.mem_cons_self
  have hsecond : second ∈ [first, second] := List.mem_cons_of_mem _ List.mem_cons_self
  have deliveries : ∀ op ∈ ops, ∃ m ∈ [first, second], op.Confirms room c.stay m := by
    intro op hop
    simp only [ops, List.mem_cons, List.not_mem_nil, or_false] at hop
    rcases hop with rfl | rfl | rfl | rfl
    · exact ⟨second, hsecond, .answered rfl⟩
    · exact ⟨first, hfirst, .returned⟩
    · exact ⟨second, hsecond, .returned⟩
    · exact ⟨first, hfirst, .answered rfl⟩
  have commute := confirmations_commute ⟨1, "ada"⟩ .standard _ c reached room [first, second]
    confirmations ops deliveries
  refine ⟨reached, confirmations, deliveries, (commute.1 ?_ _).2 rfl⟩
  intro m hm
  simp only [List.mem_cons, List.not_mem_nil, or_false] at hm
  rcases hm with rfl | rfl
  · exact ⟨.received first, by simp [ops], .returned⟩
  · exact ⟨.received second, by simp [ops], .returned⟩

end Conversation

end LiveChat
