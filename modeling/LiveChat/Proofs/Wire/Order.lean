import LiveChat.Proofs.Json.Order
import LiveChat.Proofs.Wire.ServerFrame
import Mathlib.Data.List.Permutation

/-!
# Frames of the server with their members in another order

The members of a frame may come in any order, and so may those of the record in it. A payload in
front of the kind is set aside and read as it would be behind it. Only the presence of several users
cannot be read then, and is refused.
-/

namespace LiveChat

open Json

variable {j j' : Json}

/-! ## Records -/

theorem Presence.ofJson?_of_reordered (aside : Bool) (h : j.Reordered j') :
    Presence.ofJson? aside j = Presence.ofJson? aside j' :=
  bind_recordFields?_of_reordered _ h fun fs fs' order => by
    simp only [Fields.required_of_perm order, Fields.optional_of_perm order]

theorem Message.ofJson?_of_reordered (aside : Bool) (h : j.Reordered j') :
    Message.ofJson? aside j = Message.ofJson? aside j' :=
  bind_recordFields?_of_reordered _ h fun fs fs' order => by
    simp only [Fields.required_of_perm order, Fields.optional_of_perm order,
      Fields.defaulted_of_perm order]

theorem Notice.ofJson?_of_reordered (around : Nat) (h : j.Reordered j') :
    Notice.ofJson? around j = Notice.ofJson? around j' :=
  bind_recordFields?_of_reordered _ h fun fs fs' order => by
    simp only [Fields.required_of_perm order, Fields.optional_of_perm order,
      Fields.defaulted_of_perm order]

/-! ## Payloads that are set aside -/

namespace Json

theorem Number.isSome_ofNumeral? {n : Numeral} (h : n.word?.isSome ∨ n.int64?.isSome) :
    (ofNumeral? n).isSome := by
  cases hword : n.word? with
  | some w => rw [ofNumeral?_of_word hword]; rfl
  | none =>
      rw [hword] at h
      obtain ⟨i, hi⟩ := Option.isSome_iff_exists.1 (h.resolve_left nofun)
      rw [ofNumeral?_of_int64 hword hi]
      rfl

namespace Value

@[simp] theorem isSome_text (s : String) : (ofJson? (.text s)).isSome := by
  simp [Json.text, ofJson?]

@[simp] theorem isSome_word (w : UInt64) : (ofJson? (.word w)).isSome := by
  simp [Json.word, ofJson?, Number.isSome_ofNumeral?]

@[simp] theorem isSome_int64 (i : Int64) : (ofJson? (.int64 i)).isSome := by
  simp [Json.int64, ofJson?, Number.isSome_ofNumeral?]

theorem isSome_nullable {f : α → Json} (h : ∀ a, (ofJson? (f a)).isSome) (o : Option α) :
    (ofJson? (.nullable f o)).isSome := by
  cases o with
  | none => rfl
  | some a => exact h a

theorem isSome_record {fields : List (String × Json)} (h : ∀ f ∈ fields, (ofJson? f.2).isSome) :
    (ofJson? (.record fields)).isSome := by
  simp only [Json.record, ofJson?, Option.isSome_map, isSome_ofMembers?, List.all_map,
    List.all_eq_true]
  intro f hf
  simp [h f hf]

end Value

end Json

namespace ServerFrame

variable {f : ServerFrame} {payload : Json}

theorem isSome_payload (whole : ∀ d ∈ f.data?, d.isWhole = true) (names : f.namesUsers = false) :
    (Value.ofJson? f.payload).isSome := by
  cases f with
  | presence p =>
      exact Value.isSome_record (by
        simp [Availability.toJson, Value.isSome_nullable Value.isSome_text])
  | presences batch =>
      have hnone : batch.entries = [] := by simpa [namesUsers, Table.isEmpty] using names
      simp [ServerFrame.payload, hnone, Value.ofJson?, Value.ofMembers?]
  | notice n =>
      obtain ⟨id, kind, title, body, createdAt, data⟩ := n
      refine Value.isSome_record ?_
      cases data with
      | none => simp [Value.isSome_nullable Value.isSome_text]
      | some d =>
          have hdata : Value.ofJson? d.toJson = some d.value :=
            Document.ofJson?_eq_some_iff.1 (Document.ofJson?_toJson (whole d rfl))
          simp [Value.isSome_nullable Value.isSome_text, hdata]
  | message m =>
      obtain ⟨id, room, sender, nickname, avatar, body, kind, createdAt, ref⟩ := m
      refine Value.isSome_record ?_
      cases ref <;>
        simp [MessageKind.toJson, Value.isSome_nullable Value.isSome_text,
          Value.isSome_nullable Value.isSome_word]
  | typing user nickname => exact Value.isSome_record (by simp)
  | stoppedTyping user => exact Value.isSome_record (by simp)

/-! ## Payloads in another order -/

/-- The payload of a frame with the members of its record in some order. The records of several
users come in some order, and the members of each in some order too. -/
def Arranges : ServerFrame → Json → Prop
  | presences batch, payload => ∃ (entries : List (UserId × Presence))
      (record : UserId × Presence → Json), entries.Perm batch.entries ∧
        (∀ e ∈ entries, e.2.toJson.Reordered (record e)) ∧
        payload = .object (entries.map fun e => (nameOfUser e.1, record e))
  | f, payload => f.payload.Reordered payload

theorem arranges_payload (f : ServerFrame) : f.Arranges f.payload := by
  cases f with
  | presences batch =>
      exact ⟨batch.entries, fun e => e.2.toJson, .refl _, fun e _ => .object (.refl _), rfl⟩
  | presence | notice | message | typing | stoppedTyping => exact .object (.refl _)

/-- A payload that names no users is the one object with its members in another order. -/
theorem Arranges.reordered (h : f.Arranges payload) (names : f.namesUsers = false) :
    f.payload.Reordered payload := by
  cases f with
  | presences batch =>
      have hnone : batch.entries = [] := by simpa [namesUsers, Table.isEmpty] using names
      obtain ⟨entries, record, order, -, rfl⟩ := h
      obtain rfl : entries = [] := (hnone ▸ order).eq_nil
      rw [ServerFrame.payload, hnone]
      exact .object (.refl _)
  | presence | notice | message | typing | stoppedTyping => exact h

theorem Arranges.printable (h : f.Arranges payload) (whole : ∀ d ∈ f.data?, d.isWhole = true) :
    payload.Printable := by
  cases f with
  | presences batch =>
      obtain ⟨entries, record, -, records, rfl⟩ := h
      refine printable_object fun m hm => ?_
      obtain ⟨e, he, rfl⟩ := List.mem_map.1 hm
      exact ⟨printable_nameOfUser e.1, (records e he).printable e.2.printable_toJson⟩
  | presence | notice | message | typing | stoppedTyping =>
      exact Reordered.printable h (printable_payload whole)

theorem Arranges.isSound (h : f.Arranges payload) (names : f.namesUsers = false)
    (whole : ∀ d ∈ f.data?, d.isWhole = true) (shallow : f.toJson.depth ≤ nestingLimit) :
    Envelope.isSound payload = true := by
  have hdepth := f.depth_payload
  unfold Envelope.isSound
  rw [← (h.reordered names).depth_eq, ← (h.reordered names).isSome_value_eq,
    isSome_payload whole names, Bool.and_true, decide_eq_true_eq]
  omega

/-- The frame is read whether or not its payload was set aside, if it names no users then. -/
theorem Arranges.ofEnvelope? (h : f.Arranges payload) (kept : ∀ d ∈ f.data?, d.Kept 1)
    {aside : Bool} (readable : (aside && f.namesUsers) = false) :
    ofEnvelope? ⟨f.kind, some payload, aside⟩ = some f := by
  have canonical := ofEnvelope?_payload kept readable
  cases f with
  | presence p =>
      have hread := Presence.ofJson?_of_reordered aside h
      exact (congrArg (Option.map presence) hread).symm.trans canonical
  | presences batch =>
      obtain ⟨entries, record, order, records, rfl⟩ := h
      have hempty : entries.isEmpty = batch.isEmpty := order.isEmpty_eq
      have hread : ∀ e ∈ entries, Presence.ofJson? false (record e) = some e.2 := fun e he => by
        rw [← Presence.ofJson?_of_reordered false (records e he), Presence.ofJson?_toJson]
      rw [namesUsers, ← hempty] at readable
      show (batchOfJson? aside _).map presences = _
      rw [batchOfJson?_records order hread readable]
      rfl
  | notice n =>
      have hread := Notice.ofJson?_of_reordered 1 h
      exact (congrArg (Option.map notice) hread).symm.trans canonical
  | message m =>
      have hread := Message.ofJson?_of_reordered aside h
      exact (congrArg (Option.map message) hread).symm.trans canonical
  | typing | stoppedTyping =>
      refine .trans (bind_fields?_of_reordered h fun fs fs' order => ?_).symm canonical
      simp only [Fields.required_of_perm order, Fields.defaulted_of_perm order]

theorem Arranges.ofEnvelope?_aside (h : f.Arranges payload) (names : f.namesUsers = true) :
    ServerFrame.ofEnvelope? ⟨f.kind, some payload, true⟩ = none := by
  cases f with
  | presences batch =>
      obtain ⟨entries, record, order, -, rfl⟩ := h
      have hempty : entries.isEmpty = batch.isEmpty := order.isEmpty_eq
      rw [namesUsers, ← hempty] at names
      show (batchOfJson? true _).map presences = none
      simp [batchOfJson?, names]
  | presence | notice | message | typing | stoppedTyping => cases names

/-! ## Frames in another order -/

/-- A payload in front of the kind is set aside if it is sound, and refused if not. -/
theorem decode_aside {kind : String} (printable : payload.Printable) :
    decode (Json.record [("payload", payload), ("type", .text kind)]).render =
      if Envelope.isSound payload then ServerFrame.ofEnvelope? ⟨kind, some payload, true⟩
      else none := by
  have hprintable : (Json.record [("payload", payload), ("type", .text kind)]).Printable :=
    printable_record (by simp [printable, printable_text])
  rw [decode_render hprintable]
  show (((Json.record _).fields? >>= _) >>= ServerFrame.ofEnvelope?) = _
  rw [fields?_record]
  cases hsound : Envelope.isSound payload <;>
    simp [Fields.required, Fields.find?, Envelope.isFirst, List.findIdx_cons, hsound]

/-- Whatever the order of the members of its envelope, and of those in its payload, a frame without
fractions is read back that carries no null and is not nested too deep. Only the presence of several
users is refused when the payload stands in front of the kind. -/
theorem read_in_any_order (f : ServerFrame) :
    (f.Arranges f.payload ∧
      f.encode = (Json.record [("type", .text f.kind), ("payload", f.payload)]).render) ∧
    ((∀ d ∈ f.data?, d.isWhole = true ∧ d.value ≠ .null) → f.toJson.depth ≤ nestingLimit →
      ∀ payload, f.Arranges payload →
        ∀ members, members.Perm [("type", .text f.kind), ("payload", payload)] →
          decode (Json.record members).render =
            if f.namesUsers ∧ members.map Prod.fst = ["payload", "type"] then none
            else some f) := by
  refine ⟨⟨f.arranges_payload, rfl⟩, fun data shallow payload arranged members order => ?_⟩
  have whole : ∀ d ∈ f.data?, d.isWhole = true := fun d hd => (data d hd).1
  have kept : ∀ d ∈ f.data?, d.Kept 1 := fun d hd =>
    ⟨(data d hd).1, (data d hd).2, Nat.le_trans (depth_data hd) shallow⟩
  have printable := arranged.printable whole
  rcases List.perm_pair.1 order with rfl | rfl
  · rw [if_neg (by simp)]
    exact (decode_envelope printable).trans (arranged.ofEnvelope? kept rfl)
  · rw [decode_aside printable]
    cases names : f.namesUsers with
    | false =>
        rw [arranged.isSound names whole shallow, if_pos rfl, if_neg (by simp)]
        exact arranged.ofEnvelope? kept (by simp [names])
    | true =>
        rw [arranged.ofEnvelope?_aside names, ite_self, if_pos ⟨rfl, rfl⟩]

/-- A notice whose text has all members backwards is read, and the presence of two users is refused
that comes in front of its kind. -/
theorem backward_notice_read :
    let data : Document := ⟨.object [("a", .array [.number (.word 1),
      .object [("b", .number (.below (-5) (by decide)))]])], by decide⟩
    let n : Notice := ⟨7, "mention", "t", none, -1, some data⟩
    let text := "\x7b\"payload\":\x7b\"data\":\x7b\"a\":[1,\x7b\"b\":-5\x7d]\x7d," ++
      "\"created_at\":-1,\"body\":null,\"title\":\"t\",\"kind\":\"mention\",\"id\":7\x7d," ++
      "\"type\":\"notification\"\x7d"
    let three : UserId × Presence := (3, ⟨3, .online, 5, none, none⟩)
    let four : UserId × Presence := (4, ⟨4, .doNotDisturb, 6, some "focus", none⟩)
    decode text = some (notice n) ∧
      decode (Json.record [("payload", batchToJson [four, three]),
        ("type", .text "presence_state_sync")]).render = none := by
  intro data n text three four
  constructor
  · let fields : List (String × Json) := [("id", .word 7), ("kind", .text "mention"),
      ("title", .text "t"), ("body", .null), ("created_at", .int64 (-1)), ("data", data.toJson)]
    have harranged : (notice n).Arranges (.record fields.reverse) :=
      .object ((List.reverse_perm fields).symm.map _)
    have hdata : ∀ d ∈ (notice n).data?, d.isWhole = true ∧ d.value ≠ .null := fun d hd => by
      cases hd
      exact ⟨by decide, nofun⟩
    have hread := (read_in_any_order (notice n)).2 hdata (by decide +kernel) _ harranged
      [("payload", .record fields.reverse), ("type", .text "notification")] (.swap _ _ [])
    have htext : (Json.record [("payload", .record fields.reverse),
        ("type", .text "notification")]).render = text := by decide +kernel
    exact htext ▸ hread
  · have hentries : (Table.ofList [three, four]).entries = [three, four] := by decide +kernel
    have harranged : (presences (.ofList [three, four])).Arranges (batchToJson [four, three]) :=
      ⟨[four, three], fun e => e.2.toJson, hentries ▸ .swap three four [],
        fun e _ => .object (.refl _), rfl⟩
    have hread := (read_in_any_order (presences (.ofList [three, four]))).2 nofun
      (by decide +kernel) _ harranged
      [("payload", batchToJson [four, three]), ("type", .text "presence_state_sync")] (.swap _ _ [])
    exact hread.trans (if_pos (by decide +kernel))

end ServerFrame

end LiveChat
