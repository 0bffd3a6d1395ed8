import LiveChat.Proofs.Json.RoundTrip
import LiveChat.Wire.ClientFrame
import LiveChat.Wire.ServerFrame

/-!
# Reading back what is written on the wire

What is written for a field is read back by the reader of the field, so records, envelopes and
frames are read back too.
-/

namespace LiveChat

namespace Json

/-! ## Fields -/

theorem mapM_map {f : β → Option α} {g : α → β} {l : List α} (h : ∀ a ∈ l, f (g a) = some a) :
    (l.map g).mapM f = some l := by
  induction l with
  | nil => rfl
  | cons a l ih =>
      rw [List.map_cons, List.mapM_cons, h a List.mem_cons_self,
        ih fun b hb => h b (List.mem_cons_of_mem _ hb)]
      rfl

theorem fields?_record (fields : List (String × Json)) : (record fields).fields? = some fields := by
  refine mapM_map fun field _ => ?_
  simp only [Glyph.decode_encode, Option.bind_eq_bind, Option.bind_some, String.ofList_toList]

theorem recordFields?_record (names : List String) (fields : List (String × Json)) :
    (record fields).recordFields? names = some fields := fields?_record fields

@[simp] theorem text?_text (s : String) : (text s).text? = some s := by
  simp only [text, text?, Glyph.decode_encode, Option.map_some, String.ofList_toList]

@[simp] theorem variant?_text (s : String) : (text s).variant? = some s := text?_text s

@[simp] theorem asideVariant?_text (s : String) : (text s).asideVariant? = some s := text?_text s

@[simp] theorem word?_word (w : UInt64) : (word w).word? = some w := Numeral.word?_ofNat w

@[simp] theorem int64?_int64 (i : Int64) : (int64 i).int64? = some i := Numeral.int64?_ofInt i

@[simp] theorem optional?_text (s : Option String) :
    optional? text? (nullable text s) = some s := by
  cases s with
  | none => rfl
  | some s => exact congrArg (Option.map some) (text?_text s)

@[simp] theorem optional?_word (w : Option UInt64) :
    optional? word? (nullable word w) = some w := by
  cases w with
  | none => rfl
  | some w => exact congrArg (Option.map some) (word?_word w)

/-- A field that is left out when there is nothing in it. -/
@[simp] theorem optional?_of_word (w : UInt64) : optional? word? (word w) = some (some w) :=
  optional?_word (some w)

theorem list?_words (ws : List UInt64) : list? word? (.array (ws.map word)) = some ws :=
  mapM_map fun w _ => word?_word w

end Json

open Json

/-! ## Records -/

theorem Availability.ofJson?_toJson (aside : Bool) (a : Availability) :
    Availability.ofJson? aside a.toJson = some a := by
  cases aside <;> simp [ofJson?, toJson, ofName?_name]

theorem MessageKind.ofJson?_toJson (aside : Bool) (k : MessageKind) :
    MessageKind.ofJson? aside k.toJson = some k := by
  cases aside <;> cases k <;> simp [ofJson?, toJson, name]

theorem Message.ofJson?_toJson (aside : Bool) (m : Message) :
    Message.ofJson? aside m.toJson = some m := by
  obtain ⟨id, room, sender, nickname, avatar, body, kind, createdAt, ref⟩ := m
  unfold Message.ofJson? Message.toJson
  rw [recordFields?_record]
  cases ref <;>
    simp [Fields.required, Fields.optional, Fields.defaulted, Fields.find?,
      MessageKind.ofJson?_toJson]

/-! ## Frames -/

theorem Envelope.ofJson?_toJson (kind : String) (payload : Option Json) :
    Envelope.ofJson? (Envelope.toJson kind payload) = some ⟨kind, payload, false⟩ := by
  cases payload with
  | none =>
      show ((record [("type", .text kind)]).fields? >>= _) = _
      rw [fields?_record]
      simp [Fields.required, Fields.find?]
  | some j =>
      have hfirst : isFirst "payload" "type" [("type", .text kind), ("payload", j)] = false := by
        simp [isFirst, List.findIdx_cons]
      show ((record [("type", .text kind), ("payload", j)]).fields? >>= _) = _
      rw [fields?_record]
      simp [Fields.required, Fields.find?, hfirst]

theorem Envelope.type_toJson (kind : String) (payload : Option Json) :
    (do (← (Envelope.toJson kind payload).fields?).required "type" Json.text?) = some kind := by
  cases payload with
  | none =>
      show ((record [("type", .text kind)]).fields? >>= _) = _
      rw [fields?_record]
      simp [Fields.required, Fields.find?]
  | some j =>
      show ((record [("type", .text kind), ("payload", j)]).fields? >>= _) = _
      rw [fields?_record]
      simp [Fields.required, Fields.find?]

theorem Envelope.printable_toJson (kind : String) {payload : Option Json}
    (h : ∀ j ∈ payload, j.Printable) : (Envelope.toJson kind payload).Printable := by
  cases payload with
  | none => exact printable_record (List.forall_mem_singleton.2 (printable_text kind))
  | some j => exact printable_record (by simp [printable_text, h j rfl])

namespace ClientFrame

theorem ofJson?_toJson (f : ClientFrame) : ofJson? f.toJson = some f := by
  unfold ofJson? toJson
  rw [Envelope.ofJson?_toJson]
  show ofEnvelope? ⟨f.kind, f.payload, false⟩ = some f
  cases f with
  | heartbeat | typing | stoppedTyping => rfl
  | watch users =>
      simp [ofEnvelope?, kind, payload, fields?_record, Fields.required, Fields.find?, list?_words]
  | setAvailability availability =>
      simp [ofEnvelope?, kind, payload, fields?_record, Fields.required, Fields.find?,
        Availability.ofJson?_toJson]
  | setNote note emoji =>
      simp [ofEnvelope?, kind, payload, fields?_record, Fields.optional, Fields.find?]
  | post body ref =>
      cases ref <;>
        simp [ofEnvelope?, kind, payload, fields?_record, Fields.required, Fields.optional,
          Fields.find?]

theorem printable_payload (f : ClientFrame) : ∀ j ∈ f.payload, j.Printable := by
  intro j hj
  cases f with
  | heartbeat | typing | stoppedTyping => cases hj
  | watch users =>
      cases hj
      have hitems : (Json.array (users.map word)).Printable := printable_array fun k hk => by
        obtain ⟨user, -, rfl⟩ := List.mem_map.1 hk
        exact printable_word user
      exact printable_record (by simp [hitems])
  | setAvailability availability =>
      cases hj
      exact printable_record (by simp [Availability.toJson, printable_text])
  | setNote note emoji =>
      cases hj
      exact printable_record (by simp [printable_nullable printable_text])
  | post body ref =>
      cases ref with
      | none =>
          cases hj
          exact printable_record (by simp [printable_text])
      | some ref =>
          cases hj
          exact printable_record (by simp [printable_text, printable_word])

theorem parse_encode (f : ClientFrame) : parse f.encode = some f.toJson :=
  parse_render (Envelope.printable_toJson f.kind f.printable_payload)

theorem decode_encode (f : ClientFrame) : decode f.encode = some f := by
  unfold decode
  rw [parse_encode]
  exact ofJson?_toJson f

/-- The text of a frame is an object of which one member, `type`, names the frame's kind. It is read
back to the frame, so that no other frame has this text. -/
theorem kind_and_frame_read_back (f : ClientFrame) :
    (do (← (← parse f.encode).fields?).required "type" Json.text?) = some f.kind ∧
      decode f.encode = some f ∧ ∀ g, encode g = f.encode ↔ g = f := by
  refine ⟨?_, decode_encode f, fun g => ⟨fun same => ?_, congrArg encode⟩⟩
  · rw [parse_encode]
    exact Envelope.type_toJson f.kind f.payload
  · have hread : decode g.encode = some f := by rw [same, decode_encode]
    rw [decode_encode] at hread
    exact Option.some.inj hread

example : (post "say \"hi\" \\ \n\x01 é" (some 18446744073709551615)).encode =
    "\x7b\"type\":\"message\",\"payload\":\x7b\"message\":\"say \\\"hi\\\" \\\\ \\n\\u0001 é\"," ++
      "\"client_ref\":18446744073709551615\x7d\x7d" := by decide +kernel

end ClientFrame

theorem Message.printable_toJson (m : Message) : m.toJson.Printable := by
  obtain ⟨id, room, sender, nickname, avatar, body, kind, createdAt, ref⟩ := m
  refine printable_record ?_
  cases ref <;>
    simp [printable_text, printable_word, printable_int64, MessageKind.toJson,
      printable_nullable printable_text, printable_nullable printable_word]

namespace ServerFrame

theorem ofEnvelope?_message (m : Message) (aside : Bool) :
    ofEnvelope? ⟨"message", some m.toJson, aside⟩ = some (message m) := by
  show (Message.ofJson? aside m.toJson).map message = some (message m)
  rw [Message.ofJson?_toJson]
  rfl

theorem ofJson?_message (m : Message) : ofJson? (message m).toJson = some (message m) := by
  unfold ofJson? toJson
  rw [Envelope.ofJson?_toJson]
  exact ofEnvelope?_message m false

/-- A message that the service sends is read as it was stored. -/
theorem decode_encode_message (m : Message) : decode (message m).encode = some (message m) := by
  have hprintable : (message m).toJson.Printable :=
    Envelope.printable_toJson (message m).kind fun j hj => by
      cases hj
      exact m.printable_toJson
  unfold decode encode
  rw [parse_render hprintable]
  exact ofJson?_message m

end ServerFrame

end LiveChat
