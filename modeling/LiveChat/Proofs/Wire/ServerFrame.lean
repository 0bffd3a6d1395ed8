import LiveChat.Proofs.Json.Document
import LiveChat.Proofs.Wire.RoundTrip

/-!
# Frames of the server read back

A frame of the server has one text, but for the presence of several users, which may be written in
any order. Each text of a frame is read back to the frame unless its data holds a fraction, is a
null, or is nested too deep. Data that was read is neither of the latter.
-/

namespace LiveChat

namespace Json

/-! ## Fields -/

theorem optional?_of_ne_null {α : Type} {read : Json → Option α} {j : Json} (h : j ≠ .null) :
    optional? read j = (read j).map some := by
  cases j <;> first | rfl | exact absurd rfl h

theorem Fields.read_of_optional {α : Type} {fs : Fields} {name : String} {read : Json → Option α}
    {a : α} (h : fs.optional name read = some (some a)) : ∃ j, j ≠ .null ∧ read j = some a := by
  unfold Fields.optional at h
  obtain ⟨field, -, h⟩ := Option.bind_eq_some_iff.1 h
  cases field with
  | none => cases h
  | some j =>
      have hnull : j ≠ .null := by
        rintro rfl
        cases h
      dsimp only at h
      rw [optional?_of_ne_null hnull, Option.map_eq_some_iff] at h
      obtain ⟨a', hread, ha⟩ := h
      exact ⟨j, hnull, hread.trans ha⟩

theorem depth_record {fields : List (String × Json)} {name : String} {j : Json}
    (h : (name, j) ∈ fields) : j.depth < (record fields).depth := by
  show j.depth < depthMembers _ + 1
  induction fields with
  | nil => cases h
  | cons field fields ih =>
      obtain ⟨name', j'⟩ := field
      show j.depth < max j'.depth (depthMembers _) + 1
      rcases List.mem_cons.1 h with heq | h
      · cases heq
        omega
      · have := ih h
        omega

end Json

open Json

/-! ## Records -/

theorem Presence.ofJson?_toJson (aside : Bool) (p : Presence) :
    Presence.ofJson? aside p.toJson = some p := by
  unfold Presence.ofJson? Presence.toJson
  rw [recordFields?_record]
  simp [Fields.required, Fields.optional, Fields.find?, Availability.ofJson?_toJson]

theorem Presence.printable_toJson (p : Presence) : p.toJson.Printable :=
  printable_record (by
    simp [printable_word, printable_int64, Availability.toJson, printable_text,
      printable_nullable printable_text])

/-- What lets data be read back in a record that has so many arrays and objects around it. -/
structure Json.Document.Kept (around : Nat) (d : Document) : Prop where
  whole : d.isWhole = true
  notNull : d.value ≠ .null
  shallow : around + 1 + d.toJson.depth ≤ nestingLimit

namespace Notice

variable {n : Notice} {around : Nat}

theorem optional?_data {d : Document} (kept : d.Kept around) :
    optional? (dataOfJson? around) d.toJson = some (some d) := by
  rw [optional?_of_ne_null (Document.toJson_ne_null kept.notNull), dataOfJson?,
    if_pos kept.shallow, Document.ofJson?_toJson kept.whole]
  rfl

theorem ofJson?_toJson (kept : ∀ d ∈ n.data, d.Kept around) : ofJson? around n.toJson = some n := by
  obtain ⟨id, kind, title, body, createdAt, data⟩ := n
  unfold ofJson? toJson
  rw [recordFields?_record]
  cases data with
  | none => simp [Fields.required, Fields.optional, Fields.defaulted, Fields.find?]
  | some d =>
      simp [Fields.required, Fields.optional, Fields.defaulted, Fields.find?,
        optional?_data (kept d rfl)]

theorem printable_toJson (whole : ∀ d ∈ n.data, d.isWhole = true) : n.toJson.Printable := by
  obtain ⟨id, kind, title, body, createdAt, data⟩ := n
  refine printable_record ?_
  cases data with
  | none =>
      simp [printable_text, printable_word, printable_int64, printable_nullable printable_text]
  | some d =>
      have hdata : d.toJson.Printable := Value.printable_toJson d.value (whole d rfl)
      simp [printable_text, printable_word, printable_int64, printable_nullable printable_text,
        hdata]

theorem depth_data {d : Document} (hd : d ∈ n.data) : d.toJson.depth < n.toJson.depth := by
  obtain ⟨id, kind, title, body, createdAt, data⟩ := n
  obtain rfl : data = some d := hd
  exact depth_record (List.mem_append_right _ (List.mem_singleton_self ("data", d.toJson)))

/-- Data that was read is not null and not nested too deep. -/
theorem data_of_ofJson? {j : Json} (h : ofJson? around j = some n) :
    ∀ d ∈ n.data, d.value ≠ .null ∧ around + 1 + d.toJson.depth ≤ nestingLimit := by
  intro d hd
  unfold ofJson? at h
  simp only [Option.bind_eq_bind, Option.bind_eq_some_iff] at h
  obtain ⟨fs, -, id, -, kind, -, title, -, body, -, createdAt, -, data, hdata, h⟩ := h
  cases h
  obtain rfl : data = some d := hd
  obtain ⟨j, hnull, hread⟩ := Fields.read_of_optional hdata
  unfold dataOfJson? at hread
  split at hread
  · next hshallow =>
    have hvalue := Document.ofJson?_eq_some_iff.1 hread
    have hdepth : d.toJson.depth ≤ j.depth := Value.depth_of_ofJson? j hvalue
    refine ⟨fun hd => hnull (Value.eq_null_of_ofJson? (hd ▸ hvalue)), ?_⟩
    omega
  · cases hread

end Notice

/-! ## Frames -/

namespace ServerFrame

def member (e : UserId × Presence) : List Glyph × Json := (nameOfUser e.1, e.2.toJson)

/-- The presence of several users, in some order. -/
def batchToJson (entries : List (UserId × Presence)) : Json := .object (entries.map member)

/-- The texts of a frame. -/
inductive Writes : ServerFrame → String → Prop
  | canonical (f : ServerFrame) : Writes f f.encode
  | reordered {batch : Table UserId Presence} {entries : List (UserId × Presence)}
      (order : entries.Perm batch.entries) :
      Writes (presences batch)
        (Envelope.toJson "presence_state_sync" (some (batchToJson entries))).render

/-- The data that a frame carries for whoever shows it. -/
def data? : ServerFrame → Option Document
  | notice n => n.data
  | _ => none

/-- Whether users are named in the payload, as they cannot be in one that is set aside. -/
def namesUsers : ServerFrame → Bool
  | presences batch => !batch.isEmpty
  | _ => false

/-! ### The presence of several users -/

theorem userOfName?_nameOfUser (user : UserId) : userOfName? (nameOfUser user) = some user := by
  unfold userOfName? nameOfUser
  rw [mapM_map fun c hc => if_pos (Text.isDigit_of_mem_digits hc)]
  simp

/-- A batch is read from the records of its users in any order, set aside only if it is empty. -/
theorem batchOfJson?_records {batch : Table UserId Presence} {entries : List (UserId × Presence)}
    (order : entries.Perm batch.entries) {record : UserId × Presence → Json}
    (records : ∀ e ∈ entries, Presence.ofJson? false (record e) = some e.2) {aside : Bool}
    (readable : (aside && !entries.isEmpty) = false) :
    batchOfJson? aside (.object (entries.map fun e => (nameOfUser e.1, record e))) =
      some batch := by
  simp only [batchOfJson?, List.isEmpty_map, readable, Bool.false_eq_true, if_false]
  refine Option.bind_eq_some_iff.2 ⟨entries, mapM_map fun e he => ?_, ?_⟩
  · simp [userOfName?_nameOfUser, records e he]
  · rw [Table.ofList_of_perm order]

theorem batchOfJson?_batchToJson {batch : Table UserId Presence}
    {entries : List (UserId × Presence)} (order : entries.Perm batch.entries) {aside : Bool}
    (readable : (aside && !entries.isEmpty) = false) :
    batchOfJson? aside (batchToJson entries) = some batch :=
  batchOfJson?_records order (fun e _ => e.2.ofJson?_toJson false) readable

theorem printable_nameOfUser (user : UserId) : ∀ g ∈ nameOfUser user, g.Printable := by
  intro g hg
  obtain ⟨c, hc, rfl⟩ := List.mem_map.1 hg
  have hdigit : c.isDigit = true := Text.isDigit_of_mem_digits hc
  refine ⟨?_, ?_, ?_⟩
  · rintro rfl
    exact absurd hdigit (by decide)
  · rintro rfl
    exact absurd hdigit (by decide)
  · exact Nat.le_trans (by decide) (Char.isDigit_iff_toNat.1 hdigit).1

theorem printable_batchToJson (entries : List (UserId × Presence)) :
    (batchToJson entries).Printable :=
  printable_object fun m hm => by
    obtain ⟨e, -, rfl⟩ := List.mem_map.1 hm
    exact ⟨printable_nameOfUser e.1, e.2.printable_toJson⟩

/-! ### Texts of a frame -/

variable {f : ServerFrame} {text : String}

theorem decode_render {j : Json} (printable : j.Printable) : decode j.render = ofJson? j := by
  rw [decode, parse_render printable]
  rfl

theorem decode_envelope {kind : String} {payload : Json} (printable : payload.Printable) :
    decode (Envelope.toJson kind (some payload)).render =
      ofEnvelope? ⟨kind, some payload, false⟩ := by
  have hpayload : ∀ j ∈ some payload, j.Printable := fun j hj => Option.some.inj hj ▸ printable
  rw [decode_render (Envelope.printable_toJson kind hpayload), ofJson?, Envelope.ofJson?_toJson]
  rfl

theorem printable_payload (whole : ∀ d ∈ f.data?, d.isWhole = true) : f.payload.Printable := by
  cases f with
  | presence p => exact p.printable_toJson
  | presences batch => exact printable_batchToJson batch.entries
  | notice n => exact n.printable_toJson whole
  | message m => exact m.printable_toJson
  | typing user nickname => exact printable_record (by simp [printable_word, printable_text])
  | stoppedTyping user => exact printable_record (by simp [printable_word])

theorem ofEnvelope?_payload (kept : ∀ d ∈ f.data?, d.Kept 1) {aside : Bool}
    (readable : (aside && f.namesUsers) = false) :
    ofEnvelope? ⟨f.kind, some f.payload, aside⟩ = some f := by
  cases f with
  | presence p =>
      show (Presence.ofJson? aside p.toJson).map presence = _
      rw [Presence.ofJson?_toJson]
      rfl
  | presences batch =>
      show (batchOfJson? aside (batchToJson batch.entries)).map presences = _
      rw [batchOfJson?_batchToJson (.refl _) readable]
      rfl
  | notice n =>
      show (Notice.ofJson? 1 n.toJson).map notice = _
      rw [Notice.ofJson?_toJson kept]
      rfl
  | message m => exact ofEnvelope?_message m aside
  | typing user nickname =>
      simp [ofEnvelope?, kind, payload, fields?_record, Fields.required, Fields.defaulted,
        Fields.find?]
  | stoppedTyping user =>
      simp [ofEnvelope?, kind, payload, fields?_record, Fields.required, Fields.find?]

/-- Every text of a frame is read back to the frame. -/
theorem Writes.decode (h : Writes f text) (kept : ∀ d ∈ f.data?, d.Kept 1) :
    decode text = some f := by
  cases h with
  | canonical =>
      have hpayload : f.payload.Printable := printable_payload fun d hd => (kept d hd).whole
      exact (decode_envelope hpayload).trans (ofEnvelope?_payload kept rfl)
  | reordered order =>
      refine (decode_envelope (printable_batchToJson _)).trans ?_
      show (batchOfJson? false (batchToJson _)).map presences = _
      rw [batchOfJson?_batchToJson order rfl]
      rfl

/-- Data of a frame that was read is not null and not nested too deep. -/
theorem data_of_decode (h : ServerFrame.decode text = some f) :
    ∀ d ∈ f.data?, d.value ≠ .null ∧ 1 + 1 + d.toJson.depth ≤ nestingLimit := by
  unfold ServerFrame.decode ofJson? at h
  simp only [Option.bind_eq_bind, Option.bind_eq_some_iff] at h
  obtain ⟨j, -, e, -, h⟩ := h
  unfold ofEnvelope? at h
  obtain ⟨payload, -, h⟩ := Option.bind_eq_some_iff.1 h
  split at h
  case h_1 | h_2 | h_4 =>
    obtain ⟨_, -, rfl⟩ := Option.map_eq_some_iff.1 h
    exact fun d hd => by cases hd
  case h_3 =>
    obtain ⟨n, hn, rfl⟩ := Option.map_eq_some_iff.1 h
    exact Notice.data_of_ofJson? hn
  case h_5 =>
    obtain ⟨_, -, h⟩ := Option.bind_eq_some_iff.1 h
    obtain ⟨_, -, h⟩ := Option.bind_eq_some_iff.1 h
    obtain ⟨_, -, h⟩ := Option.bind_eq_some_iff.1 h
    cases h
    exact fun d hd => by cases hd
  case h_6 =>
    obtain ⟨_, -, h⟩ := Option.bind_eq_some_iff.1 h
    obtain ⟨_, -, h⟩ := Option.bind_eq_some_iff.1 h
    cases h
    exact fun d hd => by cases hd
  case h_7 => cases h

theorem depth_payload (f : ServerFrame) : f.payload.depth < f.toJson.depth :=
  depth_record (List.mem_cons_of_mem _ (List.mem_singleton_self ("payload", f.payload)))

theorem depth_data {d : Document} (hd : d ∈ f.data?) :
    1 + 1 + d.toJson.depth ≤ f.toJson.depth := by
  cases f with
  | notice n =>
      have hrecord : d.toJson.depth < n.toJson.depth := Notice.depth_data hd
      have henvelope : n.toJson.depth < (notice n).toJson.depth := (notice n).depth_payload
      omega
  | presence | presences | message | typing | stoppedTyping => cases hd

/-- A frame without fractions that was read is read back from each of its texts, and so is one that
carries no null and is not nested too deep. -/
theorem read_back_from_every_text :
    (∀ text (f : ServerFrame), decode text = some f → (∀ d ∈ f.data?, d.isWhole = true) →
      ∀ text', f.Writes text' → decode text' = some f) ∧
    (∀ f : ServerFrame, (∀ d ∈ f.data?, d.isWhole = true ∧ d.value ≠ .null) →
      f.toJson.depth ≤ nestingLimit → ∀ text, f.Writes text → decode text = some f) ∧
    ∀ f : ServerFrame, f.Writes f.encode := by
  refine ⟨fun text f hread whole text' written => ?_, fun f data shallow text written => ?_,
    .canonical⟩
  · exact written.decode fun d hd =>
      have ⟨notNull, shallow⟩ := data_of_decode hread d hd
      ⟨whole d hd, notNull, shallow⟩
  · exact written.decode fun d hd =>
      ⟨(data d hd).1, (data d hd).2, Nat.le_trans (depth_data hd) shallow⟩

/-- A notice whose payload stands in front of its kind and repeats a name, and the presence of two
users in descending order. -/
theorem odd_texts_read_back :
    let odd := "\x7b\"payload\":\x7b\"data\":\x7b\"b\":[1,\x7b\"a\":-5\x7d],\"a\":true," ++
      "\"b\":\"x\"\x7d,\"extra\":[0.5],\"title\":\"t\",\"created_at\":-1,\"id\":7\x7d," ++
      "\"type\":\x7b\"notification\":null\x7d\x7d"
    let plain := "\x7b\"type\":\"notification\",\"payload\":\x7b\"id\":7,\"kind\":\"\"," ++
      "\"title\":\"t\",\"body\":null,\"created_at\":-1," ++
      "\"data\":\x7b\"a\":true,\"b\":\"x\"\x7d\x7d\x7d"
    let three : UserId × Presence := (3, ⟨3, .online, 5, none, none⟩)
    let four : UserId × Presence := (4, ⟨4, .doNotDisturb, 6, some "focus", none⟩)
    (∃ f, decode odd = some f ∧ f.encode = plain ∧ decode plain = some f) ∧
      decode (Envelope.toJson "presence_state_sync" (some (batchToJson [four, three]))).render =
        some (presences (.ofList [three, four])) := by
  intro odd plain three four
  obtain ⟨reread, reads, -⟩ := read_back_from_every_text
  constructor
  · have hread : (decode odd).map (fun f => (f.data?.all Document.isWhole, f.encode)) =
        some (true, plain) := by decide +kernel
    obtain ⟨f, hf, hparts⟩ := Option.map_eq_some_iff.1 hread
    obtain ⟨hwhole, hplain⟩ := Prod.mk.inj hparts
    exact ⟨f, hf, hplain, reread odd f hf ((Option.all_eq_true _ _).1 hwhole) plain
      (hplain ▸ .canonical f)⟩
  · have hentries : (Table.ofList [three, four]).entries = [three, four] := by decide +kernel
    refine reads (presences (.ofList [three, four])) nofun (by decide +kernel) _ (.reordered ?_)
    rw [hentries]
    exact .swap three four []

end ServerFrame

end LiveChat
