import LiveChat.Console.Command
import LiveChat.Proofs.Channel.Run
import LiveChat.Proofs.Text

/-!
# Reading commands back

What a line asks for does not depend on the line ends behind it, and the arguments of a command not
on the white space around them. So each command is read back from the line that it is written as.
What is sent as a message is the line without its line ends, and only a line with a slash in front
can be in error.
-/

namespace LiveChat.Console.Command

variable {line ends t : String} {cs args name : List Char} {c : Command} {e : CommandError}

/-! ## Line ends -/

def LineEnds (ends : String) : Prop := ∀ c ∈ ends.toList, isLineEnd c = true

theorem isBlank_of_isLineEnd (c : Char) (h : isLineEnd c = true) : Text.isBlank c = true := by
  simp only [isLineEnd, Bool.or_eq_true, decide_eq_true_eq] at h
  rcases h with rfl | rfl <;> decide

theorem parse_append (line : String) (h : LineEnds ends) : parse (line ++ ends) = parse line := by
  rw [parse, String.toList_append, Text.dropEndWhile_append _ h, parse]

theorem head?_of_slash (h : Text.dropEndWhile isLineEnd line.toList = '/' :: cs) :
    line.toList.head? = some '/' := by
  obtain ⟨-, tail, hline, -⟩ := Text.eq_dropEndWhile_iff.1 h.symm
  rw [hline]
  rfl

theorem parse_error (h : parse line = .error e) : line.toList.head? = some '/' := by
  unfold parse at h
  split at h
  · next cs hcs => exact head?_of_slash hcs
  · split at h <;> cases h

/-! ## Messages -/

/-- A text that is sent just as it was typed. -/
structure IsMessage (t : String) : Prop where
  notBlank : ∃ c ∈ t.toList, Text.isBlank c = false
  noSlash : t.toList.head? ≠ some '/'
  noLineEnd : ∀ c ∈ t.toList.getLast?, isLineEnd c = false

theorem IsMessage.parse_eq (h : IsMessage t) : parse t = .ok (.tell (.send t)) := by
  have notBlank : Text.allBlank t.toList = false := by
    simpa [Text.allBlank] using h.notBlank
  unfold parse
  rw [Text.dropEndWhile_eq_self_iff.2 h.noLineEnd]
  split
  · next cs hcs => exact absurd (by rw [hcs]; rfl) h.noSlash
  · rw [notBlank, String.ofList_toList]
    rfl

theorem isMessage_ofList (notBlank : Text.allBlank cs = false) (noSlash : ∀ rest, cs ≠ '/' :: rest)
    (noLineEnd : ∀ c ∈ cs.getLast?, isLineEnd c = false) : IsMessage (.ofList cs) := by
  constructor <;> rw [String.toList_ofList]
  · simpa [Text.allBlank] using notBlank
  · intro slash
    obtain ⟨rest, rfl⟩ := List.head?_eq_some_iff.1 slash
    exact noSlash rest rfl
  · exact noLineEnd

/-- No command sends a message. -/
theorem readCommand_ne_send (cs : List Char) (t : String) :
    readCommand cs ≠ .ok (.tell (.send t)) := by
  intro h
  unfold readCommand at h
  dsimp only at h
  split at h
  -- Rooms, availabilities and users may fail to be read; the other commands have nothing to read.
  case h_3 | h_7 | h_9 =>
    obtain ⟨_, -, hsend⟩ := bind_eq_ok.1 h
    cases hsend
  all_goals cases h

theorem parse_eq_send_iff : parse line = .ok (.tell (.send t)) ↔
    IsMessage t ∧ ∃ ends, LineEnds ends ∧ line = t ++ ends := by
  constructor
  · intro h
    obtain ⟨noLineEnd, tail, hline, cut⟩ := Text.eq_dropEndWhile_iff.1
      (rfl : Text.dropEndWhile isLineEnd line.toList = _)
    unfold parse at h
    generalize Text.dropEndWhile isLineEnd line.toList = cs at h noLineEnd hline
    split at h
    · next rest => exact absurd h (readCommand_ne_send rest t)
    · next noSlash =>
      split at h
      · cases h
      · next notBlank =>
        cases h
        refine ⟨isMessage_ofList (Bool.not_eq_true _ ▸ notBlank) noSlash noLineEnd,
          .ofList tail, ?_, ?_⟩
        · rwa [LineEnds, String.toList_ofList]
        · rw [← String.ofList_append, ← hline, String.ofList_toList]
  · rintro ⟨message, ends, hends, rfl⟩
    rw [parse_append t hends, message.parse_eq]

/-! ## Commands -/

/-- What stands behind the name is taken without the white space around it, line ends included. -/
theorem parse_spaced (take : List Char → Except CommandError Command)
    (h : line.toList = '/' :: (name ++ ' ' :: args))
    (takes : ∀ args, readCommand (name ++ ' ' :: args) = take (Text.trim args)) :
    parse line = take (Text.trim args) := by
  have stays : isLineEnd ' ' = false := by decide
  rw [parse, h, ← List.cons_append, Text.dropEndWhile_append_cons _ _ stays,
    ← Text.trim_dropEndWhile isBlank_of_isLineEnd args]
  exact takes _

theorem parse_room (h : line.toList = '/' :: ("room".toList ++ ' ' :: args)) :
    parse line = (do .ok (.tell (.enterRoom (← readRoom (Text.trim args))))) :=
  parse_spaced (fun args => do .ok (.tell (.enterRoom (← readRoom args)))) h fun _ => rfl

theorem parse_note (h : line.toList = '/' :: ("note".toList ++ ' ' :: args)) :
    parse line = .ok (.tell (.setNote
      (if (Text.trim args).isEmpty then none else some (.ofList (Text.trim args))) none)) :=
  parse_spaced
    (fun args => .ok (.tell (.setNote (if args.isEmpty then none else some (.ofList args)) none)))
    h fun _ => rfl

theorem parse_watch (h : line.toList = '/' :: ("watch".toList ++ ' ' :: args)) :
    parse line = (do .ok (.tell (.watch (← readUsers (Text.trim args))))) :=
  parse_spaced (fun args => do .ok (.tell (.watch (← readUsers args)))) h fun _ => rfl

/-! ## Numbers in the arguments -/

theorem words_numbers (ns : List UInt64) :
    Text.words (Text.trim (" ".intercalate (ns.map toString)).toList) =
      ns.map fun n => Text.digits n.toNat := by
  have hlist : (" ".intercalate (ns.map toString)).toList =
      [' '].intercalate (ns.map fun n => Text.digits n.toNat) := by
    rw [String.toList_intercalate, List.map_map]
    exact congrArg _ (List.map_congr_left fun n _ => Text.toList_toString n)
  rw [Text.words_trim, hlist]
  refine Text.words_intercalate ?_ ?_ <;> rw [List.forall_mem_map]
  · exact fun n _ => Text.digits_ne_nil n.toNat
  · exact fun n _ => Text.solid_digits n.toNat

theorem readNumber_digits (what : String) (n : UInt64) :
    readNumber what (Text.digits n.toNat) = .ok n := by
  rw [readNumber, Text.readWord_digits]

theorem readRoom_of_words {r : Room}
    (h : Text.words args = [r.workspace, r.number].map fun n => Text.digits n.toNat) :
    readRoom args = .ok r := by
  rw [readRoom, h]
  simp only [List.map_cons, readNumber_digits]
  rfl

theorem readUsers_of_words {users : List UserId} (nonempty : users ≠ [])
    (h : Text.words args = users.map fun user => Text.digits user.toNat) :
    readUsers args = .ok users := by
  have hread : (readNumber "user" ∘ fun user : UserId => Text.digits user.toNat) = pure :=
    funext (readNumber_digits "user")
  have hmap : (Text.words args).mapM (readNumber "user") = .ok users := by
    rw [h, List.mapM_map, hread]
    exact List.mapM_pure.trans (congrArg _ users.map_id)
  rw [readUsers, hmap]
  cases users with
  | nil => exact absurd rfl nonempty
  | cons user users => rfl

/-! ## Lines as they are written -/

/-- How a line is written that asks for something. -/
inductive Written : String → Command → Prop
  | message (t : String) : IsMessage t → Written t (.tell (.send t))
  | room (r : Room) :
      Written ("/room " ++ toString r.workspace ++ " " ++ toString r.number) (.tell (.enterRoom r))
  | leave : Written "/leave" (.tell .leaveRoom)
  | older : Written "/older" (.tell .loadOlder)
  | reload : Written "/reload" (.tell .reloadHistory)
  | availability (a : Availability) : Written ("/status " ++ a.name) (.tell (.setAvailability a))
  | note (t : String) : t ≠ "" → Text.trim t.toList = t.toList →
      Written ("/note " ++ t) (.tell (.setNote (some t) none))
  | noNote : Written "/note" (.tell (.setNote none none))
  | watch (users : List UserId) : users ≠ [] →
      Written ("/watch " ++ " ".intercalate (users.map toString)) (.tell (.watch users))
  | quit : Written "/quit" .quit
  | exit : Written "/exit" .quit

theorem Written.parse_eq (h : Written line c) : parse line = .ok c := by
  cases h with
  | message t message => exact message.parse_eq
  | room r =>
      have hline : ("/room " ++ toString r.workspace ++ " " ++ toString r.number).toList =
          '/' :: ("room".toList ++
            ' ' :: (" ".intercalate ([r.workspace, r.number].map toString)).toList) := by
        simp
      rw [parse_room hline, readRoom_of_words (words_numbers [r.workspace, r.number])]
      rfl
  | leave | older | reload | noNote | quit | exit => rfl
  | availability a => cases a <;> rfl
  | note t nonempty trimmed =>
      have hline : ("/note " ++ t).toList = '/' :: ("note".toList ++ ' ' :: t.toList) := by
        simp
      rw [parse_note hline, trimmed, String.ofList_toList, if_neg (by simpa using nonempty)]
  | watch users nonempty =>
      have hline : ("/watch " ++ " ".intercalate (users.map toString)).toList =
          '/' :: ("watch".toList ++ ' ' :: (" ".intercalate (users.map toString)).toList) := by
        simp
      rw [parse_watch hline, readUsers_of_words nonempty (words_numbers users)]
      rfl

/-- Whatever is written is read back: rooms and lists of users of any numbers, notes of any text
that is its own trim, and any text that is a message. A line sends a message exactly if the line is
that message with line ends behind it, a message being a text that is not blank, has no slash in
front and no line end at its end. Only a line with a slash in front can be in error, and line ends
behind a line make no difference. -/
theorem lines_read_back :
    (∀ line c, Written line c → parse line = .ok c) ∧
      (∀ line t, parse line = .ok (.tell (.send t)) ↔
        IsMessage t ∧ ∃ ends, LineEnds ends ∧ line = t ++ ends) ∧
      (∀ line e, parse line = .error e → line.toList.head? = some '/') ∧
      ∀ line ends, LineEnds ends → parse (line ++ ends) = parse line :=
  ⟨fun _ _ => Written.parse_eq, fun _ _ => parse_eq_send_iff, fun _ _ => parse_error,
    fun line _ => parse_append line⟩

/-- The largest number, a user named twice, a note with spaces in it, and a message with a slash
further in. -/
theorem typed_lines_read_back :
    parse "/room 18446744073709551615 0" = .ok (.tell (.enterRoom ⟨18446744073709551615, 0⟩)) ∧
      parse "/watch 4 9 4" = .ok (.tell (.watch [4, 9, 4])) ∧
      LineEnds "\r\n" ∧
      parse "/note out for lunch\r\n" = .ok (.tell (.setNote (some "out for lunch") none)) ∧
      IsMessage " 1/2" ∧ parse " 1/2\r\n" = .ok (.tell (.send " 1/2")) ∧
      parse "/watch 4 bob" = .error (.invalid "user" "bob") ∧
      "/watch 4 bob".toList.head? = some '/' := by
  obtain ⟨written, sent, refused, same⟩ := lines_read_back
  have room : "/room 18446744073709551615 0" =
      "/room " ++ toString (18446744073709551615 : UInt64) ++ " " ++ toString (0 : UInt64) := by
    decide +kernel
  have ends : LineEnds "\r\n" := by simp [LineEnds, isLineEnd]
  have message : IsMessage " 1/2" :=
    ⟨⟨'/', by simp, by decide⟩, by simp, by simp [isLineEnd]⟩
  have bob : parse "/watch 4 bob" = .error (.invalid "user" "bob") := rfl
  refine ⟨?_, written _ _ (.watch [4, 9, 4] (by decide)), ends, ?_, message,
    (sent _ _).2 ⟨message, "\r\n", ends, rfl⟩, bob, refused _ _ bob⟩
  · have read := written _ _ (.room ⟨18446744073709551615, 0⟩)
    exact (congrArg parse room).trans read
  · exact (same "/note out for lunch" "\r\n" ends).trans
      (written _ _ (.note "out for lunch" (by decide) rfl))

end LiveChat.Console.Command
