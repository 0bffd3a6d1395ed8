import LiveChat.Console.Session
import LiveChat.Proofs.Chat.Edits
import LiveChat.Proofs.History
import LiveChat.Proofs.Table

/-!
# What the screen prints

The screen keeps the numbers it has shown and the names of those who were typing. That is all that
counts of the updates before: each message is printed when it is first seen confirmed, wherever it
stands in the timelines to come, and who is typing is printed when it has changed.
-/

namespace LiveChat.Console

namespace Update

def timeline? : Update → Option Timeline
  | .timeline t => some t
  | _ => none

def typing? : Update → Option (List String)
  | .typing nicknames => some nicknames
  | _ => none

/-- The update without the messages that are still pending. -/
def settled : Update → Update
  | .timeline t => .timeline t.confirmed
  | u => u

/-- The confirmed messages that updates bring, one update after the other. -/
def confirmed (us : List Update) : List Entry := (us.filterMap timeline?).flatMap Timeline.confirmed

/-- Who was typing by the last update that told it. -/
def lastTyping (us : List Update) : List String := (us.filterMap typing?).getLast?.getD []

theorem confirmed_snoc (us : List Update) (u : Update) :
    confirmed (us ++ [u]) = confirmed us ++ (u.timeline?.getD []).confirmed := by
  rw [confirmed, List.filterMap_append, List.flatMap_append]
  refine congrArg _ ?_
  cases u with
  | timeline t => exact List.append_nil _
  | _ => rfl

theorem lastTyping_snoc (us : List Update) (u : Update) :
    lastTyping (us ++ [u]) = u.typing?.getD (lastTyping us) := by
  rw [lastTyping, List.filterMap_append]
  cases u with
  | typing nicknames => exact congrArg (Option.getD · []) List.getLast?_concat
  | _ => exact congrArg (fun told => (List.getLast? told).getD []) (List.append_nil _)

end Update

namespace Screen

variable {s : Screen} {past us : List Update} {shown : Table MessageId Unit} {seen : List Entry}
  {e : Entry}

/-! ## Messages of one timeline -/

theorem showMessages_pending (pending : e.isPending = true) (t : Timeline) :
    showMessages shown (e :: t) = showMessages shown t := by
  simp [showMessages, pending]

theorem showMessages_known (known : shown.contains e.id = true) (t : Timeline) :
    showMessages shown (e :: t) = showMessages shown t := by
  simp [showMessages, known]

theorem showMessages_new (settled : e.isPending = false) (new : shown.contains e.id = false)
    (t : Timeline) : showMessages shown (e :: t) =
      ((showMessages (shown.insert e.id ()) t).1,
        messageLine e :: (showMessages (shown.insert e.id ()) t).2) := by
  simp [showMessages, settled, new]

/-- The numbers of the messages that were seen confirmed have been shown, and no others. -/
def Holds (shown : Table MessageId Unit) (seen : List Entry) : Prop :=
  ∀ id, shown.contains id = true ↔ id ∈ seen.map Entry.id

theorem Holds.known (holds : Holds shown seen) (known : shown.contains e.id = true) :
    Holds shown (seen ++ [e]) := by
  intro id
  rw [holds id, List.map_append, List.mem_append, or_iff_left_of_imp]
  intro hid
  rw [List.mem_singleton.1 hid]
  exact (holds e.id).1 known

theorem Holds.insert (holds : Holds shown seen) (e : Entry) :
    Holds (shown.insert e.id ()) (seen ++ [e]) := by
  intro id
  rw [Table.contains_iff, Table.mem_keys_insert, ← Table.contains_iff, holds id, List.map_append,
    List.mem_append, or_comm, List.map_singleton, List.mem_singleton]

/-- After a timeline its confirmed messages are seen too, and the lines printed for it are those
that were missing. -/
theorem Holds.showMessages (holds : Holds shown seen) (t : Timeline) :
    Holds (showMessages shown t).1 (seen ++ t.confirmed) ∧
      (firsts Entry.id seen).map messageLine ++ (Screen.showMessages shown t).2 =
        (firsts Entry.id (seen ++ t.confirmed)).map messageLine := by
  -- Each entry that is confirmed moves over to those seen, whether it is printed or not.
  induction t generalizing shown seen with
  | nil => simpa [Screen.showMessages, Timeline.confirmed] using holds
  | cons e t ih =>
      rw [Timeline.confirmed_cons]
      cases pending : e.isPending with
      | true =>
          rw [showMessages_pending pending, if_pos rfl]
          exact ih holds
      | false =>
          rw [if_neg Bool.false_ne_true, List.append_cons]
          cases known : shown.contains e.id with
          | true =>
              have hfirsts : firsts Entry.id (seen ++ [e]) = firsts Entry.id seen := by
                rw [firsts_snoc, if_pos ((holds e.id).1 known), List.append_nil]
              rw [showMessages_known known, ← hfirsts]
              exact ih (holds.known known)
          | false =>
              have hfirsts : firsts Entry.id (seen ++ [e]) = firsts Entry.id seen ++ [e] := by
                rw [firsts_snoc, if_neg (by rw [← holds e.id, known]; exact Bool.false_ne_true)]
              obtain ⟨hholds, hlines⟩ := ih (holds.insert e)
              rw [showMessages_new pending known]
              refine ⟨hholds, ?_⟩
              rw [← hlines, hfirsts, List.map_append, List.append_assoc]
              rfl

theorem showMessages_confirmed (shown : Table MessageId Unit) (t : Timeline) :
    showMessages shown t.confirmed = showMessages shown t := by
  induction t generalizing shown with
  | nil => rfl
  | cons e t ih =>
      rw [Timeline.confirmed_cons]
      cases pending : e.isPending with
      | true => rw [if_pos rfl, ih, showMessages_pending pending]
      | false =>
          rw [if_neg Bool.false_ne_true]
          cases known : shown.contains e.id with
          | true => rw [showMessages_known known, showMessages_known known, ih]
          | false => rw [showMessages_new pending known, showMessages_new pending known, ih]

/-! ## Updates one after the other -/

/-- What the screen knows of the updates so far. -/
structure Keeps (past : List Update) (s : Screen) : Prop where
  holds : Holds s.shown (Update.confirmed past)
  typing_eq : s.typing = Update.lastTyping past

theorem keeps_blank : Keeps [] blank := ⟨fun _ => ⟨nofun, nofun⟩, rfl⟩

theorem Keeps.render (keeps : Keeps past s) (u : Update) : Keeps (past ++ [u]) (s.render u).1 := by
  constructor
  · rw [Update.confirmed_snoc]
    cases u with
    | timeline t => exact (keeps.holds.showMessages t).1
    | _ => simpa [Update.timeline?, Timeline.confirmed, Screen.render] using keeps.holds
  · rw [Update.lastTyping_snoc]
    cases u with
    | typing nicknames => rfl
    | _ => exact keeps.typing_eq

/-- What a timeline prints is what first came with it. -/
theorem Keeps.render_timeline (keeps : Keeps past s) (t : Timeline) :
    (firsts Entry.id (Update.confirmed past)).map messageLine ++ (s.render (.timeline t)).2 =
      (firsts Entry.id (Update.confirmed (past ++ [.timeline t]))).map messageLine := by
  rw [Update.confirmed_snoc]
  exact (keeps.holds.showMessages t).2

theorem Keeps.render_typing (keeps : Keeps past s) (nicknames : List String) :
    (s.render (.typing nicknames)).2 =
      if nicknames ≠ [] ∧ nicknames ≠ Update.lastTyping past then
        ["... " ++ ", ".intercalate nicknames ++ " typing"] else [] := by
  rw [Screen.render, keeps.typing_eq]
  by_cases same : nicknames = Update.lastTyping past <;> by_cases none : nicknames = [] <;>
    simp [same, none]

theorem Keeps.renderAll (keeps : Keeps past s) (us : List Update) :
    Keeps (past ++ us) (Session.renderAll s us).1 := by
  induction us generalizing past s with
  | nil => rwa [List.append_nil]
  | cons u us ih =>
      rw [List.append_cons]
      exact ih (keeps.render u)

/-- The lines printed for each of a row of updates. -/
def printed (s : Screen) : List Update → List (Update × List String)
  | [] => []
  | u :: us => (u, (s.render u).2) :: printed (s.render u).1 us

/-- The lines printed for the timelines among the updates. -/
def messageLines (s : Screen) (us : List Update) : List String :=
  ((s.printed us).filter fun told => told.1.timeline?.isSome).flatMap Prod.snd

theorem renderAll_eq_printed (s : Screen) (us : List Update) :
    (Session.renderAll s us).2 = (s.printed us).flatMap Prod.snd := by
  induction us generalizing s with
  | nil => rfl
  | cons u us ih => exact congrArg _ (ih _)

theorem messageLines_cons (s : Screen) (u : Update) (us : List Update) : s.messageLines (u :: us) =
    (if u.timeline?.isSome then (s.render u).2 else []) ++ (s.render u).1.messageLines us := by
  rw [messageLines, printed, List.filter_cons]
  split
  · exact List.flatMap_cons
  · rfl

theorem Keeps.messageLines (keeps : Keeps past s) (us : List Update) :
    (firsts Entry.id (Update.confirmed past)).map messageLine ++ s.messageLines us =
      (firsts Entry.id (Update.confirmed (past ++ us))).map messageLine := by
  induction us generalizing past s with
  | nil =>
      rw [List.append_nil]
      exact List.append_nil _
  | cons u us ih =>
      rw [List.append_cons, ← ih (keeps.render u), messageLines_cons, ← List.append_assoc]
      refine congrArg (· ++ _) ?_
      cases u with
      | timeline t => exact keeps.render_timeline t
      | _ =>
          rw [Update.confirmed_snoc]
          simp [Update.timeline?, Timeline.confirmed]

theorem render_settled (s : Screen) (u : Update) : s.render u.settled = s.render u := by
  cases u with
  | timeline t => simp only [Update.settled, Screen.render, showMessages_confirmed]
  | _ => rfl

theorem renderAll_settled (s : Screen) (us : List Update) :
    Session.renderAll s (us.map Update.settled) = Session.renderAll s us := by
  induction us generalizing s with
  | nil => rfl
  | cons u us ih => simp only [List.map_cons, Session.renderAll, render_settled, ih]

/-- Whatever updates come to a blank screen, the lines printed for timelines are those of the
confirmed messages that all of them bring, each number where it comes first. Messages still pending
make no difference to what is printed. A line on who is typing is printed exactly if somebody is and
the names are not those of the update on typing before it, or none at first. -/
theorem messages_once_and_typing_on_change (us : List Update) :
    (Session.renderAll blank us).2 = (blank.printed us).flatMap Prod.snd ∧
      blank.messageLines us = (firsts Entry.id (Update.confirmed us)).map messageLine ∧
      Session.renderAll blank (us.map Update.settled) = Session.renderAll blank us ∧
      ∀ nicknames, ((Session.renderAll blank us).1.render (.typing nicknames)).2 =
        if nicknames ≠ [] ∧ nicknames ≠ Update.lastTyping us then
          ["... " ++ ", ".intercalate nicknames ++ " typing"] else [] :=
  ⟨renderAll_eq_printed blank us, keeps_blank.messageLines us, renderAll_settled blank us,
    (keeps_blank.renderAll us).render_typing⟩

/-- A message is printed once it is confirmed, and not again under its number. -/
example :
    let entry (id : UInt64) (body : String) (origin : Origin) : Entry :=
      ⟨id, 1, some 2, body, .text, 0, none, origin⟩
    (Session.renderAll blank [.timeline [entry 7 "hi" .confirmed, entry 9 "ho" (.pending 9)],
      .typing ["bo"], .timeline [entry 9 "ho" .confirmed, entry 7 "hm" .confirmed],
      .typing ["bo"], .typing []]).2 = ["[user2] hi", "... bo typing", "[user2] ho"] := by
  decide

end Screen

end LiveChat.Console
