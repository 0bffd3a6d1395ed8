import LiveChat.Text.Blank
import LiveChat.Text.Decimal
import Mathlib.Data.List.DropRight

/-!
# Text that is cut and put together

Cutting characters off the end leaves the one beginning that ends in none of them. The words of a
text do not depend on the white space around it, and they are read back from a text that has a space
between each two of them. Digits are read back up to a separator behind them.
-/

namespace LiveChat.Text

variable {p : Char → Bool} {cs s head tail w : List Char} {ws : List (List Char)} {c d sep : Char}

/-! ## Ends that are cut off -/

theorem dropEndWhile_eq (p : Char → Bool) (cs : List Char) :
    dropEndWhile p cs = cs.rdropWhile p := rfl

theorem dropEndWhile_append (s : List Char) (cut : ∀ c ∈ tail, p c = true) :
    dropEndWhile p (s ++ tail) = dropEndWhile p s := by
  induction tail using List.reverseRecOn with
  | nil => rw [List.append_nil]
  | append_singleton tail c ih =>
      obtain ⟨earlier, last⟩ := List.forall_mem_append.1 cut
      have hlast : p c = true := last c List.mem_cons_self
      rw [← List.append_assoc, dropEndWhile_eq, List.rdropWhile_concat_pos p _ c hlast]
      exact ih earlier

/-- Nothing is cut beyond a character that stays. -/
theorem dropEndWhile_append_cons (s cs : List Char) (stays : p sep = false) :
    dropEndWhile p (s ++ sep :: cs) = s ++ sep :: dropEndWhile p cs := by
  induction cs using List.reverseRecOn with
  | nil => exact List.rdropWhile_concat_neg p s sep (by simp [stays])
  | append_singleton cs c ih =>
      rw [← List.cons_append, ← List.append_assoc]
      simp only [dropEndWhile_eq, List.rdropWhile_concat] at ih ⊢
      split
      · exact ih
      · simp

theorem dropEndWhile_eq_self_iff : dropEndWhile p cs = cs ↔ ∀ c ∈ cs.getLast?, p c = false := by
  rw [dropEndWhile_eq, List.rdropWhile_eq_self_iff]
  cases cs with
  | nil => simp
  | cons c cs => simp [List.getLast?_eq_some_getLast]

/-- What is left is the one beginning that does not end in such a character and has only such
characters behind it. -/
theorem eq_dropEndWhile_iff : s = dropEndWhile p cs ↔
    (∀ c ∈ s.getLast?, p c = false) ∧ ∃ tail, cs = s ++ tail ∧ ∀ c ∈ tail, p c = true := by
  constructor
  · rintro rfl
    refine ⟨dropEndWhile_eq_self_iff.1 (List.rdropWhile_idempotent p cs), cs.rtakeWhile p, ?_,
      fun c hc => List.mem_rtakeWhile_imp hc⟩
    rw [dropEndWhile_eq, List.rdropWhile_append_rtakeWhile]
  · rintro ⟨stop, tail, rfl, cut⟩
    rw [dropEndWhile_append s cut, dropEndWhile_eq_self_iff.2 stop]

theorem trim_append (s : List Char) (blank : ∀ c ∈ tail, isBlank c = true) :
    trim (s ++ tail) = trim s := by
  unfold trim
  rw [List.dropWhile_append]
  split
  · next hs =>
    rw [List.isEmpty_iff.1 hs, List.dropWhile_eq_nil_iff.2 blank]
  · exact dropEndWhile_append _ blank

theorem trim_dropEndWhile (blank : ∀ c, p c = true → isBlank c = true) (cs : List Char) :
    trim (dropEndWhile p cs) = trim cs := by
  obtain ⟨-, tail, hcs, cut⟩ := eq_dropEndWhile_iff.1 (rfl : dropEndWhile p cs = _)
  conv_rhs => rw [hcs]
  exact (trim_append _ fun c hc => blank c (cut c hc)).symm

/-! ## Words -/

theorem words_cons_blank (blank : isBlank c = true) (cs : List Char) :
    words (c :: cs) = words cs := by
  rw [words.eq_def]
  exact if_pos blank

theorem words_cons_apart (solid : isBlank c = false) (apart : ∀ d ∈ cs.head?, isBlank d = true) :
    words (c :: cs) = [c] :: words cs := by
  rw [words.eq_def]
  cases cs with
  | nil => exact if_neg (Bool.eq_false_iff.1 solid)
  | cons d cs => simp only [solid, apart d rfl, Bool.false_eq_true, if_false, if_true]

theorem words_cons_solid (hc : isBlank c = false) (hd : isBlank d = false)
    (hw : words (d :: cs) = w :: ws) : words (c :: d :: cs) = (c :: w) :: ws := by
  rw [words.eq_def]
  simp only [hc, hd, hw, Bool.false_eq_true, if_false]

theorem words_ne_nil (solid : isBlank c = false) (cs : List Char) : words (c :: cs) ≠ [] := by
  rw [words.eq_def]
  simp only [solid, Bool.false_eq_true, if_false]
  repeat' split
  all_goals exact List.cons_ne_nil _ _

theorem words_blank_append (blank : ∀ c ∈ head, isBlank c = true) (cs : List Char) :
    words (head ++ cs) = words cs := by
  induction head with
  | nil => rfl
  | cons c head ih =>
      obtain ⟨hc, hhead⟩ := List.forall_mem_cons.1 blank
      rw [List.cons_append, words_cons_blank hc, ih hhead]

/-- A run of characters that are not white space is one word, if none follows it at once. -/
theorem words_append (some : w ≠ []) (solid : ∀ c ∈ w, isBlank c = false)
    (apart : ∀ c ∈ cs.head?, isBlank c = true) : words (w ++ cs) = w :: words cs := by
  induction w with
  | nil => exact absurd rfl some
  | cons c w ih =>
      obtain ⟨hc, hw⟩ := List.forall_mem_cons.1 solid
      cases w with
      | nil => exact words_cons_apart hc apart
      | cons d w =>
          have hrest := ih (List.cons_ne_nil d w) hw
          exact words_cons_solid hc (hw d List.mem_cons_self) hrest

theorem words_word (some : w ≠ []) (solid : ∀ c ∈ w, isBlank c = false) : words w = [w] := by
  have hword : words (w ++ []) = w :: words [] := words_append some solid (by simp)
  rw [List.append_nil] at hword
  exact hword

theorem words_append_blank (s : List Char) (blank : ∀ c ∈ tail, isBlank c = true) :
    words (s ++ tail) = words s := by
  have none : words tail = [] := by
    rw [← List.append_nil tail]
    exact words_blank_append blank []
  -- Whether a character goes in front of the next word depends on its neighbour.
  induction s with
  | nil => exact none
  | cons c s ih =>
      rw [List.cons_append]
      cases hc : isBlank c with
      | true => rw [words_cons_blank hc, words_cons_blank hc, ih]
      | false =>
          cases s with
          | nil =>
              have apart : ∀ d ∈ tail.head?, isBlank d = true :=
                fun d hd => blank d (List.mem_of_mem_head? hd)
              rw [List.nil_append, words_cons_apart hc apart, none]
              exact (words_word (List.cons_ne_nil c []) (by simpa using hc)).symm
          | cons d s =>
              cases hd : isBlank d with
              | true =>
                  have left : words (c :: (d :: s ++ tail)) = [c] :: words (d :: s ++ tail) :=
                    words_cons_apart hc (by simpa using hd)
                  have right : words (c :: d :: s) = [c] :: words (d :: s) :=
                    words_cons_apart hc (by simpa using hd)
                  rw [left, right, ih]
              | false =>
                  obtain ⟨w, ws, hw⟩ := List.exists_cons_of_ne_nil (words_ne_nil hd s)
                  rw [words_cons_solid hc hd hw]
                  exact words_cons_solid hc hd (ih.trans hw)

theorem words_trim (cs : List Char) : words (trim cs) = words cs := by
  obtain ⟨-, tail, hcs, blank⟩ :=
    eq_dropEndWhile_iff.1 (rfl : trim cs = dropEndWhile isBlank (cs.dropWhile isBlank))
  calc words (trim cs)
    _ = words (cs.dropWhile isBlank) := by rw [hcs, words_append_blank _ blank]
    _ = words (cs.takeWhile isBlank ++ cs.dropWhile isBlank) :=
        (words_blank_append (fun c hc => List.mem_takeWhile_imp hc) _).symm
    _ = words cs := by rw [List.takeWhile_append_dropWhile]

/-- Words are read back from a text with a space between each two of them. -/
theorem words_intercalate (some : ∀ w ∈ ws, w ≠ [])
    (solid : ∀ w ∈ ws, ∀ c ∈ w, isBlank c = false) : words ([' '].intercalate ws) = ws := by
  induction ws with
  | nil => rfl
  | cons w ws ih =>
      obtain ⟨hw, hws⟩ := List.forall_mem_cons.1 some
      obtain ⟨solidw, solidws⟩ := List.forall_mem_cons.1 solid
      cases ws with
      | nil => rw [List.intercalate_singleton, words_word hw solidw]
      | cons v ws =>
          have space : isBlank ' ' = true := by decide
          rw [List.intercalate_cons_cons, List.append_assoc, List.singleton_append,
            words_append hw solidw (by simp [space]), words_cons_blank space, ih hws solidws]

/-! ## Numbers -/

theorem isBlank_of_isDigit (h : c.isDigit = true) : isBlank c = false := by
  simp only [Char.isDigit, Bool.and_eq_true, decide_eq_true_eq, UInt32.le_iff_toNat_le] at h
  have lo : 48 ≤ c.toNat := h.1
  have hi : c.toNat ≤ 57 := h.2
  simp [isBlank]
  omega

theorem solid_digits (n : Nat) : ∀ c ∈ digits n, isBlank c = false :=
  fun _ hc => isBlank_of_isDigit (isDigit_of_mem_digits hc)

theorem toList_toString (w : UInt64) : (toString w).toList = digits w.toNat :=
  String.toList_ofList

theorem notMem_digits (n : Nat) (h : sep.isDigit = false) : sep ∉ digits n := fun hmem => by
  simp [isDigit_of_mem_digits hmem] at h

theorem splitOnce_digits (n : Nat) (h : sep.isDigit = false) (rest : List Char) :
    splitOnce sep (digits n ++ sep :: rest) = some (digits n, rest) :=
  splitOnce_append rest (notMem_digits n h)

/-- Digits with a separator behind them tell what the number was and what follows. -/
theorem digits_append_inj {m n : Nat} (h : sep.isDigit = false)
    (heq : digits m ++ sep :: s = digits n ++ sep :: tail) : m = n ∧ s = tail := by
  have hsplit := splitOnce_digits m h s
  rw [heq, splitOnce_digits n h, Option.some.injEq, Prod.mk.injEq] at hsplit
  exact ⟨digits_injective hsplit.1.symm, hsplit.2.symm⟩

end LiveChat.Text
