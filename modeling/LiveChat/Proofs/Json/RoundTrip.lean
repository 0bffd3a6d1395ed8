import LiveChat.Json.Parser

/-!
# Reading back what is printed

Each reader gives back what was printed and leaves what follows. Numbers need care on the right:
they end where something follows that cannot belong to a number.
-/

namespace LiveChat.Json

/-! ## Strings -/

namespace Glyph

/-- A plain character that would have had to be escaped is not read back. -/
def Printable : Glyph → Prop
  | .plain c => c ≠ '"' ∧ c ≠ '\\' ∧ 0x20 ≤ c.toNat
  | _ => True

theorem printable_ofChar (c : Char) : (ofChar c).Printable := by
  unfold ofChar
  by_cases hquote : c = '"'
  · rw [if_pos hquote]
    trivial
  by_cases hbackslash : c = '\\'
  · rw [if_neg hquote, if_pos hbackslash]
    trivial
  rw [if_neg hquote, if_neg hbackslash]
  repeat' split
  all_goals try trivial
  next hcontrol => exact ⟨hquote, hbackslash, Nat.le_of_not_lt hcontrol⟩

theorem printable_encode (cs : List Char) : ∀ g ∈ encode cs, g.Printable := by
  intro g hg
  obtain ⟨c, -, rfl⟩ := List.mem_map.1 hg
  exact printable_ofChar c

theorem hexValue?_digitChar : ∀ d < 16, hexValue? (Nat.digitChar d) = some d := by decide

theorem hexUnit?_digits (u : UInt16) :
    hexUnit? (Nat.digitChar (u.toNat / 4096)) (Nat.digitChar (u.toNat / 256 % 16))
      (Nat.digitChar (u.toNat / 16 % 16)) (Nat.digitChar (u.toNat % 16)) = some u := by
  have hlt := u.toNat_lt
  have hsum : u.toNat / 4096 * 4096 + u.toNat / 256 % 16 * 256 + u.toNat / 16 % 16 * 16 +
      u.toNat % 16 = u.toNat := by omega
  have h₁ := hexValue?_digitChar (u.toNat / 4096) (by omega)
  have h₂ := hexValue?_digitChar (u.toNat / 256 % 16) (by omega)
  have h₃ := hexValue?_digitChar (u.toNat / 16 % 16) (by omega)
  have h₄ := hexValue?_digitChar (u.toNat % 16) (by omega)
  simp only [hexUnit?, h₁, h₂, h₃, h₄, Option.bind_eq_bind, Option.bind_some, hsum,
    UInt16.ofNat_toNat]

theorem read_plain {c : Char} (printable : (plain c).Printable) (cs : List Char) :
    read (c :: cs) = (read cs).map fun (gs, rest) => (plain c :: gs, rest) := by
  obtain ⟨hquote, hbackslash, hcontrol⟩ := printable
  have hkept : ¬ c.toNat < 0x20 := Nat.not_lt.2 hcontrol
  rw [read]
  · rw [if_neg (by simp [hkept, hbackslash])]
    cases read cs <;> rfl
  · exact hquote
  · exact fun _ _ _ _ _ h _ => hbackslash h
  · exact fun _ _ h _ => hbackslash h

theorem read_escape (e : Escape) (cs : List Char) :
    read ('\\' :: e.letter :: cs) = (read cs).map fun (gs, rest) => (escape e :: gs, rest) := by
  rw [read]
  · rw [Escape.ofLetter?_letter]
    cases read cs <;> rfl
  · intro _ _ _ _ _ h
    cases e <;> exact absurd h (by decide)

theorem read_unit (u : UInt16) (cs : List Char) :
    read ((unit u).print ++ cs) = (read cs).map fun (gs, rest) => (unit u :: gs, rest) := by
  simp only [print, hexDigits, List.cons_append, List.nil_append, read, hexUnit?_digits]
  cases read cs <;> rfl

theorem read_print {g : Glyph} (printable : g.Printable) (cs : List Char) :
    read (g.print ++ cs) = (read cs).map fun (gs, rest) => (g :: gs, rest) := by
  cases g with
  | plain c => exact read_plain printable cs
  | escape e => exact read_escape e cs
  | unit u => exact read_unit u cs

theorem read_printAll {gs : List Glyph} (printable : ∀ g ∈ gs, g.Printable) (rest : List Char) :
    read (gs.flatMap print ++ '"' :: rest) = some (gs, rest) := by
  induction gs with
  | nil => simp [read]
  | cons g gs ih =>
      have hrest := ih fun g hg => printable g (List.mem_cons_of_mem _ hg)
      rw [List.flatMap_cons, List.append_assoc, read_print (printable g List.mem_cons_self), hrest]
      rfl

end Glyph

/-! ## Numbers -/

theorem digitChar_ne_zero : ∀ d < 10, 0 < d → Nat.digitChar d ≠ '0' := by decide

/-- A positive number is written without leading zeros. -/
theorem digits_head_ne_zero {n : Nat} (positive : 0 < n) :
    (Text.digits n).head? ≠ some '0' := by
  induction n using Nat.strongRecOn with
  | ind n ih =>
      unfold Text.digits at ih ⊢
      by_cases hsmall : n < 10
      · rw [Nat.toDigits_of_lt_base hsmall]
        intro h
        exact digitChar_ne_zero n hsmall positive (Option.some.inj h)
      · have hquotient : 0 < n / 10 := by omega
        have hhead := ih (n / 10) (by omega) hquotient
        rw [Nat.toDigits_of_base_le (by omega) (by omega)]
        cases hds : Nat.toDigits 10 (n / 10) with
        | nil => exact absurd hds Nat.toDigits_ne_nil
        | cons d ds =>
            rw [hds] at hhead
            exact hhead

theorem digits_canonical (n : Nat) :
    ¬ ((Text.digits n).head? = some '0' ∧ (Text.digits n).length ≠ 1) := by
  rintro ⟨hhead, hlength⟩
  cases n with
  | zero => exact hlength rfl
  | succ n => exact digits_head_ne_zero (Nat.succ_pos n) hhead

namespace Numeral

/-- Whether a number ends in front of this text. -/
def Ends (rest : List Char) : Prop :=
  ∀ c cs, rest = c :: cs → c.isDigit = false ∧ c ≠ '.' ∧ c ≠ 'e' ∧ c ≠ 'E'

/-- A whole number without leading zeros, with a sign or not. -/
def Printable (n : Numeral) : Prop :=
  (∃ k, n.whole = Text.digits k) ∧ n.fraction = [] ∧ n.exponent = none

theorem readDigits_append {ds rest : List Char} (digits : ∀ c ∈ ds, c.isDigit = true)
    (nonempty : ds ≠ []) (ends : Ends rest) : readDigits (ds ++ rest) = some (ds, rest) := by
  have hstop : rest.takeWhile Char.isDigit = [] ∧ rest.dropWhile Char.isDigit = rest := by
    cases rest with
    | nil => exact ⟨rfl, rfl⟩
    | cons c cs =>
        have hc := (ends c cs rfl).1
        simp [hc]
  have htake : (ds ++ rest).takeWhile Char.isDigit = ds := by
    rw [List.takeWhile_append_of_pos digits, hstop.1, List.append_nil]
  have hdrop : (ds ++ rest).dropWhile Char.isDigit = rest := by
    rw [List.dropWhile_append_of_pos digits, hstop.2]
  unfold readDigits
  rw [htake, hdrop]
  cases ds with
  | nil => exact absurd rfl nonempty
  | cons => rfl

theorem readFraction_of_ends {rest : List Char} (ends : Ends rest) :
    readFraction rest = some ([], rest) := by
  rw [readFraction]
  intro cs h
  exact (ends '.' cs h).2.1 rfl

theorem readExponent_of_ends {rest : List Char} (ends : Ends rest) :
    readExponent rest = some (none, rest) := by
  cases rest with
  | nil => rfl
  | cons c cs =>
      obtain ⟨-, -, he, hE⟩ := ends c cs rfl
      unfold readExponent
      exact if_neg (by simp [he, hE])

theorem print_integer (negative : Bool) (k : Nat) :
    print ⟨negative, Text.digits k, [], none⟩ =
      (if negative then ['-'] else []) ++ Text.digits k := by
  simp [print]

theorem digits_ne_minus (k : Nat) (rest cs : List Char) : Text.digits k ++ rest ≠ '-' :: cs := by
  intro h
  cases hds : Text.digits k with
  | nil => exact Text.digits_ne_nil k hds
  | cons d ds =>
      rw [hds] at h
      obtain rfl : d = '-' := (List.cons.inj h).1
      have hdigit := Text.isDigit_of_mem_digits (n := k) (hds ▸ List.mem_cons_self)
      exact absurd hdigit (by decide)

theorem read_print {n : Numeral} (printable : n.Printable) {rest : List Char} (ends : Ends rest) :
    read (n.print ++ rest) = some (n, rest) := by
  obtain ⟨negative, whole, fraction, exponent⟩ := n
  obtain ⟨⟨k, rfl⟩, rfl, rfl⟩ := printable
  have hdigits : readDigits (Text.digits k ++ rest) = some (Text.digits k, rest) :=
    readDigits_append (fun c hc => Text.isDigit_of_mem_digits hc) (Text.digits_ne_nil k) ends
  rw [print_integer]
  cases negative with
  | true =>
      show read ('-' :: (Text.digits k ++ rest)) = _
      rw [read, hdigits]
      simp only [Option.bind_eq_bind, Option.bind_some, if_neg (digits_canonical k),
        readFraction_of_ends ends, readExponent_of_ends ends]
  | false =>
      show read (Text.digits k ++ rest) = _
      rw [read, hdigits]
      · simp only [Option.bind_eq_bind, Option.bind_some, if_neg (digits_canonical k),
          readFraction_of_ends ends, readExponent_of_ends ends]
      · exact digits_ne_minus k rest

theorem printable_ofNat (n : Nat) : (ofNat n).Printable := ⟨⟨n, rfl⟩, rfl, rfl⟩

theorem printable_ofInt (i : Int) : (ofInt i).Printable := by
  cases i with
  | ofNat n => exact printable_ofNat n
  | negSucc n => exact ⟨⟨n + 1, rfl⟩, rfl, rfl⟩

end Numeral

/-! ## Values -/

mutual

/-- Whether all strings and numbers of a text are read back as they are printed. -/
def Printable : Json → Prop
  | .null | .bool _ => True
  | .number n => n.Printable
  | .string t => ∀ g ∈ t, g.Printable
  | .array items => PrintableItems items
  | .object members => PrintableMembers members

def PrintableItems : List Json → Prop
  | [] => True
  | j :: rest => j.Printable ∧ PrintableItems rest

def PrintableMembers : List (List Glyph × Json) → Prop
  | [] => True
  | (t, j) :: rest => (∀ g ∈ t, g.Printable) ∧ j.Printable ∧ PrintableMembers rest

end

/-- The items as they stand after the opening bracket. -/
def itemsText : List Json → List Char
  | [] => []
  | j :: rest => j.print ++ printItems rest

/-- The members as they stand after the opening brace. -/
def membersText : List (List Glyph × Json) → List Char
  | [] => []
  | (t, j) :: rest => Glyph.printAll t ++ ':' :: j.print ++ printMembers rest

theorem skipSpace_cons {c : Char} (h : isSpace c = false) (cs : List Char) :
    skipSpace (c :: cs) = c :: cs := by
  simp [skipSpace, h]

theorem numeral_head {n : Numeral} (printable : n.Printable) (rest : List Char) :
    ∃ c cs, n.print ++ rest = c :: cs ∧ (c = '-' ∨ c.isDigit = true) := by
  obtain ⟨negative, whole, fraction, exponent⟩ := n
  obtain ⟨⟨k, rfl⟩, rfl, rfl⟩ := printable
  rw [Numeral.print_integer]
  cases negative with
  | true => exact ⟨'-', Text.digits k ++ rest, rfl, .inl rfl⟩
  | false =>
      cases hds : Text.digits k with
      | nil => exact absurd hds (Text.digits_ne_nil k)
      | cons d ds =>
          have hd := Text.isDigit_of_mem_digits (n := k) (hds ▸ List.mem_cons_self)
          exact ⟨d, ds ++ rest, rfl, .inr hd⟩

theorem isSpace_of_numeral_head {c : Char} (h : c = '-' ∨ c.isDigit = true) :
    isSpace c = false := by
  rcases h with rfl | h
  · rfl
  · unfold isSpace
    simp only [Bool.or_eq_false_iff, decide_eq_false_iff_not]
    refine ⟨⟨⟨?_, ?_⟩, ?_⟩, ?_⟩ <;> (rintro rfl; exact absurd h (by decide))

/-- A value starts with a character that is no space and closes nothing. -/
theorem print_head {j : Json} (printable : j.Printable) :
    ∃ c cs, j.print = c :: cs ∧ isSpace c = false ∧ c ≠ ']' := by
  cases j with
  | null => exact ⟨_, _, rfl, rfl, by decide⟩
  | bool b => cases b <;> exact ⟨_, _, rfl, rfl, by decide⟩
  | number n =>
      obtain ⟨c, cs, heq, hc⟩ := numeral_head printable []
      rw [List.append_nil] at heq
      refine ⟨c, cs, heq, isSpace_of_numeral_head hc, ?_⟩
      rintro rfl
      exact absurd hc (by decide)
  | string t => exact ⟨_, _, rfl, rfl, by decide⟩
  | array items => cases items <;> exact ⟨_, _, rfl, rfl, by decide⟩
  | object members => cases members <;> exact ⟨_, _, rfl, rfl, by decide⟩

theorem readValue_numeral {cs : List Char} {c : Char} {tail : List Char} (heq : cs = c :: tail)
    (hc : c = '-' ∨ c.isDigit = true) (fuel : Nat) :
    readValue (fuel + 1) cs = (Numeral.read cs).map fun (n, rest) => (.number n, rest) := by
  subst heq
  rw [readValue, skipSpace_cons (isSpace_of_numeral_head hc)]
  split
  case h_7 => rfl
  all_goals
    next heq =>
      obtain ⟨rfl, -⟩ := List.cons.inj heq
      exact absurd hc (by decide)

theorem ends_printItems (items : List Json) (rest : List Char) :
    Numeral.Ends (printItems items ++ rest) := by
  intro c cs h
  cases items <;> (obtain ⟨rfl, -⟩ := List.cons.inj h; decide)

theorem ends_printMembers (members : List (List Glyph × Json)) (rest : List Char) :
    Numeral.Ends (printMembers members ++ rest) := by
  intro c cs h
  obtain _ | ⟨⟨t, j⟩, members⟩ := members <;> (obtain ⟨rfl, -⟩ := List.cons.inj h; decide)

theorem length_printItems_pos (items : List Json) : 0 < (printItems items).length := by
  cases items <;> simp [printItems]

theorem length_printMembers_pos (members : List (List Glyph × Json)) :
    0 < (printMembers members).length := by
  obtain _ | ⟨⟨t, j⟩, members⟩ := members <;> simp [printMembers]

theorem readName_print {t : List Glyph} (printable : ∀ g ∈ t, g.Printable) (rest : List Char) :
    readName (Glyph.printAll t ++ ':' :: rest) = some (t, rest) := by
  have hread := Glyph.read_printAll printable (':' :: rest)
  have hcolon : skipSpace (':' :: rest) = ':' :: rest := skipSpace_cons rfl rest
  have htext : Glyph.printAll t ++ ':' :: rest =
      '"' :: (t.flatMap Glyph.print ++ '"' :: ':' :: rest) := by simp [Glyph.printAll]
  unfold readName
  rw [htext, skipSpace_cons rfl]
  simp only [hread, Option.bind_eq_bind, Option.bind_some, hcolon]

/-- An array of one item or more, once its items are read. -/
theorem readValue_array {fuel : Nat} {text rest : List Char} {items : List Json} {c : Char}
    {cs : List Char} (h : readItems fuel text = some (items, rest)) (htext : text = c :: cs)
    (hspace : isSpace c = false) (hbracket : c ≠ ']') :
    readValue (fuel + 1) ('[' :: text) = some (.array items, rest) := by
  subst htext
  have hskip := skipSpace_cons hspace cs
  rw [readValue, skipSpace_cons rfl]
  simp only [hskip]
  split
  · next heq => exact absurd (List.cons.inj heq).1 hbracket
  · rw [h, Option.map_some]

/-- An object of one member or more, once its members are read. -/
theorem readValue_object {fuel : Nat} {text rest : List Char} {members : List (List Glyph × Json)}
    {cs : List Char} (h : readMembers fuel text = some (members, rest)) (htext : text = '"' :: cs) :
    readValue (fuel + 1) ('\x7b' :: text) = some (.object members, rest) := by
  subst htext
  have hskip : skipSpace ('"' :: cs) = '"' :: cs := skipSpace_cons rfl cs
  rw [readValue, skipSpace_cons rfl]
  simp only [hskip]
  split
  · next heq => exact absurd (List.cons.inj heq).1 (by decide)
  · rw [h, Option.map_some]

theorem readItems_cons {fuel : Nat} {text more rest : List Char} {j : Json} {items : List Json}
    (head : readValue fuel text = some (j, ',' :: more))
    (tail : readItems fuel more = some (items, rest)) :
    readItems (fuel + 1) text = some (j :: items, rest) := by
  have hcomma : skipSpace (',' :: more) = ',' :: more := skipSpace_cons rfl more
  rw [readItems, head]
  simp only [Option.bind_eq_bind, Option.bind_some, hcomma, tail]

theorem readItems_last {fuel : Nat} {text rest : List Char} {j : Json}
    (head : readValue fuel text = some (j, ']' :: rest)) :
    readItems (fuel + 1) text = some ([j], rest) := by
  have hbracket : skipSpace (']' :: rest) = ']' :: rest := skipSpace_cons rfl rest
  rw [readItems, head]
  simp only [Option.bind_eq_bind, Option.bind_some, hbracket]

theorem readMembers_cons {fuel : Nat} {text value more rest : List Char} {t : List Glyph} {j : Json}
    {members : List (List Glyph × Json)} (name : readName text = some (t, value))
    (head : readValue fuel value = some (j, ',' :: more))
    (tail : readMembers fuel more = some (members, rest)) :
    readMembers (fuel + 1) text = some ((t, j) :: members, rest) := by
  have hcomma : skipSpace (',' :: more) = ',' :: more := skipSpace_cons rfl more
  rw [readMembers, name]
  simp only [Option.bind_eq_bind, Option.bind_some, head, hcomma, tail]

theorem readMembers_last {fuel : Nat} {text value rest : List Char} {t : List Glyph} {j : Json}
    (name : readName text = some (t, value))
    (head : readValue fuel value = some (j, '\x7d' :: rest)) :
    readMembers (fuel + 1) text = some ([(t, j)], rest) := by
  have hbrace : skipSpace ('\x7d' :: rest) = '\x7d' :: rest := skipSpace_cons rfl rest
  rw [readMembers, name]
  simp only [Option.bind_eq_bind, Option.bind_some, head, hbrace]

mutual

/-- Twice the length of what is printed is enough fuel to read it back. -/
theorem readValue_print (j : Json) (printable : j.Printable) (fuel : Nat) (rest : List Char)
    (enough : 2 * j.print.length ≤ fuel) (ends : Numeral.Ends rest) :
    readValue fuel (j.print ++ rest) = some (j, rest) := by
  obtain ⟨c, cs, hhead, -, -⟩ := print_head printable
  have hpos : 0 < j.print.length := by simp [hhead]
  obtain ⟨fuel, rfl⟩ : ∃ n, fuel = n + 1 := ⟨fuel - 1, by omega⟩
  match j, printable with
  | .null, _ => rfl
  | .bool true, _ => rfl
  | .bool false, _ => rfl
  | .number n, hn =>
      obtain ⟨d, ds, heq, hd⟩ := numeral_head hn rest
      show readValue (fuel + 1) (n.print ++ rest) = _
      rw [readValue_numeral heq hd, Numeral.read_print hn ends, Option.map_some]
  | .string t, ht =>
      have htext : (Json.string t).print ++ rest =
          '"' :: (t.flatMap Glyph.print ++ '"' :: rest) := by simp [print, Glyph.printAll]
      rw [htext, readValue, skipSpace_cons rfl]
      simp only [Glyph.read_printAll ht, Option.map_some]
  | .array [], _ => rfl
  | .array (j :: items), hitems =>
      have htext : (Json.array (j :: items)).print ++ rest =
          '[' :: (itemsText (j :: items) ++ rest) := by simp [print, itemsText]
      have hlength : (Json.array (j :: items)).print.length =
          (itemsText (j :: items)).length + 1 := by simp [print, itemsText]
      have hread := readItems_print (j :: items) hitems fuel rest nofun (by omega)
      obtain ⟨d, ds, hd, hspace, hbracket⟩ := print_head hitems.1
      have hfirst : itemsText (j :: items) ++ rest = d :: (ds ++ (printItems items ++ rest)) := by
        simp [itemsText, hd]
      rw [htext]
      exact readValue_array hread hfirst hspace hbracket
  | .object [], _ => rfl
  | .object ((t, j) :: members), hmembers =>
      have htext : (Json.object ((t, j) :: members)).print ++ rest =
          '\x7b' :: (membersText ((t, j) :: members) ++ rest) := by simp [print, membersText]
      have hlength : (Json.object ((t, j) :: members)).print.length =
          (membersText ((t, j) :: members)).length + 1 := by simp [print, membersText]
      have hread := readMembers_print ((t, j) :: members) hmembers fuel rest nofun (by omega)
      have hfirst : membersText ((t, j) :: members) ++ rest = '"' ::
          (t.flatMap Glyph.print ++ '"' :: ':' :: (j.print ++ (printMembers members ++ rest))) := by
        simp [membersText, Glyph.printAll]
      rw [htext]
      exact readValue_object hread hfirst

theorem readItems_print (items : List Json) (printable : PrintableItems items) (fuel : Nat)
    (rest : List Char) (nonempty : items ≠ []) (enough : 2 * (itemsText items).length ≤ fuel) :
    readItems fuel (itemsText items ++ rest) = some (items, rest) := by
  match items, nonempty, printable with
  | j :: items, _, hitems =>
      have hlength : (itemsText (j :: items)).length =
          j.print.length + (printItems items).length := List.length_append
      have hpos := length_printItems_pos items
      obtain ⟨fuel, rfl⟩ : ∃ n, fuel = n + 1 := ⟨fuel - 1, by omega⟩
      have hvalue := readValue_print j hitems.1 fuel (printItems items ++ rest) (by omega)
        (ends_printItems items rest)
      have htext : itemsText (j :: items) ++ rest = j.print ++ (printItems items ++ rest) := by
        simp [itemsText]
      rw [htext]
      match items, hitems.2 with
      | [], _ => exact readItems_last hvalue
      | k :: more, hmore =>
          have htail : printItems (k :: more) = ',' :: itemsText (k :: more) := by
            simp [printItems, itemsText]
          rw [htail] at hvalue hlength ⊢
          rw [List.length_cons] at hlength
          exact readItems_cons hvalue
            (readItems_print (k :: more) hmore fuel rest nofun (by omega))

theorem readMembers_print (members : List (List Glyph × Json))
    (printable : PrintableMembers members) (fuel : Nat) (rest : List Char)
    (nonempty : members ≠ []) (enough : 2 * (membersText members).length ≤ fuel) :
    readMembers fuel (membersText members ++ rest) = some (members, rest) := by
  match members, nonempty, printable with
  | (t, j) :: members, _, ⟨ht, hj, hmembers⟩ =>
      have hlength : (membersText ((t, j) :: members)).length =
          (Glyph.printAll t).length + (j.print.length + 1 + (printMembers members).length) := by
        simp [membersText]
        omega
      have hpos := length_printMembers_pos members
      obtain ⟨fuel, rfl⟩ : ∃ n, fuel = n + 1 := ⟨fuel - 1, by omega⟩
      have hvalue := readValue_print j hj fuel (printMembers members ++ rest) (by omega)
        (ends_printMembers members rest)
      have htext : membersText ((t, j) :: members) ++ rest =
          Glyph.printAll t ++ ':' :: (j.print ++ (printMembers members ++ rest)) := by
        simp [membersText]
      have hname := readName_print ht (j.print ++ (printMembers members ++ rest))
      rw [htext]
      match members, hmembers with
      | [], _ => exact readMembers_last hname hvalue
      | (u, k) :: more, hmore =>
          have htail : printMembers ((u, k) :: more) = ',' :: membersText ((u, k) :: more) := by
            simp [printMembers, membersText]
          rw [htail] at hname hvalue hlength ⊢
          rw [List.length_cons] at hlength
          exact readMembers_cons hname hvalue
            (readMembers_print ((u, k) :: more) hmore fuel rest nofun (by omega))

end

/-- A text of printable strings and numbers is read back as it is printed. -/
theorem parse_render {j : Json} (printable : j.Printable) : parse j.render = some j := by
  have hread := readValue_print j printable (2 * j.print.length + 2) [] (by omega) nofun
  rw [List.append_nil] at hread
  unfold parse render
  rw [String.toList_ofList, hread]
  rfl

/-! ## What is written for data -/

theorem printable_text (s : String) : (text s).Printable := Glyph.printable_encode s.toList

theorem printable_word (w : UInt64) : (word w).Printable := Numeral.printable_ofNat w.toNat

theorem printable_int64 (i : Int64) : (int64 i).Printable := Numeral.printable_ofInt i.toInt

theorem printable_nullable {f : α → Json} (h : ∀ a, (f a).Printable) (o : Option α) :
    (nullable f o).Printable := by
  cases o with
  | none => trivial
  | some a => exact h a

theorem printable_array {items : List Json} (h : ∀ j ∈ items, j.Printable) :
    (array items).Printable := by
  show PrintableItems items
  induction items with
  | nil => trivial
  | cons j items ih =>
      exact ⟨h j List.mem_cons_self, ih fun k hk => h k (List.mem_cons_of_mem _ hk)⟩

theorem printable_object {members : List (List Glyph × Json)}
    (h : ∀ m ∈ members, (∀ g ∈ m.1, g.Printable) ∧ m.2.Printable) :
    (object members).Printable := by
  show PrintableMembers members
  induction members with
  | nil => trivial
  | cons m members ih =>
      obtain ⟨hname, hvalue⟩ := h m List.mem_cons_self
      exact ⟨hname, hvalue, ih fun n hn => h n (List.mem_cons_of_mem _ hn)⟩

theorem printable_record {fields : List (String × Json)} (h : ∀ f ∈ fields, f.2.Printable) :
    (record fields).Printable :=
  printable_object fun m hm => by
    obtain ⟨f, hf, rfl⟩ := List.mem_map.1 hm
    exact ⟨Glyph.printable_encode f.1.toList, h f hf⟩

end LiveChat.Json
