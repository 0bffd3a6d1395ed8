import LiveChat.Address
import LiveChat.Proofs.Text

/-!
# Addresses as they are written

A number ends where a slash follows it, so that no two rooms are written alike, however their digits
run on. What is written of a channel, under a base address or without one, tells which channel it
is.
-/

namespace LiveChat

/-! ## Rooms -/

namespace Room

theorem toList_text (r : Room) : r.text.toList =
    Text.digits r.workspace.toNat ++ '/' :: Text.digits r.number.toNat := by
  simp [text, Text.toList_toString]

theorem read_text (r : Room) : read r.text = .ok r := by
  rw [read, toList_text, Text.splitOnce_digits _ (by decide)]
  simp only [Text.readWord_digits]

theorem text_injective : Function.Injective text := by
  intro r s h
  have hread := read_text r
  rw [h, read_text s] at hread
  exact (Except.ok.inj hread).symm

end Room

/-! ## Channels -/

namespace Address

variable {base base' : String} {a : Address}

theorem text_injective : Function.Injective text := by
  intro a b h
  have hlist := congrArg String.toList h
  cases a with
  | global =>
      cases b with
      | global => rfl
      | room r => simp [text] at hlist
  | room r =>
      cases b with
      | global => simp [text] at hlist
      | room s => exact congrArg room (Room.text_injective ((String.append_right_inj "room:").1 h))

theorem toList_path_room (r : Room) : (room r).path.toList = "/ws/workspaces/".toList ++
    (Text.digits r.workspace.toNat ++
      '/' :: ("rooms/".toList ++ Text.digits r.number.toNat)) := by
  change ("/ws/workspaces/" ++ toString r.workspace ++ "/rooms/" ++ toString r.number).toList = _
  simp [Text.toList_toString]

theorem path_global_ne (r : Room) : global.path ≠ (room r).path := by
  intro h
  have hlist : "/ws/global".toList = _ := (congrArg String.toList h).trans (toList_path_room r)
  simp at hlist

theorem path_injective : Function.Injective path := by
  intro a b h
  cases a with
  | global =>
      cases b with
      | global => rfl
      | room r => exact absurd h (path_global_ne r)
  | room r =>
      cases b with
      | global => exact absurd h.symm (path_global_ne r)
      | room s =>
          have hlist := congrArg String.toList h
          rw [toList_path_room, toList_path_room] at hlist
          obtain ⟨hworkspace, hrest⟩ :=
            Text.digits_append_inj (by decide) (List.append_cancel_left hlist)
          have hnumber := Text.digits_injective (List.append_cancel_left hrest)
          rw [UInt64.toNat_inj] at hworkspace hnumber
          cases r
          cases s
          cases hworkspace
          cases hnumber
          rfl

theorem url_injective (base : String) : Function.Injective (url base) :=
  fun _ _ h => path_injective ((String.append_right_inj _).1 h)

/-- A run of slashes. -/
def slashes (n : Nat) : String := .ofList (.replicate n '/')

theorem toList_slashes (n : Nat) : (slashes n).toList = .replicate n '/' := String.toList_ofList

/-- A base address is what is left of it with slashes behind. -/
theorem exists_slashes (base : String) : ∃ n,
    base = .ofList (Text.dropEndWhile (· = '/') base.toList) ++ slashes n := by
  obtain ⟨-, tail, hbase, cut⟩ :=
    Text.eq_dropEndWhile_iff.1 (rfl : Text.dropEndWhile (· = '/') base.toList = _)
  have htail : tail = .replicate tail.length '/' :=
    List.eq_replicate_of_mem fun c hc => of_decide_eq_true (cut c hc)
  refine ⟨tail.length, String.toList_injective ?_⟩
  rw [String.toList_append, String.toList_ofList, toList_slashes, ← htail, ← hbase]

theorem url_append_slashes (base : String) (n : Nat) (a : Address) :
    a.url (base ++ slashes n) = a.url base := by
  have cut : ∀ c ∈ List.replicate n '/', decide (c = '/') = true :=
    fun c hc => decide_eq_true (List.eq_of_mem_replicate hc)
  rw [url, String.toList_append, toList_slashes, Text.dropEndWhile_append _ cut, url]

/-- Slashes at the end of a base address are all that a full address does not tell of it. -/
theorem url_eq_url_iff : a.url base = a.url base' ↔
    ∃ bare m n, base = bare ++ slashes m ∧ base' = bare ++ slashes n := by
  constructor
  · intro h
    obtain ⟨m, hm⟩ := exists_slashes base
    obtain ⟨n, hn⟩ := exists_slashes base'
    rw [← (String.append_left_inj _).1 h] at hn
    exact ⟨_, m, n, hm, hn⟩
  · rintro ⟨bare, m, n, rfl, rfl⟩
    rw [url_append_slashes, url_append_slashes]

/-- Two channels that are written alike are one channel, whether by name, by path or by full address
under one base. The full address is the same for two bases exactly if they differ in no more than
the slashes at their ends. A room is read back from its text. -/
theorem told_apart_as_written :
    Function.Injective text ∧ Function.Injective path ∧
      (∀ base, Function.Injective (url base)) ∧
      (∀ a base base', url base a = url base' a ↔
        ∃ bare m n, base = bare ++ slashes m ∧ base' = bare ++ slashes n) ∧
      ∀ r : Room, Room.read r.text = .ok r :=
  ⟨text_injective, path_injective, url_injective, fun _ _ _ => url_eq_url_iff, Room.read_text⟩

/-- The digits of both rooms run on to the same, and one of the bases ends in slashes. -/
theorem digits_running_on_told_apart :
    let a := room ⟨1, 23⟩
    let b := room ⟨12, 3⟩
    let base := "wss://chat.example"
    a.text ≠ b.text ∧ a.path ≠ b.path ∧ a.url base ≠ b.url base ∧
      a.url (base ++ "//") = a.url base ∧ Room.read "12/3" = .ok ⟨12, 3⟩ := by
  intro a b base
  obtain ⟨htext, hpath, hurl, hbase, hread⟩ := told_apart_as_written
  have differ : a ≠ b := by decide
  refine ⟨htext.ne differ, hpath.ne differ, (hurl base).ne differ, ?_, hread ⟨12, 3⟩⟩
  exact (hbase a _ _).2 ⟨base, 2, 0, rfl, rfl⟩

end Address

end LiveChat
