import Bindery.Text.Utf8
import Mathlib.Data.List.Basic
import Mathlib.Tactic.ByContra

/-!
# Text and its bytes

An ASCII character has a byte of its own, which no other character has among its bytes (`mem_utf8EncodeChar`).  So
bytes on both sides of such a byte are text just if all of it is (`isText_append_cons`).  Text is shown as it is
(`lossy_encode`).
-/

namespace Bindery.Text

variable {a c : Char} {xs ys : List UInt8} {s : String}

theorem encode_eq_flatMap (s : String) : encode s = s.toList.flatMap String.utf8EncodeChar := by
  have h : encode s = s.toList.utf8Encode.data.toList := by
    rw [String.utf8Encode_toList]
    rfl
  rw [h]
  simp [List.utf8Encode]

/-! ### ASCII characters -/

theorem toNat_toUInt8 (ha : a.toNat < 128) : a.toUInt8.toNat = a.toNat := by
  have hval : a.toUInt8.toNat = a.toNat % 256 := rfl
  omega

theorem utf8EncodeChar_of_ascii (ha : a.toNat < 128) : String.utf8EncodeChar a = [a.toUInt8] := by
  apply String.utf8EncodeChar_eq_singleton
  rw [Char.utf8Size_eq_one_iff, UInt32.le_iff_toNat_le]
  exact Nat.le_of_lt_succ ha

/-- The bytes of a character above 127 are above 127. -/
private theorem le_of_mem_utf8EncodeChar {b : UInt8} (hc : 128 ≤ c.toNat) (h : b ∈ String.utf8EncodeChar c) :
    128 ≤ b.toNat := by
  have hlead (n k : Nat) (hk : 128 ≤ k) (hlt : n + k < 256) : 128 ≤ (UInt8.ofNat (n + k)).toNat := by
    rw [UInt8.toNat_ofNat', Nat.mod_eq_of_lt hlt]
    omega
  have hval : 128 ≤ c.val.toNat := hc
  unfold String.utf8EncodeChar at h
  dsimp only at h
  rw [if_neg (by omega)] at h
  split at h
  · rw [List.mem_pair] at h
    rcases h with rfl | rfl <;> exact hlead _ _ (by decide) (by omega)
  split at h
  · simp only [List.mem_cons, List.not_mem_nil, or_false] at h
    rcases h with rfl | rfl | rfl <;> exact hlead _ _ (by decide) (by omega)
  · simp only [List.mem_cons, List.not_mem_nil, or_false] at h
    rcases h with rfl | rfl | rfl | rfl <;> exact hlead _ _ (by decide) (by omega)

/-- Of all characters only an ASCII character has its byte. -/
theorem mem_utf8EncodeChar (ha : a.toNat < 128) : a.toUInt8 ∈ String.utf8EncodeChar c ↔ c = a := by
  refine ⟨fun h => ?_, fun h => by rw [h, utf8EncodeChar_of_ascii ha]; exact List.mem_singleton_self _⟩
  have hc : c.toNat < 128 := by
    by_contra hc
    have hle := le_of_mem_utf8EncodeChar (Nat.le_of_not_lt hc) h
    rw [toNat_toUInt8 ha] at hle
    omega
  rw [utf8EncodeChar_of_ascii hc, List.mem_singleton] at h
  have hnat := congrArg UInt8.toNat h
  rw [toNat_toUInt8 ha, toNat_toUInt8 hc] at hnat
  exact (Char.toNat_inj.1 hnat).symm

theorem mem_encode (ha : a.toNat < 128) : a.toUInt8 ∈ encode s ↔ a ∈ s.toList := by
  rw [encode_eq_flatMap, List.mem_flatMap]
  simp only [mem_utf8EncodeChar ha, exists_eq_right]

/-! ### Parts of text -/

/-- The bytes are those of a text. -/
def IsText (bytes : List UInt8) : Prop := ∃ s, bytes = encode s

theorem isText_encode (s : String) : IsText (encode s) := ⟨s, rfl⟩

theorem IsText.append (hx : IsText xs) (hy : IsText ys) : IsText (xs ++ ys) := by
  obtain ⟨s, rfl⟩ := hx
  obtain ⟨t, rfl⟩ := hy
  exact ⟨s ++ t, (encode_append s t).symm⟩

private theorem encode_ofList (cs : List Char) : encode (String.ofList cs) = cs.flatMap String.utf8EncodeChar := by
  rw [encode_eq_flatMap, String.toList_ofList]

private theorem exists_of_flatMap_eq_append_cons {cs : List Char} (ha : a.toNat < 128)
    (h : xs ++ a.toUInt8 :: ys = cs.flatMap String.utf8EncodeChar) :
    ∃ before after : List Char, xs = before.flatMap String.utf8EncodeChar ∧
      ys = after.flatMap String.utf8EncodeChar := by
  induction cs generalizing xs with
  | nil => exact absurd h (by simp)
  | cons c cs ih =>
    rw [List.flatMap_cons] at h
    rcases List.append_eq_append_iff.1 h with ⟨mid, hc, hmid⟩ | ⟨mid, rfl, hmid⟩
    · cases mid with
      | nil =>
        -- the byte begins what follows the character
        rw [List.append_nil] at hc
        obtain ⟨-, after, -, hys⟩ := @ih [] hmid
        exact ⟨[c], after, by rw [List.flatMap_singleton, hc], hys⟩
      | cons b mid =>
        -- the byte is one of the character's, and so the only one
        obtain ⟨rfl, rfl⟩ := List.cons.inj hmid
        obtain rfl := (mem_utf8EncodeChar ha).1 (hc ▸ List.mem_append_right _ List.mem_cons_self)
        rw [utf8EncodeChar_of_ascii ha] at hc
        rcases List.append_eq_singleton_iff.1 hc.symm with ⟨rfl, hcons⟩ | ⟨-, hcons⟩
        · obtain rfl : mid = [] := (List.cons.inj hcons).2
          exact ⟨[], cs, rfl, rfl⟩
        · exact absurd hcons (List.cons_ne_nil _ _)
    · obtain ⟨before, after, rfl, rfl⟩ := ih hmid.symm
      exact ⟨c :: before, after, List.flatMap_cons.symm, rfl⟩

/-- Bytes on both sides of an ASCII character's are text just if all of it is. -/
theorem isText_append_cons (ha : a.toNat < 128) : IsText (xs ++ a.toUInt8 :: ys) ↔ IsText xs ∧ IsText ys := by
  constructor
  · rintro ⟨s, hs⟩
    rw [encode_eq_flatMap] at hs
    obtain ⟨before, after, rfl, rfl⟩ := exists_of_flatMap_eq_append_cons ha hs
    exact ⟨⟨String.ofList before, (encode_ofList before).symm⟩, ⟨String.ofList after, (encode_ofList after).symm⟩⟩
  · rintro ⟨hx, hy⟩
    have hcons : IsText (a.toUInt8 :: ys) := by
      have happ := IsText.append ⟨String.ofList [a], rfl⟩ hy
      rwa [encode_ofList, List.flatMap_singleton, utf8EncodeChar_of_ascii ha] at happ
    exact hx.append hcons

/-! ### Text shown -/

private theorem headChar?_encode (c : Char) (bytes : List UInt8) :
    headChar? (String.utf8EncodeChar c ++ bytes) = some c := by
  have hlen : (String.utf8EncodeChar c).length ≤ 4 := by
    rw [String.length_utf8EncodeChar]
    exact c.utf8Size_le_four
  have hbytes (xs : List UInt8) : ByteArray.mk xs.toArray = xs.toByteArray := by
    rw [← List.data_toByteArray]
  rw [headChar?, List.take_append, List.take_of_length_le hlen, hbytes, List.toByteArray_append]
  exact ByteArray.utf8DecodeChar?_utf8EncodeChar_append

private theorem pieces_encode (c : Char) (bytes : List UInt8) :
    pieces (String.utf8EncodeChar c ++ bytes) = .char c :: pieces bytes := by
  have hhead := headChar?_encode c bytes
  have hlen := String.length_utf8EncodeChar c
  cases henc : String.utf8EncodeChar c with
  | nil => exact absurd henc String.utf8EncodeChar_ne_nil
  | cons b rest =>
    rw [henc, List.cons_append] at hhead
    rw [henc, List.length_cons] at hlen
    rw [List.cons_append, pieces, hhead]
    dsimp only
    rw [← hlen, Nat.add_sub_cancel, List.drop_left]

/-- Text is shown as it is. -/
theorem lossy_encode (s : String) : lossy (encode s) = s := by
  have hpieces (cs : List Char) : pieces (cs.flatMap String.utf8EncodeChar) = cs.map .char := by
    induction cs with
    | nil => rw [List.flatMap_nil, pieces, List.map_nil]
    | cons c cs ih => rw [List.flatMap_cons, pieces_encode, ih, List.map_cons]
  have hshown : Piece.shown ∘ Piece.char = id := rfl
  rw [lossy, encode_eq_flatMap, hpieces, List.map_map, hshown, List.map_id, String.ofList_toList]

end Bindery.Text
