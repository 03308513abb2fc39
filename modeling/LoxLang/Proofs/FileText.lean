/-
# LoxLang.Proofs.FileText -- texts come back from files

A file holds the bytes of a text.  Every character is read back from its bytes: the start
byte says how many more are needed and lets only those through that a character can have,
so the cases are the four lengths of a character.  Reading ends lines with a line feed
alone, which changes nothing in a text without carriage returns.
-/
import LoxLang.Text.Utf8

namespace LoxLang

set_option autoImplicit false

namespace Text

@[simp]
theorem chars_append (s t : Text) : chars (s ++ t) = chars s ++ chars t := List.map_append

@[simp]
theorem chars_ofChars (cs : List Char) : chars (ofChars cs) = cs := by
  simp [chars, ofChars, CodePoint.toChar, Function.comp_def]

@[simp]
theorem chars_ofString (s : String) : chars (ofString s) = s.toList := chars_ofChars s.toList

theorem length_chars (t : Text) : t.chars.length = t.length := List.length_map _

/-! ## Bytes -/

/-- The list of an array of bytes is taken from it byte by byte. -/
theorem toList_loop (bytes : ByteArray) (left i : Nat) (done : List UInt8) (rest : left + i = bytes.size) :
    ByteArray.toList.loop bytes i done = done.reverse ++ bytes.data.toList.drop i := by
  have length : bytes.data.toList.length = bytes.size := rfl
  induction left generalizing i done with
  | zero =>
      rw [ByteArray.toList.loop, if_neg (by omega), List.drop_of_length_le (by omega), List.append_nil]
  | succ left ih =>
      have inside : i < bytes.data.toList.length := by omega
      have byte : bytes.get! i = bytes.data.toList[i] := by
        show bytes.data[i]! = _
        rw [getElem!_pos bytes.data i inside, Array.getElem_toList]
      rw [ByteArray.toList.loop, if_pos (by omega), ih (i + 1) _ (by omega), byte,
        List.reverse_cons, List.append_assoc, List.singleton_append, List.getElem_cons_drop]

/-- The bytes of a text are those of its characters. -/
theorem toList_toUTF8 (cs : List Char) :
    (String.ofList cs).toUTF8.toList = cs.flatMap String.utf8EncodeChar := by
  rw [String.toUTF8_eq_toByteArray, String.toByteArray_ofList, List.utf8Encode, ByteArray.toList,
    toList_loop _ _ 0 [] rfl, List.toList_data_toByteArray]
  rfl

section Needed

variable {low high : Nat} {byte : UInt8} (above : low ≤ byte.toNat) (below : byte.toNat ≤ high)
  (position bits : Nat) (bytes : List UInt8) (done : List Char) (rest : List UInt8)

include above below

/-- A byte in the range of the only one that is needed ends a character. -/
theorem decodeBytes_last :
    decodeBytes position (some ⟨bytes, bits, [(low, high)]⟩) done (byte :: rest) =
      decodeBytes (position + 1) none (Char.ofNat (bits * 64 + byte.toNat % 64) :: done) rest := by
  rw [decodeBytes]
  simp [above, below]

/-- A byte in the range of the first one that is needed goes into a character. -/
theorem decodeBytes_inner (need : Nat × Nat) (needed : List (Nat × Nat)) :
    decodeBytes position (some ⟨bytes, bits, (low, high) :: need :: needed⟩) done (byte :: rest) =
      decodeBytes (position + 1)
        (some ⟨byte :: bytes, bits * 64 + byte.toNat % 64, need :: needed⟩) done rest := by
  rw [decodeBytes]
  simp [above, below]

end Needed

theorem decodeBytes_start {byte : UInt8} {bits : Nat} {need : Nat × Nat} {needed : List (Nat × Nat)}
    (starts : continuations byte.toNat = some (bits, need :: needed)) (position : Nat)
    (done : List Char) (rest : List UInt8) :
    decodeBytes position none done (byte :: rest) =
      decodeBytes (position + 1) (some ⟨[byte], bits, need :: needed⟩) done rest := by
  rw [decodeBytes]
  simp [starts]

/-- The start byte of two. -/
theorem continuations_two {v : Nat} (above : 0x7f < v) (below : v ≤ 0x7ff) :
    continuations (v / 64 + 0xc0) = some (v / 64, [(0x80, 0xbf)]) := by
  unfold continuations
  rw [if_neg (by omega), if_neg (by omega), if_pos (by omega), Nat.add_sub_cancel]

/-- The start byte of three lets the second byte of a character that is no surrogate through. -/
theorem continuations_three {v : Nat} (above : 0x7ff < v) (below : v ≤ 0xffff)
    (valid : v < 0xd800 ∨ 0xdfff < v) :
    ∃ low high, continuations (v / 4096 + 0xe0) = some (v / 4096, [(low, high), (0x80, 0xbf)]) ∧
      low ≤ v / 64 % 64 + 0x80 ∧ v / 64 % 64 + 0x80 ≤ high := by
  unfold continuations
  rw [if_neg (by omega), if_neg (by omega), if_neg (by omega)]
  by_cases first : v / 4096 = 0
  · exact ⟨0xa0, 0xbf, by simp [first], by omega, by omega⟩
  · rw [if_neg (by omega)]
    by_cases mid : v / 4096 = 0xd
    · exact ⟨0x80, 0x9f, by simp [mid], by omega, by omega⟩
    · rw [if_neg (by omega), if_pos (by omega), Nat.add_sub_cancel]
      exact ⟨0x80, 0xbf, rfl, by omega, by omega⟩

/-- The start byte of four lets the second byte of a character through. -/
theorem continuations_four {v : Nat} (above : 0xffff < v) (below : v < 0x110000) :
    ∃ low high, continuations (v / 262144 + 0xf0) =
        some (v / 262144, [(low, high), (0x80, 0xbf), (0x80, 0xbf)]) ∧
      low ≤ v / 4096 % 64 + 0x80 ∧ v / 4096 % 64 + 0x80 ≤ high := by
  unfold continuations
  rw [if_neg (by omega), if_neg (by omega), if_neg (by omega), if_neg (by omega), if_neg (by omega),
    if_neg (by omega)]
  by_cases first : v / 262144 = 0
  · exact ⟨0x90, 0xbf, by simp [first], by omega, by omega⟩
  · rw [if_neg (by omega)]
    by_cases last : v / 262144 = 4
    · exact ⟨0x80, 0x8f, by simp [last], by omega, by omega⟩
    · rw [if_pos (by omega), Nat.add_sub_cancel]
      exact ⟨0x80, 0xbf, rfl, by omega, by omega⟩

/-- The bytes of a character are read as the character. -/
theorem decodeBytes_char (position : Nat) (done : List Char) (c : Char) (rest : List UInt8) :
    decodeBytes position none done (String.utf8EncodeChar c ++ rest) =
      decodeBytes (position + (String.utf8EncodeChar c).length) none (c :: done) rest := by
  have valid : c.val.toNat < 0xd800 ∨ 0xdfff < c.val.toNat ∧ c.val.toNat < 0x110000 := c.valid
  have self : Char.ofNat c.val.toNat = c := Char.ofNat_toNat c
  have byte : ∀ {n : Nat}, n < 256 → (UInt8.ofNat n).toNat = n := by
    intro n low
    simp [Nat.mod_eq_of_lt low]
  unfold String.utf8EncodeChar
  generalize c.val.toNat = v at valid self
  dsimp only
  split
  · rename_i one
    have starts : continuations (UInt8.ofNat v).toNat = some (v, []) := by
      unfold continuations
      rw [byte (by omega), if_pos (by omega)]
    rw [List.cons_append, decodeBytes, starts, ← self]
    rfl
  split
  · rename_i above two
    have starts : continuations (UInt8.ofNat (v / 64 % 32 + 192)).toNat = some (v / 64, [(0x80, 0xbf)]) := by
      rw [byte (by omega), Nat.mod_eq_of_lt (by omega)]
      exact continuations_two (by omega) two
    have second := byte (show v % 64 + 128 < 256 by omega)
    rw [List.cons_append, decodeBytes_start starts, List.cons_append,
      decodeBytes_last (by omega) (by omega), second,
      show v / 64 * 64 + (v % 64 + 128) % 64 = v by omega, self]
    rfl
  split
  · rename_i above three
    obtain ⟨low, high, starts, least, most⟩ := continuations_three (by omega) three (by omega)
    have starts : continuations (UInt8.ofNat (v / 4096 % 16 + 224)).toNat =
        some (v / 4096, [(low, high), (0x80, 0xbf)]) := by
      rwa [byte (by omega), Nat.mod_eq_of_lt (by omega)]
    have second := byte (show v / 64 % 64 + 128 < 256 by omega)
    have third := byte (show v % 64 + 128 < 256 by omega)
    rw [List.cons_append, decodeBytes_start starts, List.cons_append,
      decodeBytes_inner (by omega) (by omega), List.cons_append,
      decodeBytes_last (by omega) (by omega), second, third,
      show (v / 4096 * 64 + (v / 64 % 64 + 128) % 64) * 64 + (v % 64 + 128) % 64 = v by omega, self]
    rfl
  · obtain ⟨low, high, starts, least, most⟩ := continuations_four (v := v) (by omega) (by omega)
    have starts : continuations (UInt8.ofNat (v / 262144 % 8 + 240)).toNat =
        some (v / 262144, [(low, high), (0x80, 0xbf), (0x80, 0xbf)]) := by
      rwa [byte (by omega), Nat.mod_eq_of_lt (by omega)]
    have second := byte (show v / 4096 % 64 + 128 < 256 by omega)
    have third := byte (show v / 64 % 64 + 128 < 256 by omega)
    have fourth := byte (show v % 64 + 128 < 256 by omega)
    rw [List.cons_append, decodeBytes_start starts, List.cons_append,
      decodeBytes_inner (by omega) (by omega), List.cons_append,
      decodeBytes_inner (by omega) (by omega), List.cons_append,
      decodeBytes_last (by omega) (by omega), second, third, fourth,
      show ((v / 262144 * 64 + (v / 4096 % 64 + 128) % 64) * 64 + (v / 64 % 64 + 128) % 64) * 64 +
        (v % 64 + 128) % 64 = v by omega, self]
    rfl

/-- The bytes of characters are read as the characters. -/
theorem decodeBytes_encoded (position : Nat) (done cs : List Char) :
    decodeBytes position none done (cs.flatMap String.utf8EncodeChar) = .ok (done.reverse ++ cs) := by
  induction cs generalizing position done with
  | nil => simp [decodeBytes]
  | cons c cs ih =>
      rw [List.flatMap_cons, decodeBytes_char, ih]
      simp

/-- Lines that end with a line feed alone stay as they are. -/
theorem unifyNewlines_of_not_mem {cs : List Char} (feeds : '\r' ∉ cs) : unifyNewlines cs = cs := by
  fun_induction unifyNewlines cs with
  | case1 => rfl
  | case2 rest ih => exact absurd List.mem_cons_self feeds
  | case3 c rest _ ih =>
      obtain ⟨other, behind⟩ := List.ne_and_not_mem_of_not_mem_cons feeds
      rw [ih behind, if_neg (Ne.symm other)]

/-- A text without carriage returns that is written to a file is read back. -/
theorem ofBytes_toUTF8 {t : Text} (feeds : '\r' ∉ t.chars) :
    ofBytes t.shown.toUTF8.toList = .ok t.shown := by
  unfold ofBytes shown
  rw [toList_toUTF8, decodeBytes_encoded, List.reverse_nil, List.nil_append, Except.map,
    unifyNewlines_of_not_mem feeds]

end Text

end LoxLang
