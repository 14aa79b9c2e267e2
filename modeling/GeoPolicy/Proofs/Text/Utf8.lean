import GeoPolicy.Text.Utf8
import Mathlib.Tactic.IntervalCases

/-!
# Encoded texts

The bytes of a text are decoded as the text. Each character is read back on its own, whatever bytes
follow, from the first byte with its bounds for the second one to the last byte.
-/

namespace GeoPolicy

namespace Utf8

/-! ## Bytes of a text -/

theorem toList_loop (bytes : ByteArray) (i : Nat) (r : List UInt8) :
    ByteArray.toList.loop bytes i r = r.reverse ++ bytes.data.toList.drop i := by
  fun_induction ByteArray.toList.loop bytes i r with
  | case1 i r h ih =>
    have hi : i < bytes.data.toList.length := by simpa using h
    rw [ih, List.drop_eq_getElem_cons hi]
    simp [ByteArray.get!, h]
  | case2 i r h =>
    have hi : bytes.data.toList.length ≤ i := by simpa using h
    rw [List.drop_eq_nil_of_le hi, List.append_nil]

theorem encode_eq_flatMap (s : String) : encode s = s.toList.flatMap String.utf8EncodeChar := by
  have hbytes : s.toUTF8 = (s.toList.flatMap String.utf8EncodeChar).toByteArray := by
    conv_lhs => rw [← String.ofList_toList (s := s)]
    rfl
  rw [encode, hbytes, ByteArray.toList, toList_loop, List.toList_data_toByteArray]
  rfl

/-! ## First bytes -/

theorem first_two {n : Nat} (h : 2 ≤ n) (h' : n < 32) :
    first (n + 0xC0) = ([], some ⟨n, 0, 0x80, 0xBF⟩) := by
  interval_cases n <;> rfl

theorem first_three {n : Nat} (h : n < 16) :
    first (n + 0xE0) =
      ([], some ⟨n, 1, if n = 0 then 0xA0 else 0x80, if n = 13 then 0x9F else 0xBF⟩) := by
  interval_cases n <;> rfl

theorem first_four {n : Nat} (h : n < 5) :
    first (n + 0xF0) =
      ([], some ⟨n, 2, if n = 0 then 0x90 else 0x80, if n = 4 then 0x8F else 0xBF⟩) := by
  interval_cases n <;> rfl

/-! ## Characters -/

theorem charactersFrom_cons (pending : Option Pending) (n : Nat) (h : n < 256)
    (rest : List UInt8) :
    charactersFrom pending (UInt8.ofNat n :: rest) =
      (step pending n).1 ++ charactersFrom (step pending n).2 rest := by
  have hn : (UInt8.ofNat n).toNat = n := by
    rw [UInt8.toNat_ofNat']
    exact Nat.mod_eq_of_lt h
  rw [charactersFrom, hn]

theorem step_last {bits low high b : Nat} (hlow : low ≤ b) (hhigh : b ≤ high) :
    step (some ⟨bits, 0, low, high⟩) b = ([some (Char.ofNat (bits * 64 + b % 64))], none) := by
  rw [step, if_pos ⟨hlow, hhigh⟩, if_pos rfl]

theorem step_next {bits more low high b : Nat} (hlow : low ≤ b) (hhigh : b ≤ high) :
    step (some ⟨bits, more + 1, low, high⟩) b =
      ([], some ⟨bits * 64 + b % 64, more, 0x80, 0xBF⟩) := by
  rw [step, if_pos ⟨hlow, hhigh⟩, if_neg (Nat.succ_ne_zero more)]
  rfl

/-- An encoded character is read back before any other bytes. -/
theorem charactersFrom_utf8EncodeChar (c : Char) (rest : List UInt8) :
    charactersFrom none (String.utf8EncodeChar c ++ rest) = some c :: charactersFrom none rest := by
  have hvalid : c.val.toNat < 0xD800 ∨ 0xDFFF < c.val.toNat ∧ c.val.toNat < 0x110000 := c.valid
  have hchar : Char.ofNat c.val.toNat = c := Char.ofNat_toNat c
  unfold String.utf8EncodeChar
  generalize c.val.toNat = v at hvalid hchar
  dsimp only
  split
  · rw [List.singleton_append, charactersFrom_cons none v (by omega), step, first,
      if_pos (by omega), hchar]
    rfl
  split
  · have hbits : v / 64 % 32 * 64 + (v % 64 + 128) % 64 = v := by omega
    rw [List.cons_append, List.singleton_append, charactersFrom_cons none _ (by omega), step,
      first_two (by omega) (by omega), charactersFrom_cons _ _ (by omega),
      step_last (by omega) (by omega), hbits, hchar]
    rfl
  split
  · have hlow : (if v / 4096 % 16 = 0 then 0xA0 else 0x80) ≤ v / 64 % 64 + 128 := by
      split <;> omega
    have hhigh : v / 64 % 64 + 128 ≤ (if v / 4096 % 16 = 13 then 0x9F else 0xBF) := by
      split <;> omega
    have hbits :
        (v / 4096 % 16 * 64 + (v / 64 % 64 + 128) % 64) * 64 + (v % 64 + 128) % 64 = v := by
      omega
    rw [List.cons_append, List.cons_append, List.singleton_append,
      charactersFrom_cons none _ (by omega), step, first_three (by omega),
      charactersFrom_cons _ _ (by omega), step_next hlow hhigh, charactersFrom_cons _ _ (by omega),
      step_last (by omega) (by omega), hbits, hchar]
    rfl
  · have hlow : (if v / 262144 % 8 = 0 then 0x90 else 0x80) ≤ v / 4096 % 64 + 128 := by
      split <;> omega
    have hhigh : v / 4096 % 64 + 128 ≤ (if v / 262144 % 8 = 4 then 0x8F else 0xBF) := by
      split <;> omega
    have hbits : ((v / 262144 % 8 * 64 + (v / 4096 % 64 + 128) % 64) * 64 +
        (v / 64 % 64 + 128) % 64) * 64 + (v % 64 + 128) % 64 = v := by
      omega
    rw [List.cons_append, List.cons_append, List.cons_append, List.singleton_append,
      charactersFrom_cons none _ (by omega), step, first_four (by omega),
      charactersFrom_cons _ _ (by omega), step_next hlow hhigh, charactersFrom_cons _ _ (by omega),
      step_next (by omega) (by omega), charactersFrom_cons _ _ (by omega),
      step_last (by omega) (by omega), hbits, hchar]
    rfl

theorem length_encode_le (s : String) : (encode s).length ≤ 4 * s.toList.length := by
  rw [encode_eq_flatMap]
  induction s.toList with
  | nil => exact Nat.le_refl _
  | cons c s ih =>
    have hc := c.utf8Size_le_four
    rw [List.flatMap_cons, List.length_append, String.length_utf8EncodeChar, List.length_cons]
    omega

theorem characters_encode (s : String) : characters (encode s) = s.toList.map some := by
  rw [characters, encode_eq_flatMap]
  induction s.toList with
  | nil => rfl
  | cons c s ih => rw [List.flatMap_cons, charactersFrom_utf8EncodeChar, ih, List.map_cons]

/-- What is encoded is decoded. -/
theorem decodeLossy_encode (s : String) : decodeLossy (encode s) = s := by
  rw [decodeLossy, characters_encode, List.map_map]
  exact (congrArg String.ofList (List.map_id _)).trans String.ofList_toList

end Utf8

end GeoPolicy
