import WindowsErg.ByteCodec
import WindowsErg.TextScan

/-! Numbers and bytes as hexadecimal digits in lower case. -/
namespace HexText
open List TextScan ByteCodec

def hexLower (n : ℕ) : Text := Nat.toDigits 16 n

def hexPair (b : UInt8) : Text := [Nat.digitChar (b.toNat/16), Nat.digitChar (b.toNat%16)]

def hexBytes (bytes : Bytes) : Text := bytes.flatMap hexPair

theorem padZeros_hexLower_digit {width : ℕ} (hwidth : 0 < width) (n : ℕ) {d : ℕ} (hd : d < 16) :
    padZeros (width+1) (hexLower (16*n+d)) = padZeros width (hexLower n) ++ [Nat.digitChar d] := by
  unfold hexLower padZeros
  by_cases hn : n = 0
  · subst hn
    -- a zero is one digit, which is like the padding
    obtain ⟨k, rfl⟩ : ∃ k, width = k+1 := ⟨width-1, by omega⟩
    rw [Nat.mul_zero, Nat.zero_add, Nat.toDigits_of_lt_base hd, Nat.toDigits_zero,
      length_singleton, length_singleton, Nat.add_sub_cancel, Nat.add_sub_cancel,
      replicate_succ']
  · have hsplit := Nat.toDigits_append_toDigits (b := 16) (by omega) (Nat.pos_of_ne_zero hn) hd
    rw [← hsplit, Nat.toDigits_of_lt_base hd, length_append, length_singleton,
      Nat.add_sub_add_right, append_assoc]

theorem padZeros_hexLower_byte {width : ℕ} (hwidth : 0 < width) (n : ℕ) (b : UInt8) :
    padZeros (width+2) (hexLower (256*n+b.toNat)) = padZeros width (hexLower n) ++ hexPair b := by
  have hb := b.toNat_lt
  have hhigh : b.toNat/16 < 16 := by omega
  have hlow : b.toNat%16 < 16 := by omega
  have hsplit : 256*n+b.toNat = 16*(16*n+b.toNat/16)+b.toNat%16 := by omega
  rw [hsplit, padZeros_hexLower_digit (Nat.succ_pos width) _ hlow,
    padZeros_hexLower_digit hwidth _ hhigh, append_assoc]
  rfl

theorem padZeros_hexLower_two (b : UInt8) : padZeros 2 (hexLower b.toNat) = hexPair b := by
  have hb := b.toNat_lt
  have hhigh : b.toNat/16 < 16 := by omega
  have hlow : b.toNat%16 < 16 := by omega
  have hsplit : b.toNat = 16*(b.toNat/16)+b.toNat%16 := by omega
  conv_lhs => rw [hsplit]
  rw [padZeros_hexLower_digit Nat.one_pos _ hlow, hexLower, Nat.toDigits_of_lt_base hhigh]
  rfl

theorem ofBe_concat (bytes : Bytes) (b : UInt8) : ofBe (bytes ++ [b]) = 256*ofBe bytes+b.toNat := by
  rw [ofBe, reverse_concat, ofLe_cons, Nat.add_comm]
  rfl

theorem padZeros_hexLower_ofBe {bytes : Bytes} (h : bytes ≠ []) :
    padZeros (2*bytes.length) (hexLower (ofBe bytes)) = hexBytes bytes := by
  unfold hexBytes
  induction bytes using List.reverseRecOn with
  | nil => contradiction
  | append_singleton bytes b ih =>
    rw [ofBe_concat, flatMap_append, flatMap_singleton, length_append,
      length_singleton, Nat.mul_add, Nat.mul_one]
    by_cases hempty : bytes = []
    · subst hempty
      rw [← padZeros_hexLower_two b]
      simp [ofBe]
    · have hpos : 0 < 2*bytes.length := by
        have hlength := length_pos_of_ne_nil hempty
        omega
      rw [padZeros_hexLower_byte hpos, ih hempty]

theorem padZeros_hexLower_ofLe {bytes : Bytes} (h : bytes ≠ []) :
    padZeros (2*bytes.length) (hexLower (ofLe bytes)) = hexBytes bytes.reverse := by
  have hreverse : bytes.reverse ≠ [] := by simpa using h
  rw [← padZeros_hexLower_ofBe hreverse, ofBe, reverse_reverse, length_reverse]

end HexText
