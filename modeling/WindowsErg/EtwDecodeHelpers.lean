import WindowsErg.EtwSchema
import WindowsErg.SecuritySidText

/-! The SID decoder of kernel events, `src/etw/decode/helpers.rs`, beside the two others. -/
namespace WindowsErg.Etw
open Option List TextScan ByteCodec

namespace Decode

def appendSubAuthorities (sid : Bytes) : ℕ → ℕ → Text → Text × ℕ
  | 0, start, id => (id, start)
  | k+1, start, id =>
    if start+4 > sid.length then (id, start)
    else
      let authority := ofLe ((sid.drop start).take 4)
      appendSubAuthorities sid k (start+4) (id ++ '-' :: decimal authority)

def sidToStringWithSize (sid : Bytes) : Option (Text × ℕ) :=
  if sid.length < 8 then none
  else
    let subauthorityCount := (sid.getD 1 0).toNat
    let identifierAuthority :=
      ofBe ((sid.drop 2).take 2) <<< 32 ||| ofBe ((sid.drop 4).take 4)
    let id := "S-".toList ++ decimal (sid.getD 0 0).toNat ++ '-' :: decimal identifierAuthority
    some (appendSubAuthorities sid subauthorityCount 8 id)

end Decode

theorem security_appendSubAuthorities (sid : Bytes) (k start : ℕ) (id : Text)
    (hstart : start ≤ sid.length) :
    Security.appendSubAuthorities sid k start id =
      if start+4*k ≤ sid.length then some (Decode.appendSubAuthorities sid k start id)
      else none := by
  induction k generalizing start id with
  | zero =>
    rw [if_pos (by omega)]
    rfl
  | succ k ih =>
    rw [Security.appendSubAuthorities, Decode.appendSubAuthorities]
    by_cases hfit : start+4 > sid.length
    · rw [if_pos hfit, if_pos hfit, if_neg (by omega)]
    · rw [if_neg hfit, if_neg hfit]
      dsimp only
      rw [ih (start+4) _ (by omega)]
      have hcount : start+4+4*k = start+4*(k+1) := by omega
      rw [hcount]

theorem appendSubAuthorities_of_fits (sid : Bytes) (k start : ℕ) (id : Text)
    (hfits : start+4*k ≤ sid.length) :
    Decode.appendSubAuthorities sid k start id =
      (id ++ subAuthoritiesText k (sid.drop start), start+4*k) := by
  induction k generalizing start id with
  | zero => simp [Decode.appendSubAuthorities, subAuthoritiesText]
  | succ k ih =>
    have hlen : start+4+4*k = start+4*(k+1) := by omega
    rw [Decode.appendSubAuthorities, if_neg (by omega)]
    dsimp only
    rw [ih (start+4) _ (by omega), subAuthoritiesText, drop_drop, hlen]
    simp

theorem subAuthoritiesText_take (k : ℕ) (subs : Bytes) :
    subAuthoritiesText k (subs.take (4*k)) = subAuthoritiesText k subs := by
  induction k generalizing subs with
  | zero => rfl
  | succ k ih =>
    have hfirst : (subs.take (4*(k+1))).take 4 = subs.take 4 := by
      rw [take_take, Nat.min_eq_left (by omega)]
    have hrest : (subs.take (4*(k+1))).drop 4 = (subs.drop 4).take (4*k) := by
      rw [drop_take]
      congr 1
    rw [subAuthoritiesText, subAuthoritiesText, hfirst, hrest, ih]

def declaredSidLength (sid : Bytes) : ℕ := 8+4*(sid.getD 1 0).toNat

theorem getD_take {i n : ℕ} (data : Bytes) (h : i < n) : (data.take n).getD i 0 = data.getD i 0 := by
  simp [getD_eq_getElem?_getD, h]

theorem authority_eq (data : Bytes) (h : 8 ≤ data.length) :
    ofBe ((data.drop 2).take 2) <<< 32 ||| ofBe ((data.drop 4).take 4) =
      ofBe ((data.take 8).drop 2) := by
  have hsix : ((data.take 8).drop 2).length = 6 := by
    rw [length_drop, length_take]
    omega
  have hparts := Security.ofBe_two_four ((data.take 8).drop 2) hsix
  rw [drop_drop, drop_take, drop_take, take_take, take_take] at hparts
  rw [drop_take]
  exact hparts

theorem parseSid_eq_security (data : Bytes) : parseSid data = Security.sidToStringWithSize data := by
  unfold Security.sidToStringWithSize
  by_cases h8 : data.length < 8
  · rw [if_pos h8]
    simp [parseSid, firstBytes, Nat.not_le.mpr h8]
  · have h : 8 ≤ data.length := by omega
    rw [if_neg h8]
    dsimp only
    rw [security_appendSubAuthorities _ _ _ _ h, authority_eq data h]
    have hcount : (data.take 8).getD 1 0 = data.getD 1 0 := getD_take data (by omega)
    have hrev : (data.take 8).getD 0 0 = data.getD 0 0 := getD_take data (by omega)
    unfold parseSid
    simp only [firstBytes, h, ↓reduceIte, bind_eq_bind, bind_some, hcount, hrev]
    by_cases hfits : 8+4*(data.getD 1 0).toNat ≤ data.length
    · have hsubs : (data.take (8+4*(data.getD 1 0).toNat)).drop 8 =
          (data.drop 8).take (4*(data.getD 1 0).toNat) := by
        rw [drop_take, Nat.add_sub_cancel_left]
      rw [if_pos hfits, if_pos hfits, appendSubAuthorities_of_fits _ _ _ _ hfits]
      simp only [map_some, bind_some, hsubs, subAuthoritiesText_take]
      rfl
    · rw [if_neg hfits, if_neg hfits]
      rfl

theorem decode_eq_security_iff (data : Bytes) :
    Decode.sidToStringWithSize data = Security.sidToStringWithSize data ↔
      data.length < 8 ∨ declaredSidLength data ≤ data.length := by
  unfold Decode.sidToStringWithSize Security.sidToStringWithSize declaredSidLength
  by_cases h8 : data.length < 8
  · simp [h8]
  · have h : 8 ≤ data.length := by omega
    simp only [h8, ↓reduceIte, false_or]
    rw [security_appendSubAuthorities _ _ _ _ h]
    constructor
    · intro heq
      by_contra hfits
      rw [if_neg hfits] at heq
      contradiction
    · intro hfits
      rw [if_pos hfits]

theorem Decode.sidToStringWithSize_append {sid : Bytes} (h8 : 8 ≤ sid.length)
    (hfits : declaredSidLength sid ≤ sid.length)
    (rest : Bytes) :
    Decode.sidToStringWithSize (sid ++ rest) = Decode.sidToStringWithSize sid := by
  have hget (i : ℕ) (hi : i < 8) : (sid ++ rest).getD i 0 = sid.getD i 0 := by
    rw [getD_eq_getElem?_getD, List.getElem?_append_left (by omega),
      ← getD_eq_getElem?_getD]
  have hpart (i k : ℕ) (hi : i+k ≤ 8) :
      ((sid ++ rest).drop i).take k = (sid.drop i).take k := by
    rw [drop_append_of_le_length (by omega), take_append_of_le_length]
    rw [length_drop]
    omega
  have hsubs (k : ℕ) (hk : 8+4*k ≤ sid.length) :
      subAuthoritiesText k ((sid ++ rest).drop 8) = subAuthoritiesText k (sid.drop 8) := by
    rw [← subAuthoritiesText_take, ← subAuthoritiesText_take k (sid.drop 8),
      drop_append_of_le_length h8, take_append_of_le_length]
    rw [length_drop]
    omega
  unfold declaredSidLength at hfits
  unfold Decode.sidToStringWithSize
  rw [if_neg (by rw [length_append]; omega), if_neg (by omega)]
  dsimp only
  rw [hget 0 (by omega), hget 1 (by omega), hpart 2 2 (by omega), hpart 4 4 (by omega),
    appendSubAuthorities_of_fits _ _ _ _ hfits, appendSubAuthorities_of_fits, hsubs _ hfits]
  rw [length_append]
  omega

theorem Decode.sidToStringWithSize_bytes (v : Security.SidValue) (rest : Bytes) :
    Decode.sidToStringWithSize (v.bytes ++ rest) = some (v.text, v.bytes.length) := by
  have hlen : v.bytes.length = 8+4*v.subAuthorities.length := by
    simp [Security.SidValue.bytes, Nat.mul_comm]
    omega
  have hcount : (v.bytes.getD 1 0).toNat = v.subAuthorities.length := by
    have hle := v.count_le
    change (UInt8.ofNat v.subAuthorities.length).toNat = _
    rw [UInt8.toNat_ofNat']
    omega
  have hfits : declaredSidLength v.bytes ≤ v.bytes.length := by
    rw [declaredSidLength, hcount, hlen]
  rw [Decode.sidToStringWithSize_append (by omega) hfits,
    (decode_eq_security_iff v.bytes).mpr (Or.inr hfits),
    Security.sidToStringWithSize_bytes]

/-- The three decoders agree on a slice exactly when it is too short for a header or has every
sub-authority that its header declares. -/
theorem sid_decoders_agree_iff (data : Bytes) :
    (parseSid data = Security.sidToStringWithSize data ∧
      Decode.sidToStringWithSize data = Security.sidToStringWithSize data) ↔
      data.length < 8 ∨ declaredSidLength data ≤ data.length := by
  rw [← decode_eq_security_iff]
  constructor
  · intro h
    exact h.2
  · intro h
    exact ⟨parseSid_eq_security data, h⟩

/-- A header that declares one sub-authority and nothing behind it: two decoders refuse it, and
that of the kernel events returns the SID without the sub-authority. -/
theorem sid_decoders_differ_truncated :
    parseSid [1, 1, 0, 0, 0, 0, 0, 5] = none ∧
      Security.sidToStringWithSize [1, 1, 0, 0, 0, 0, 0, 5] = none ∧
      Decode.sidToStringWithSize [1, 1, 0, 0, 0, 0, 0, 5] = some ("S-1-5".toList, 8) := by
  decide

end WindowsErg.Etw
