import Mathlib.Data.Nat.Digits.Defs
import Mathlib.Data.Nat.Digits.Lemmas

/-! Fixed-width unsigned integers as bytes, in both byte orders. -/
namespace ByteCodec
open List

abbrev Bytes := List UInt8

def leBytes : ℕ → ℕ → Bytes
  | 0, _ => []
  | k+1, v => UInt8.ofNat v :: leBytes k (v/256)

def ofLe (bs : Bytes) : ℕ := Nat.ofDigits 256 (bs.map UInt8.toNat)

def beBytes (k v : ℕ) : Bytes := (leBytes k v).reverse

def ofBe (bs : Bytes) : ℕ := ofLe bs.reverse

@[simp] theorem leBytes_length (k v : ℕ) : (leBytes k v).length = k := by
  induction k generalizing v with
  | zero => rfl
  | succ k ih => simp [leBytes, ih]

@[simp] theorem beBytes_length (k v : ℕ) : (beBytes k v).length = k := by
  simp [beBytes]

@[simp] theorem ofLe_nil : ofLe [] = 0 := rfl

theorem ofLe_cons (b : UInt8) (bs : Bytes) : ofLe (b :: bs) = b.toNat+256*ofLe bs := by
  simp [ofLe, Nat.ofDigits_cons]

theorem ofLe_lt (bs : Bytes) : ofLe bs < 256^bs.length := by
  induction bs with
  | nil => simp
  | cons b bs ih =>
    have hb := b.toNat_lt
    rw [ofLe_cons, length_cons, pow_succ]
    omega

theorem ofBe_lt (bs : Bytes) : ofBe bs < 256^bs.length := by
  simpa [ofBe] using ofLe_lt bs.reverse

theorem ofLe_leBytes (k v : ℕ) (h : v < 256^k) : ofLe (leBytes k v) = v := by
  induction k generalizing v with
  | zero => simp at h; simp [leBytes, h]
  | succ k ih =>
    have hq : v/256 < 256^k := by
      rw [pow_succ] at h
      omega
    rw [leBytes, ofLe_cons, ih _ hq, UInt8.toNat_ofNat']
    omega

theorem leBytes_ofLe (bs : Bytes) : leBytes bs.length (ofLe bs) = bs := by
  induction bs with
  | nil => rfl
  | cons b bs ih =>
    have hb := b.toNat_lt
    have hq : (b.toNat+256*ofLe bs)/256 = ofLe bs := by omega
    rw [ofLe_cons, length_cons, leBytes, hq, ih]
    congr 1
    apply UInt8.toNat_inj.mp
    rw [UInt8.toNat_ofNat']
    omega

theorem ofBe_beBytes (k v : ℕ) (h : v < 256^k) : ofBe (beBytes k v) = v := by
  simp [ofBe, beBytes, ofLe_leBytes k v h]

theorem beBytes_ofBe (bs : Bytes) : beBytes bs.length (ofBe bs) = bs := by
  have h := leBytes_ofLe bs.reverse
  rw [length_reverse] at h
  simp [beBytes, ofBe, h]

theorem getD_of_drop {xs rest : Bytes} {i : ℕ} {x : UInt8} (h : xs.drop i = x :: rest) :
    xs.getD i default = x := by
  have hget := congrArg (·.getD 0 default) h
  simpa [List.getD] using hget

theorem drop_add_of_drop {xs rest : Bytes} {i : ℕ} (front : Bytes) (h : xs.drop i = front ++ rest) :
    xs.drop (i+front.length) = rest := by
  rw [← drop_drop, h, drop_left]

end ByteCodec
