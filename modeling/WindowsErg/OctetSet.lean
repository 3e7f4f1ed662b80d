import Mathlib.Data.Nat.Bitwise
import Mathlib.Data.List.Basic

/-! Sets of bytes as four words of 64 bits. -/

/-- The byte `o` is bit `o % 64` of word `o / 64`. -/
structure OctetSet where
  words : Vector UInt64 4
  deriving DecidableEq, Repr

namespace OctetSet

def empty : OctetSet := ⟨Vector.replicate 4 0⟩

def wordIndex (o : UInt8) : Fin 4 :=
  ⟨(o/64).toNat, by
    rw [UInt8.toNat_div]
    have ho := o.toNat_lt
    change o.toNat/64 < 4
    omega⟩

def contains (s : OctetSet) (o : UInt8) : Bool :=
  (s.words[wordIndex o] >>> (o%64).toUInt64) &&& 1 == 1

def insert (s : OctetSet) (o : UInt8) : OctetSet :=
  ⟨s.words.set (wordIndex o) (s.words[wordIndex o] ||| (1 <<< (o%64).toUInt64))⟩

def insertAll (s : OctetSet) (octets : List UInt8) : OctetSet := octets.foldl insert s

theorem toNat_bitIndex (o : UInt8) : (o%64).toUInt64.toNat = o.toNat%64 := by
  rw [UInt8.toNat_toUInt64, UInt8.toNat_mod]
  rfl

theorem val_wordIndex (o : UInt8) : (wordIndex o : ℕ) = o.toNat/64 := by
  change (o/64).toNat = _
  rw [UInt8.toNat_div]
  rfl

theorem contains_eq_testBit (s : OctetSet) (o : UInt8) :
    s.contains o = (s.words[wordIndex o]).toNat.testBit (o.toNat%64) := by
  have hword (w : UInt64) (i : ℕ) (k : UInt64) (hk : k.toNat = i) (hi : i < 64) :
      (w >>> k &&& 1 == 1) = w.toNat.testBit i := by
    have hbit : (w >>> k &&& 1).toNat = w.toNat >>> i % 2 := by
      rw [UInt64.toNat_and, UInt64.toNat_shiftRight, hk, Nat.mod_eq_of_lt hi]
      exact Nat.and_one_is_mod _
    rw [Bool.eq_iff_iff, beq_iff_eq, ← UInt64.toNat_inj, hbit, Nat.testBit, Nat.one_and_eq_mod_two]
    change w.toNat >>> i % 2 = 1 ↔ _
    rw [bne_iff_ne]
    omega
  exact hword _ _ _ (toNat_bitIndex o) (Nat.mod_lt _ (by decide))

@[simp] theorem contains_empty (o : UInt8) : empty.contains o = false := by
  rw [contains_eq_testBit]
  have hzero : (empty.words[wordIndex o]).toNat = 0 := by
    simp [empty]
  rw [hzero]
  exact Nat.zero_testBit _

theorem testBit_one_shiftLeft_word (i j : ℕ) (hi : i < 64) (k : UInt64) (hk : k.toNat = i)
    (hj : j < 64) :
    ((1 : UInt64) <<< k).toNat.testBit j = decide (i = j) := by
  rw [UInt64.toNat_shiftLeft, hk, Nat.mod_eq_of_lt hi, Nat.testBit_mod_two_pow, decide_eq_true hj,
    Bool.true_and]
  change ((1 <<< i : ℕ)).testBit j = _
  rw [Nat.one_shiftLeft, Nat.testBit_two_pow]

@[simp] theorem contains_insert (s : OctetSet) (o p : UInt8) :
    (s.insert o).contains p = (s.contains p || decide (o = p)) := by
  have hbit (n : UInt8) : n.toNat%64 < 64 := Nat.mod_lt _ (by decide)
  rw [contains_eq_testBit, contains_eq_testBit]
  -- in the same word the bit tells the bytes apart, another word is not touched
  by_cases hw : wordIndex o = wordIndex p
  · have hget : (s.insert o).words[wordIndex p] =
        s.words[wordIndex p] ||| (1 <<< (o%64).toUInt64) := by
      have hsame : s.words[wordIndex o] = s.words[wordIndex p] := by simp only [hw]
      rw [← hsame]
      exact (Vector.getElem_set (wordIndex o).isLt _).trans (if_pos (congrArg Fin.val hw))
    have heq : (o.toNat%64 = p.toNat%64) ↔ o = p := by
      have hdiv : o.toNat/64 = p.toNat/64 := by rw [← val_wordIndex, ← val_wordIndex, hw]
      rw [← UInt8.toNat_inj]
      omega
    rw [hget, UInt64.toNat_or, Nat.testBit_or,
      testBit_one_shiftLeft_word _ _ (hbit o) _ (toNat_bitIndex o) (hbit p), decide_eq_decide.mpr heq]
  · have hget : (s.insert o).words[wordIndex p] = s.words[wordIndex p] :=
      Vector.getElem_set_ne (wordIndex o).isLt _ (fun h => hw (Fin.ext h))
    have hne : o ≠ p := fun h => hw (by rw [h])
    rw [hget, decide_eq_false hne, Bool.or_false]

theorem contains_insertAll (s : OctetSet) (octets : List UInt8) (p : UInt8) :
    (s.insertAll octets).contains p = (s.contains p || decide (p ∈ octets)) := by
  induction octets generalizing s with
  | nil => simp [insertAll]
  | cons o octets ih =>
    have hrest := ih (s.insert o)
    rw [contains_insert] at hrest
    change (insertAll (s.insert o) octets).contains p = _
    have hmem : decide (p ∈ o :: octets) = (decide (o = p) || decide (p ∈ octets)) := by
      rw [← Bool.decide_or, decide_eq_decide, List.mem_cons]
      exact or_congr_left eq_comm
    rw [hrest, Bool.or_assoc, hmem]

end OctetSet
