import Mathlib.Algebra.Order.Ring.Nat
import Mathlib.Tactic.Common

/-! Sums of digits whose carry is added back in at the low end. -/
namespace EndAroundSum

def carry (m s : ℕ) : ℕ := s%(m+1)+s/(m+1)

/-- The representative from 1 to `m` of a number modulo `m`; only zero stays zero. -/
def endAround (m n : ℕ) : ℕ := if n = 0 then 0 else (n-1)%m+1

theorem endAround_zero (m : ℕ) : endAround m 0 = 0 := rfl

variable {m : ℕ}

theorem endAround_le (hm : 0 < m) (n : ℕ) : endAround m n ≤ m := by
  unfold endAround
  split
  · exact Nat.zero_le m
  · exact Nat.mod_lt (n-1) hm

theorem endAround_mod (m n : ℕ) : endAround m n%m = n%m := by
  unfold endAround
  split
  · rename_i hn
    rw [hn]
  · rw [Nat.mod_add_mod]
    congr 1
    omega

theorem carry_of_le {s : ℕ} (h : s ≤ m) : carry m s = s := by
  have hlow : s%(m+1) = s := Nat.mod_eq_of_lt (by omega)
  have hhigh : s/(m+1) = 0 := Nat.div_eq_of_lt (by omega)
  rw [carry, hlow, hhigh, Nat.add_zero]

theorem carry_of_gt {s : ℕ} (hgt : m < s) (hle : s ≤ 2*m) : carry m s = s-m := by
  have hhigh : s/(m+1) = 1 := Nat.div_eq_of_lt_le (by omega) (by omega)
  have hlow : s%(m+1) = s-(m+1) := by
    rw [Nat.mod_eq_sub_mod (by omega), Nat.mod_eq_of_lt (by omega)]
  rw [carry, hlow, hhigh]
  omega

theorem carry_endAround (hm : 0 < m) (n : ℕ) {w : ℕ} (hw : w ≤ m) :
    carry m (endAround m n+w) = endAround m (n+w) := by
  by_cases hn : n = 0
  · subst hn
    rw [endAround_zero, Nat.zero_add, carry_of_le hw]
    unfold endAround
    split
    · assumption
    · rw [Nat.mod_eq_of_lt (by omega)]
      omega
  · have hr : (n-1)%m < m := Nat.mod_lt (n-1) hm
    have hsum : (n+w-1)%m = ((n-1)%m+w)%m := by
      rw [Nat.mod_add_mod]
      congr 1
      omega
    rw [endAround, if_neg hn, endAround, if_neg (by omega), hsum]
    generalize (n-1)%m = r at hr ⊢
    -- the sum of the low digits is below `2*m`, so that it wraps at most once
    by_cases hwrap : r+w < m
    · rw [carry_of_le (by omega), Nat.mod_eq_of_lt hwrap]
      omega
    · have hmod : (r+w)%m = r+w-m := by
        rw [Nat.mod_eq_sub_mod (by omega), Nat.mod_eq_of_lt (by omega)]
      rw [carry_of_gt (by omega) (by omega), hmod]
      omega

end EndAroundSum
