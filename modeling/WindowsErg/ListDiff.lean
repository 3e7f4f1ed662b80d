import Mathlib.Data.Multiset.AddSub
import Mathlib.Data.Multiset.Basic
import Mathlib.Data.List.Count

/-! Difference of two lists taken by membership, compared with the multisets of their elements. -/
namespace ListDiff
open List
variable {α : Type*} [DecidableEq α]

def missing (xs ys : List α) : List α := xs.filter (fun a => !ys.contains a)

theorem count_missing (xs ys : List α) (a : α) :
    (missing xs ys).count a = if a ∈ ys then 0 else xs.count a := by
  unfold missing
  by_cases ha : a ∈ ys
  · rw [if_pos ha, count_eq_zero]
    intro hm
    have hc := (mem_filter.mp hm).2
    simp [ha] at hc
  · rw [if_neg ha]
    apply count_filter
    simp [ha]

theorem patch_eq_iff (xs ys : List α) :
    (xs : Multiset α)-missing xs ys+missing ys xs = ys ↔
      ∀ a ∈ xs, a ∈ ys → xs.count a = ys.count a := by
  have hcount (a : α) : ((xs : Multiset α)-missing xs ys+missing ys xs).count a =
      xs.count a-(if a ∈ ys then 0 else xs.count a)+(if a ∈ xs then 0 else ys.count a) := by
    simp only [Multiset.count_add, Multiset.count_sub, Multiset.coe_count, count_missing]
  have habsent (zs : List α) (a : α) (h : a ∉ zs) : zs.count a = 0 := count_eq_zero.mpr h
  rw [Multiset.ext]
  constructor
  · intro h a hx hy
    have ha := h a
    rw [hcount, Multiset.coe_count, if_pos hx, if_pos hy] at ha
    simpa only [Nat.sub_zero, Nat.add_zero] using ha
  · intro h a
    rw [hcount, Multiset.coe_count]
    -- only an element on both sides is neither removed nor added
    by_cases hx : a ∈ xs <;> by_cases hy : a ∈ ys
    · rw [if_pos hx, if_pos hy, Nat.sub_zero, Nat.add_zero]
      exact h a hx hy
    · rw [if_neg hy, if_pos hx, Nat.sub_self, habsent ys a hy]
    · rw [if_pos hy, if_neg hx, habsent xs a hx, Nat.zero_sub, Nat.zero_add]
    · rw [if_neg hy, if_neg hx, Nat.sub_self, Nat.zero_add]

theorem missing_eq_nil_of_perm (xs ys : List α) (h : xs.Perm ys) : missing xs ys = [] := by
  apply filter_eq_nil_iff.mpr
  intro a ha
  simp [h.mem_iff.mp ha]

theorem count_filterMap (f : α → Option α) (xs : List α) (a : α) :
    (xs.filterMap f).count a =
      (if f a = some a then xs.count a else 0)+
        xs.countP (fun x => decide (x ≠ a ∧ f x = some a)) := by
  induction xs with
  | nil => simp
  | cons x xs ih =>
    have hhead : ((x :: xs).filterMap f).count a =
        (if f x = some a then 1 else 0)+(xs.filterMap f).count a := by
      cases hf : f x with
      | none => simp [hf]
      | some y =>
        rw [filterMap_cons_some hf, count_cons]
        simp only [Option.some.injEq, beq_iff_eq]
        omega
    rw [hhead, ih, count_cons, countP_cons]
    by_cases hx : x = a
    · subst hx
      by_cases hf : f x = some x
      · simp [hf]
        omega
      · simp [hf]
    · simp [hx]
      omega

end ListDiff
