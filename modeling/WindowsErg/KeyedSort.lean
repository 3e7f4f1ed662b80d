import Mathlib.Data.List.Sort

/-! Sorting by a key: elements with one key keep their order, and a sorted list is the
concatenation of its classes. -/
namespace KeyedSort
open List

variable {α κ : Type*} [LinearOrder κ]

def keyClass (key : α → κ) (k : κ) (l : List α) : List α := l.filter fun a => key a = k

/-- The elements of `l`, with those of each class in the order that they have in `l`. -/
structure StablePerm (key : α → κ) (l' l : List α) : Prop where
  perm : l'.Perm l
  classes : ∀ k, keyClass key k l' = keyClass key k l

theorem mem_keyClass {key : α → κ} {k : κ} {l : List α} {a : α} :
    a ∈ keyClass key k l ↔ a ∈ l ∧ key a = k := by
  simp [keyClass]

theorem pairwise_keyClass (key : α → κ) (k : κ) (l : List α) :
    (keyClass key k l).Pairwise fun a b => key a ≤ key b := by
  apply pairwise_of_forall_mem_list
  intro a ha b hb
  rw [(mem_keyClass.mp ha).2, (mem_keyClass.mp hb).2]

theorem stablePerm_insertionSort (key : α → κ) (l : List α) :
    StablePerm key (l.insertionSort fun a b => key a ≤ key b) l := by
  have hperm := perm_insertionSort (fun a b => key a ≤ key b) l
  refine ⟨hperm, ?_⟩
  intro k
  -- a class is in order already, so sorting keeps it as a sublist, and it has all there is
  have hsub : (keyClass key k l).Sublist (l.insertionSort fun a b => key a ≤ key b) :=
    sublist_insertionSort (pairwise_keyClass key k l) filter_sublist
  have hclass : (keyClass key k l).Sublist
      (keyClass key k (l.insertionSort fun a b => key a ≤ key b)) := by
    have hfilter := hsub.filter fun a => key a = k
    simp only [keyClass, filter_filter, Bool.and_self] at hfilter
    exact hfilter
  exact (hclass.eq_of_length (hperm.filter _).length_eq.symm).symm

theorem keyClass_append_rest (key : α → κ) (k : κ) (l : List α)
    (hl : l.Pairwise fun a b => key a ≤ key b) (hk : ∀ a ∈ l, k ≤ key a) :
    l = keyClass key k l ++ l.filter fun a => key a ≠ k := by
  induction l with
  | nil => rfl
  | cons a l ih =>
    obtain ⟨ha, hrest⟩ := pairwise_cons.mp hl
    have htail := ih hrest fun b hb => hk b (mem_cons_of_mem a hb)
    by_cases hak : key a = k
    · simpa [keyClass, hak] using htail
    · -- a larger key in front: nothing behind it is in the class
      have hlt : k < key a := lt_of_le_of_ne (hk a mem_cons_self) (Ne.symm hak)
      have hnone : keyClass key k l = [] := by
        apply filter_eq_nil_iff.mpr
        intro b hb
        have hab := ha b hb
        simpa using (lt_of_lt_of_le hlt hab).ne'
      rw [hnone, nil_append] at htail
      have hempty : keyClass key k (a :: l) = [] := by
        rw [keyClass, filter_cons_of_neg (by simpa using hak)]
        exact hnone
      rw [hempty, nil_append, filter_cons_of_pos (by simpa using hak), ← htail]

theorem eq_flatMap_keyClass (key : α → κ) (ks : List κ) (hks : ks.Pairwise (· < ·)) (l : List α)
    (hl : l.Pairwise fun a b => key a ≤ key b) (hmem : ∀ a ∈ l, key a ∈ ks) :
    l = ks.flatMap fun k => keyClass key k l := by
  induction ks generalizing l with
  | nil =>
    cases l with
    | nil => rfl
    | cons a l => exact absurd (hmem a mem_cons_self) not_mem_nil
  | cons k ks ih =>
    obtain ⟨hk, hrest⟩ := pairwise_cons.mp hks
    have hleast : ∀ a ∈ l, k ≤ key a := by
      intro a ha
      rcases mem_cons.mp (hmem a ha) with he | hin
      · exact he.ge
      · exact (hk _ hin).le
    have htail := ih hrest (l.filter fun a => key a ≠ k) (hl.filter _) (by
      intro a ha
      obtain ⟨hal, hne⟩ := mem_filter.mp ha
      exact (mem_cons.mp (hmem a hal)).resolve_left (by simpa using hne))
    -- the classes of the larger keys lie in the part behind the first class
    have hclasses : (ks.flatMap fun k' => keyClass key k' (l.filter fun a => key a ≠ k)) =
        ks.flatMap fun k' => keyClass key k' l := by
      apply flatMap_congr
      intro k' hk'
      rw [keyClass, filter_filter]
      apply filter_congr
      intro a _
      have hne := (hk k' hk').ne'
      by_cases hak : key a = k'
      · simp [hak, hne]
      · simp [hak]
    rw [flatMap_cons, ← hclasses, ← htail]
    exact keyClass_append_rest key k l hl hleast

end KeyedSort
