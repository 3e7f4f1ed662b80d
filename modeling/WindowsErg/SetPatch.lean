import Mathlib.Data.Finset.Basic

/-! Sets changed step by step, by additions and removals with distinct keys. -/
namespace SetPatch
open List

inductive Step (K : Type*) where
  | add (k : K)
  | drop (k : K)

namespace Step
variable {K : Type*}

def key : Step K → K
  | add k => k
  | drop k => k

@[simp]
theorem key_add (k : K) : (add k).key = k := rfl

@[simp]
theorem key_drop (k : K) : (drop k).key = k := rfl

end Step

variable {K : Type*} [DecidableEq K]

def apply (s : Finset K) : Step K → Finset K
  | .add k => insert k s
  | .drop k => s.erase k

def replay (s : Finset K) (steps : List (Step K)) : Finset K := steps.foldl apply s

theorem replay_append (s : Finset K) (steps steps' : List (Step K)) :
    replay s (steps ++ steps') = replay (replay s steps) steps' := foldl_append

theorem mem_replay (steps : List (Step K)) (hn : (steps.map Step.key).Nodup) (s : Finset K)
    (k : K) : k ∈ replay s steps ↔ Step.add k ∈ steps ∨ k ∈ s ∧ Step.drop k ∉ steps := by
  induction steps generalizing s with
  | nil => simp [replay]
  | cons step steps ih =>
    rw [map_cons, nodup_cons] at hn
    have hcons : replay s (step :: steps) = replay (apply s step) steps := rfl
    rw [hcons, ih hn.2]
    -- the key of the first step does not come again
    have hadd : Step.add step.key ∉ steps :=
      fun hm => hn.1 (mem_map.mpr ⟨_, hm, Step.key_add _⟩)
    have hdrop : Step.drop step.key ∉ steps :=
      fun hm => hn.1 (mem_map.mpr ⟨_, hm, Step.key_drop _⟩)
    cases step with
    | add k' =>
      by_cases hk : k = k'
      · subst hk
        simp_all [apply]
      · simp [apply, hk]
    | drop k' =>
      by_cases hk : k = k'
      · subst hk
        simp_all [apply]
      · simp [apply, hk]

structure Patch (a b : Finset K) (steps : List (Step K)) : Prop where
  add_mem : ∀ k, Step.add k ∈ steps ↔ k ∈ b ∧ k ∉ a
  drop_mem : ∀ k, Step.drop k ∈ steps ↔ k ∈ a ∧ k ∉ b
  nodup : (steps.map Step.key).Nodup

variable {a b : Finset K} {steps : List (Step K)}

theorem Patch.replay_eq (h : Patch a b steps) : replay a steps = b := by
  ext k
  rw [mem_replay steps h.nodup, h.add_mem, h.drop_mem]
  by_cases ha : k ∈ a <;> by_cases hb : k ∈ b <;> simp [ha, hb]

omit [DecidableEq K] in
theorem Patch.eq_nil_iff (h : Patch a b steps) : steps = [] ↔ a = b := by
  constructor
  · intro hnil
    ext k
    have hadd := h.add_mem k
    have hdrop := h.drop_mem k
    simp only [hnil, not_mem_nil, false_iff, not_and, not_not] at hadd hdrop
    exact ⟨hdrop, hadd⟩
  · rintro rfl
    apply eq_nil_iff_forall_not_mem.mpr
    intro step hstep
    cases step with
    | add k =>
      obtain ⟨hin, hout⟩ := (h.add_mem k).mp hstep
      exact hout hin
    | drop k =>
      obtain ⟨hin, hout⟩ := (h.drop_mem k).mp hstep
      exact hout hin

omit [DecidableEq K] in
theorem Patch.perm (h : Patch a b steps) {steps' : List (Step K)} (hp : steps'.Perm steps) :
    Patch a b steps' :=
  ⟨fun k => hp.mem_iff.trans (h.add_mem k), fun k => hp.mem_iff.trans (h.drop_mem k),
    (hp.map Step.key).nodup_iff.mpr h.nodup⟩

theorem patch_two_passes {as bs : List K} (ha : ∀ k, k ∈ as ↔ k ∈ a) (hb : ∀ k, k ∈ bs ↔ k ∈ b)
    (has : as.Nodup) (hbs : bs.Nodup) :
    Patch a b ((bs.filter fun k => k ∉ a).map Step.add ++
      (as.filter fun k => k ∉ b).map Step.drop) := by
  refine ⟨fun k => ?_, fun k => ?_, ?_⟩
  · simp [hb]
  · simp [ha]
  · have hkeys : List.map Step.key ((bs.filter fun k => k ∉ a).map Step.add ++
        (as.filter fun k => k ∉ b).map Step.drop) =
        (bs.filter fun k => k ∉ a) ++ as.filter fun k => k ∉ b := by
      simp [Function.comp_def]
    rw [hkeys]
    refine nodup_append.mpr ⟨hbs.filter _, has.filter _, ?_⟩
    intro k hk k' hk' heq
    subst heq
    have hnew := (mem_filter.mp hk).1
    have hgone := (mem_filter.mp hk').2
    exact (of_decide_eq_true hgone) ((hb k).mp hnew)

end SetPatch
