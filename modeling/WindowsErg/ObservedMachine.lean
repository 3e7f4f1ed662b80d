import Mathlib.Data.List.Basic

/-! Machines that take one action at a time and show what they did. -/
namespace ObservedMachine
open List
universe u v w
variable {S : Type u} {A : Type v} {O : Type w}

def run (step : S → A → Option (S × List O)) : S → List A → Option (S × List O)
  | s, [] => some (s, [])
  | s, a :: actions =>
    (step s a).bind fun first =>
      (run step first.1 actions).map fun last => (last.1, first.2 ++ last.2)

theorem run_invariant (step : S → A → Option (S × List O)) (Inv : S → List O → Prop)
    (actions : List A)
    (hstep : ∀ a ∈ actions, ∀ s seen next, Inv s seen → step s a = some next →
      Inv next.1 (seen ++ next.2))
    (s : S) (seen : List O) (last : S × List O) (h : Inv s seen)
    (hrun : run step s actions = some last) : Inv last.1 (seen ++ last.2) := by
  induction actions generalizing s seen last with
  | nil =>
    cases hrun
    rwa [append_nil]
  | cons a actions ih =>
    obtain ⟨first, hfirst, hrest⟩ := Option.bind_eq_some_iff.mp hrun
    obtain ⟨final, hfinal, he⟩ := Option.map_eq_some_iff.mp hrest
    -- the observations of the first action join those seen before the run
    have hhead := hstep a mem_cons_self s seen first h hfirst
    have htail := ih (fun b hb => hstep b (mem_cons_of_mem a hb)) first.1
      (seen ++ first.2) final hhead hfinal
    rw [← he, ← append_assoc]
    exact htail

end ObservedMachine
