import Mathlib.Logic.Function.Basic

/-! Tables that remember loaded values under a key. A load that fails is not remembered. -/
namespace MemoTable
universe u v
variable {K : Type u} {V : Type v}

abbrev Table (K : Type u) (V : Type v) := K → Option V

def empty : Table K V := fun _ => none

def getOrLoad [DecidableEq K] (table : Table K V) (key : K) (load : Option V) :
    Option V × Table K V :=
  match table key with
  | some v => (some v, table)
  | none =>
    match load with
    | some v => (some v, Function.update table key (some v))
    | none => (none, table)

def Explained (table : Table K V) (P : K → V → Prop) : Prop :=
  ∀ key v, table key = some v → P key v

theorem explained_empty (P : K → V → Prop) : Explained empty P := by
  intro key v h
  exact absurd h.symm (Option.some_ne_none v)

theorem Explained.mono {table : Table K V} {P Q : K → V → Prop} (h : Explained table P)
    (hPQ : ∀ key v, P key v → Q key v) : Explained table Q :=
  fun key v hv => hPQ key v (h key v hv)

variable [DecidableEq K]

theorem getOrLoad_fst (table : Table K V) (key : K) (load : Option V)
    (h : ∀ v, table key = some v → load = some v) : (getOrLoad table key load).1 = load := by
  unfold getOrLoad
  cases hkey : table key with
  | some v => exact (h v hkey).symm
  | none =>
    cases load with
    | some v => rfl
    | none => rfl

theorem Explained.getOrLoad {table : Table K V} {P : K → V → Prop} (h : Explained table P)
    (key : K) (load : Option V) (hload : ∀ v, load = some v → P key v) :
    Explained (MemoTable.getOrLoad table key load).2 P := by
  unfold MemoTable.getOrLoad
  cases hkey : table key with
  | some v => exact h
  | none =>
    cases load with
    | none => exact h
    | some v =>
      intro key' v' hv'
      change Function.update table key (some v) key' = some v' at hv'
      by_cases he : key' = key
      · subst he
        rw [Function.update_self] at hv'
        exact hload v' hv'
      · rw [Function.update_of_ne he] at hv'
        exact h key' v' hv'

end MemoTable
