import Mathlib.Algebra.Group.Nat.Defs
import Mathlib.Data.List.Basic

/-! Computations with checks that stop the program. A computation goes on past a failed check with
numbers that have no bound and records the failure. -/
namespace GuardedRun
open List
universe u

inductive Panic where
  | outOfRange
  | overflow
  deriving DecidableEq, Repr

structure Guarded (α : Type u) where
  value : α
  panics : List Panic

namespace Guarded
variable {α β : Type u}

instance : Monad Guarded where
  pure a := ⟨a, []⟩
  bind x f := ⟨(f x.value).value, x.panics ++ (f x.value).panics⟩

variable (x : Guarded α) (f : α → Guarded β)

@[simp]
theorem value_bind : (x >>= f).value = (f x.value).value := rfl

@[ext]
theorem ext {x y : Guarded α} (hvalue : x.value = y.value) (hpanics : x.panics = y.panics) :
    x = y := by
  cases x
  cases y
  subst hvalue hpanics
  rfl

instance : LawfulMonad Guarded :=
  LawfulMonad.mk' Guarded (fun x => ext rfl (append_nil x.panics)) (fun _ _ => ext rfl rfl)
    fun _ _ _ => ext rfl (append_assoc _ _ _)

def outcome (x : Guarded α) : Except Panic α :=
  match x.panics with
  | [] => .ok x.value
  | panic :: _ => .error panic

theorem outcome_pure (a : α) : outcome (pure a) = .ok a := rfl

def Safe (x : Guarded α) : Prop := x.panics = []

theorem eq_pure_of_safe {x : Guarded α} (h : x.Safe) : x = pure x.value := ext rfl h

theorem exists_outcome_iff : (∃ a, outcome x = .ok a) ↔ x.Safe := by
  unfold outcome Safe
  cases x.panics <;> simp

theorem outcome_eq_ok_iff {x : Guarded α} {a : α} :
    outcome x = .ok a ↔ x.Safe ∧ x.value = a := by
  unfold outcome Safe
  cases x.panics <;> simp

theorem safe_pure (a : α) : (pure a : Guarded α).Safe := rfl

theorem safe_bind : (x >>= f).Safe ↔ x.Safe ∧ (f x.value).Safe :=
  append_eq_nil_iff

def check (p : Prop) [Decidable p] (panic : Panic) : Guarded PUnit :=
  ⟨⟨⟩, if p then [] else [panic]⟩

theorem safe_check (p : Prop) [Decidable p] (panic : Panic) : (check p panic).Safe ↔ p := by
  unfold check Safe
  split <;> simp_all

theorem check_bind {p : Prop} [Decidable p] (h : p) (panic : Panic) (f : PUnit → Guarded β) :
    check p panic >>= f = f ⟨⟩ := by
  unfold check
  rw [if_pos h]
  exact ext rfl rfl

def addIn (bound a b : ℕ) : Guarded ℕ := do
  check (a+b < bound) .overflow
  pure (a+b)

def subIn (a b : ℕ) : Guarded ℕ := do
  check (b ≤ a) .overflow
  pure (a-b)

def mulIn (bound a b : ℕ) : Guarded ℕ := do
  check (a*b < bound) .overflow
  pure (a*b)

variable {bound a b : ℕ}

theorem addIn_eq (h : a+b < bound) : addIn bound a b = pure (a+b) := check_bind h _ _

theorem subIn_eq (h : b ≤ a) : subIn a b = pure (a-b) := check_bind h _ _

theorem mulIn_eq (h : a*b < bound) : mulIn bound a b = pure (a*b) := check_bind h _ _

/-- `xs[i]`. -/
def index [Inhabited α] (xs : List α) (i : ℕ) : Guarded α := do
  check (i < xs.length) .outOfRange
  pure (xs.getD i default)

/-- `&xs[n..]`. -/
def sliceFrom (xs : List α) (n : ℕ) : Guarded (List α) := do
  check (n ≤ xs.length) .outOfRange
  pure (xs.drop n)

/-- `&xs[..n]`. -/
def sliceTo (xs : List α) (n : ℕ) : Guarded (List α) := do
  check (n ≤ xs.length) .outOfRange
  pure (xs.take n)

/-- `&xs[m..n]`. -/
def slice (xs : List α) (m n : ℕ) : Guarded (List α) := do
  check (m ≤ n ∧ n ≤ xs.length) .outOfRange
  pure ((xs.take n).drop m)

/-- `xs[i] = a`. -/
def store (xs : List α) (i : ℕ) (a : α) : Guarded (List α) := do
  check (i < xs.length) .outOfRange
  pure (xs.set i a)

variable {xs : List α}

theorem index_eq [Inhabited α] {i : ℕ} (h : i < xs.length) :
    index xs i = pure (xs.getD i default) := check_bind h _ _

variable {n : ℕ}

theorem sliceFrom_eq (h : n ≤ xs.length) : sliceFrom xs n = pure (xs.drop n) := check_bind h _ _

theorem sliceTo_eq (h : n ≤ xs.length) : sliceTo xs n = pure (xs.take n) := check_bind h _ _

theorem slice_eq {m : ℕ} (h : m ≤ n ∧ n ≤ xs.length) : slice xs m n = pure ((xs.take n).drop m) := check_bind h _ _

theorem store_eq {i : ℕ} (a : α) (h : i < xs.length) : store xs i a = pure (xs.set i a) := check_bind h _ _

theorem safe_addIn : (addIn bound a b).Safe ↔ a+b < bound := by
  rw [addIn, safe_bind, safe_check]
  exact and_iff_left (safe_pure _)

theorem safe_subIn : (subIn a b).Safe ↔ b ≤ a := by
  rw [subIn, safe_bind, safe_check]
  exact and_iff_left (safe_pure _)

theorem safe_index [Inhabited α] {i : ℕ} : (index xs i).Safe ↔ i < xs.length := by
  rw [index, safe_bind, safe_check]
  exact and_iff_left (safe_pure _)

theorem safe_sliceTo : (sliceTo xs n).Safe ↔ n ≤ xs.length := by
  rw [sliceTo, safe_bind, safe_check]
  exact and_iff_left (safe_pure _)

theorem safe_mulIn : (mulIn bound a b).Safe ↔ a*b < bound := by
  rw [mulIn, safe_bind, safe_check]
  exact and_iff_left (safe_pure _)

theorem safe_sliceFrom : (sliceFrom xs n).Safe ↔ n ≤ xs.length := by
  rw [sliceFrom, safe_bind, safe_check]
  exact and_iff_left (safe_pure _)

@[simp]
theorem value_addIn (bound a b : ℕ) : (addIn bound a b).value = a+b := rfl

@[simp]
theorem value_subIn (a b : ℕ) : (subIn a b).value = a-b := rfl

@[simp]
theorem value_mulIn (bound a b : ℕ) : (mulIn bound a b).value = a*b := rfl

theorem safe_map (f : α → β) (x : Guarded α) : (f <$> x).Safe ↔ x.Safe := by
  unfold Safe
  change x.panics ++ [] = [] ↔ _
  rw [append_nil]

theorem safe_mapM (xs : List α) (h : ∀ x ∈ xs, (f x).Safe) : (xs.mapM f).Safe := by
  induction xs with
  | nil => exact safe_pure _
  | cons x xs ih =>
    rw [mapM_cons, safe_bind, safe_bind]
    exact ⟨h x mem_cons_self, ih fun y hy => h y (mem_cons_of_mem _ hy), safe_pure _⟩

section Errors
variable {ε : Type u}

theorem safe_run_bind (x : ExceptT ε Guarded α) (f : α → ExceptT ε Guarded β) :
    (x >>= f).run.Safe ↔ x.run.Safe ∧ ∀ a, x.run.value = .ok a → (f a).run.Safe := by
  rw [ExceptT.run_bind, safe_bind]
  apply and_congr_right'
  cases x.run.value with
  | error e => simp [safe_pure]
  | ok a => simp

theorem value_run_bind (x : ExceptT ε Guarded α) (f : α → ExceptT ε Guarded β) :
    (x >>= f).run.value = x.run.value >>= fun a => (f a).run.value := by
  rw [ExceptT.run_bind, value_bind]
  cases x.run.value <;> rfl

theorem value_run_bind_eq_ok {x : ExceptT ε Guarded α} {f : α → ExceptT ε Guarded β} {b : β} :
    (x >>= f).run.value = .ok b ↔ ∃ a, x.run.value = .ok a ∧ (f a).run.value = .ok b := by
  rw [value_run_bind]
  cases x.run.value with
  | error e =>
    refine iff_of_false ?_ ?_
    · exact nofun
    · rintro ⟨a, ⟨⟩, -⟩
  | ok a =>
    constructor
    · intro h
      exact ⟨a, rfl, h⟩
    · rintro ⟨_, ⟨⟩, h⟩
      exact h

theorem value_run_lift : (liftM x : ExceptT ε Guarded α).run.value = .ok x.value := rfl

theorem safe_run_lift : (liftM x : ExceptT ε Guarded α).run.Safe ↔ x.Safe :=
  safe_map Except.ok x

theorem safe_run_lift_bind (f : α → ExceptT ε Guarded β) :
    ((liftM x : ExceptT ε Guarded α) >>= f).run.Safe ↔ x.Safe ∧ (f x.value).run.Safe := by
  rw [safe_run_bind, safe_run_lift, value_run_lift]
  simp

structure Yields (x : ExceptT ε Guarded α) (Q : α → Prop) : Prop where
  safe : x.run.Safe
  post : ∀ a, x.run.value = .ok a → Q a

theorem Yields.pure {a : α} {Q : α → Prop} (h : Q a) :
    Yields (Pure.pure a : ExceptT ε Guarded α) Q := by
  refine ⟨safe_pure _, ?_⟩
  rintro _ ⟨⟩
  exact h

theorem Yields.throw (e : ε) {Q : α → Prop} :
    Yields (MonadExcept.throw e : ExceptT ε Guarded α) Q := by
  refine ⟨safe_pure _, ?_⟩
  rintro _ ⟨⟩

theorem Yields.lift {x : Guarded α} {Q : α → Prop} (hsafe : x.Safe) (h : Q x.value) :
    Yields (liftM x : ExceptT ε Guarded α) Q := by
  refine ⟨(safe_run_lift x).mpr hsafe, ?_⟩
  rintro _ ⟨⟩
  exact h

theorem Yields.bind {x : ExceptT ε Guarded α} {f : α → ExceptT ε Guarded β} (R : α → Prop)
    {Q : β → Prop} (hx : Yields x R) (hf : ∀ a, R a → Yields (f a) Q) : Yields (x >>= f) Q := by
  refine ⟨(safe_run_bind x f).mpr ⟨hx.safe, fun a ha => (hf a (hx.post a ha)).safe⟩, ?_⟩
  intro b hb
  rw [value_run_bind] at hb
  cases ha : x.run.value with
  | error e =>
    rw [ha] at hb
    cases hb
  | ok a =>
    rw [ha] at hb
    exact (hf a (hx.post a ha)).post b hb

end Errors

theorem safe_option_bind (x : OptionT Guarded α) (f : α → OptionT Guarded β) :
    (x >>= f).run.Safe ↔ x.run.Safe ∧ ∀ a, x.run.value = some a → (f a).run.Safe := by
  rw [OptionT.run_bind, Option.elimM, safe_bind]
  apply and_congr_right'
  cases x.run.value with
  | none => simp [safe_pure]
  | some a => simp

theorem safe_option_lift_bind (f : α → OptionT Guarded β) :
    ((liftM x : OptionT Guarded α) >>= f).run.Safe ↔ x.Safe ∧ (f x.value).run.Safe := by
  have hlift : (liftM x : OptionT Guarded α).run.Safe ↔ x.Safe := by
    unfold Safe
    change x.panics ++ [] = [] ↔ _
    rw [append_nil]
  have hvalue : (liftM x : OptionT Guarded α).run.value = some x.value := rfl
  rw [safe_option_bind, hlift, hvalue]
  simp

end Guarded

/-- `xs.get(first..last)`. -/
def getRange {α : Type u} (xs : List α) (first last : ℕ) : Option (List α) :=
  if first ≤ last ∧ last ≤ xs.length then some ((xs.take last).drop first) else none

/-- `xs.get(first..)`. -/
def getFrom {α : Type u} (xs : List α) (first : ℕ) : Option (List α) :=
  if first ≤ xs.length then some (xs.drop first) else none

def usizeLimit : ℕ := 2^64

def u32Limit : ℕ := 2^32

/-- A slice in memory has at most `isize::MAX` elements of one byte or more. -/
structure Slice (α : Type u) where
  toList : List α
  length_lt : toList.length < 2^63

end GuardedRun
