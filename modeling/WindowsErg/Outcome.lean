import Mathlib.Data.List.Basic

/-! Fallible computations with early return: a computation succeeds exactly when
each of its steps does. -/
namespace Outcome
open List

universe u v
variable {ε : Type u} {α β : Type v}

def okOr (o : Option α) (e : ε) : Except ε α :=
  match o with
  | some a => .ok a
  | none => .error e

def ensure (p : Prop) [Decidable p] (e : ε) : Except ε Unit := if p then .ok () else .error e

@[simp] theorem okOr_eq_ok_iff (o : Option α) (e : ε) (a : α) :
    okOr o e = .ok a ↔ o = some a := by
  cases o <;> simp [okOr]

@[simp] theorem ensure_eq_ok_iff (p : Prop) [Decidable p] (e : ε) (u : Unit) :
    ensure p e = .ok u ↔ p := by
  by_cases hp : p <;> simp [ensure, hp]

@[simp] theorem bind_eq_ok_iff (x : Except ε α) (f : α → Except ε β) (b : β) :
    (x >>= f) = .ok b ↔ ∃ a, x = .ok a ∧ f a = .ok b := by
  cases x with
  | error e => simp [Bind.bind, Except.bind]
  | ok a => simp [Bind.bind, Except.bind]

@[simp] theorem pure_eq_ok_iff (a b : α) : (pure a : Except ε α) = .ok b ↔ a = b := by
  simp [pure, Except.pure]

theorem mapM_some_length (f : α → Option β) (xs : List α) (ys : List β)
    (h : xs.mapM f = some ys) : xs.length = ys.length := by
  induction xs generalizing ys with
  | nil =>
    have hn : ys = [] := by simpa using h
    simp [hn]
  | cons x xs ih =>
    simp only [mapM_cons, Option.bind_eq_bind, Option.bind_eq_some_iff, Option.pure_def,
      Option.some.injEq] at h
    obtain ⟨y, -, zs, hz, rfl⟩ := h
    simp [ih zs hz]

theorem mapM_some_mem (f : α → Option β) (xs : List α) (ys : List β)
    (h : xs.mapM f = some ys) (y : β) (hy : y ∈ ys) : ∃ x ∈ xs, f x = some y := by
  induction xs generalizing ys with
  | nil => simp_all
  | cons x xs ih =>
    simp only [mapM_cons, Option.bind_eq_bind, Option.bind_eq_some_iff, Option.pure_def,
      Option.some.injEq] at h
    obtain ⟨z, hx, zs, hz, rfl⟩ := h
    rcases mem_cons.mp hy with rfl | hy
    · exact ⟨x, by simp, hx⟩
    · obtain ⟨w, hw, hf⟩ := ih zs hz hy
      exact ⟨w, by simp [hw], hf⟩

theorem mapM_some_image {f : α → Option β} {xs : List α} {ys : List β} {x : α}
    (h : xs.mapM f = some ys) (hx : x ∈ xs) : ∃ y ∈ ys, f x = some y := by
  induction xs generalizing ys with
  | nil => exact absurd hx not_mem_nil
  | cons z xs ih =>
    simp only [mapM_cons, Option.bind_eq_bind, Option.bind_eq_some_iff, Option.pure_def,
      Option.some.injEq] at h
    obtain ⟨y, hy, zs, hzs, rfl⟩ := h
    rcases mem_cons.mp hx with rfl | hx
    · exact ⟨y, mem_cons_self, hy⟩
    · obtain ⟨w, hw, hf⟩ := ih hzs hx
      exact ⟨w, mem_cons_of_mem _ hw, hf⟩

theorem exists_mapM {f : α → Option β} {xs : List α} (h : ∀ x ∈ xs, ∃ y, f x = some y) :
    ∃ ys, xs.mapM f = some ys := by
  induction xs with
  | nil => exact ⟨[], by simp⟩
  | cons x xs ih =>
    obtain ⟨y, hy⟩ := h x mem_cons_self
    obtain ⟨ys, hys⟩ := ih fun z hz => h z (mem_cons_of_mem _ hz)
    exact ⟨y :: ys, by simp [hy, hys]⟩

theorem mapM_some_mono {f g : α → Option β} {xs : List α} {ys : List β}
    (hfg : ∀ x ∈ xs, ∀ y, f x = some y → g x = some y) (h : xs.mapM f = some ys) :
    xs.mapM g = some ys := by
  induction xs generalizing ys with
  | nil => simpa using h
  | cons x xs ih =>
    simp only [mapM_cons, Option.bind_eq_bind, Option.bind_eq_some_iff, Option.pure_def,
      Option.some.injEq] at h
    obtain ⟨y, hy, zs, hzs, rfl⟩ := h
    have hrest := ih (fun z hz => hfg z (mem_cons_of_mem _ hz)) hzs
    simp [hfg x mem_cons_self y hy, hrest]

theorem map_of_mapM_some {f : α → Option β} {g : β → α} {xs : List α} {ys : List β}
    (hg : ∀ x y, f x = some y → g y = x) (h : xs.mapM f = some ys) : ys.map g = xs := by
  induction xs generalizing ys with
  | nil =>
    have hnil : ys = [] := by simpa using h
    rw [hnil, map_nil]
  | cons x xs ih =>
    simp only [mapM_cons, Option.bind_eq_bind, Option.bind_eq_some_iff, Option.pure_def,
      Option.some.injEq] at h
    obtain ⟨y, hy, zs, hzs, rfl⟩ := h
    rw [map_cons, hg x y hy, ih hzs]

theorem mapM_some_of_mem (f : α → Option β) (xs : List α) (ys : List β)
    (h : xs.mapM f = some ys) (x : α) (hx : x ∈ xs) : ∃ y, f x = some y := by
  obtain ⟨y, -, hy⟩ := mapM_some_image h hx
  exact ⟨y, hy⟩

end Outcome
