import Mathlib.Data.List.Basic
import Mathlib.Data.List.Range

/-! Readers that hand out a byte source in pieces. -/
namespace ChunkedRead
open List
universe u v w x
variable {σ : Type u} {ρ : Type v} {ε : Type w} {α : Type x}

def state (read : ρ → σ → Except ε (List α) × σ) (s : σ) (requests : ℕ → ρ) : ℕ → σ
  | 0 => s
  | n+1 => (read (requests n) (state read s requests n)).2

def output (read : ρ → σ → Except ε (List α) × σ) (s : σ) (requests : ℕ → ρ) (n : ℕ) :
    Except ε (List α) :=
  (read (requests n) (state read s requests n)).1

section
variable (read : ρ → σ → Except ε (List α) × σ) (s : σ) (requests : ℕ → ρ) (n : ℕ)

theorem state_shift :
    state read s requests (n+1) =
      state read (read (requests 0) s).2 (fun i => requests (i+1)) n := by
  induction n with
  | zero => rfl
  | succ n ih =>
    rw [state, ih]
    rfl

theorem output_shift :
    output read s requests (n+1) =
      output read (read (requests 0) s).2 (fun i => requests (i+1)) n := by
  unfold output
  rw [state_shift]

end

def delivered (read : ρ → σ → Except ε (List α) × σ) (s : σ) (requests : ℕ → ρ) : ℕ → List α
  | 0 => []
  | n+1 => delivered read s requests n ++ (output read s requests n).toOption.getD []

theorem delivered_append_pending (read : ρ → σ → Except ε (List α) × σ) (Inv : σ → Prop)
    (pending : σ → List α) (s : σ) (requests : ℕ → ρ) (hs : Inv s)
    (hstep : ∀ n, Inv (state read s requests n) → Inv (state read s requests (n+1)) ∧
      pending (state read s requests n) =
        (output read s requests n).toOption.getD [] ++ pending (state read s requests (n+1)))
    (n : ℕ) :
    Inv (state read s requests n) ∧
      pending s = delivered read s requests n ++ pending (state read s requests n) := by
  induction n with
  | zero => exact ⟨hs, rfl⟩
  | succ n ih =>
    obtain ⟨hinv, hsplit⟩ := ih
    obtain ⟨hnext, htaken⟩ := hstep n hinv
    refine ⟨hnext, ?_⟩
    rw [hsplit, htaken, delivered, append_assoc]

/-- From a state with the invariant, a good read succeeds with the front part of what is
pending, keeps the invariant, and returns nothing only at the end. -/
def Delivers (read : ρ → σ → Except ε (List α) × σ) (Inv : σ → Prop) (Good : ρ → Prop)
    (pending : σ → List α) : Prop :=
  ∀ r s, Good r → Inv s → ∃ out, (read r s).1 = .ok out ∧ Inv (read r s).2 ∧
    pending s = out ++ pending (read r s).2 ∧ (out = [] → pending s = [])

section
variable {read : ρ → σ → Except ε (List α) × σ} {Inv : σ → Prop} {Good : ρ → Prop}
  {pending : σ → List α}

theorem Delivers.output_of_pending_nil (h : Delivers read Inv Good pending) (n : ℕ) (s : σ)
    (hs : Inv s) (hnil : pending s = []) (requests : ℕ → ρ) (hr : ∀ i, Good (requests i)) :
    output read s requests n = .ok [] := by
  induction n generalizing s requests with
  | zero =>
    obtain ⟨out, hout, -, hsplit, -⟩ := h (requests 0) s (hr 0) hs
    obtain ⟨rfl, -⟩ := append_eq_nil_iff.mp (hsplit.symm.trans hnil)
    exact hout
  | succ n ih =>
    obtain ⟨out, -, hinv, hsplit, -⟩ := h (requests 0) s (hr 0) hs
    obtain ⟨-, hnil'⟩ := append_eq_nil_iff.mp (hsplit.symm.trans hnil)
    rw [output_shift]
    exact ih _ hinv hnil' _ (fun i => hr (i+1))

theorem Delivers.exists_chunks (h : Delivers read Inv Good pending) (s : σ) (hs : Inv s)
    (requests : ℕ → ρ) (hr : ∀ i, Good (requests i)) :
    ∃ chunks : List (List α), chunks.length ≤ (pending s).length ∧
      chunks.flatten = pending s ∧ ∀ n, output read s requests n = .ok (chunks.getD n []) := by
  -- the length of what is pending drops with every read until nothing is left
  induction hlen : (pending s).length using Nat.strong_induction_on generalizing s requests with
  | _ len ih =>
    by_cases hnil : pending s = []
    · refine ⟨[], by simp, by simp [hnil], ?_⟩
      intro n
      exact h.output_of_pending_nil n s hs hnil requests hr
    · obtain ⟨out, hout, hinv, hsplit, hend⟩ := h (requests 0) s (hr 0) hs
      have hpos : 0 < out.length := length_pos_of_ne_nil (fun he => hnil (hend he))
      have hshort : (pending s).length = out.length+(pending (read (requests 0) s).2).length := by
        rw [hsplit, length_append]
      obtain ⟨chunks, hle, hflat, hnext⟩ :=
        ih _ (by omega) _ hinv (fun i => requests (i+1)) (fun i => hr (i+1)) rfl
      refine ⟨out :: chunks, ?_, ?_, ?_⟩
      · rw [length_cons]
        omega
      · rw [flatten_cons, hflat, hsplit]
      · intro n
        cases n with
        | zero => exact hout
        | succ n =>
          rw [output_shift, hnext]
          rfl

end

def slice (content : ℕ → α) (offset n : ℕ) : List α := (List.range' offset n).map content

@[simp] theorem length_slice (content : ℕ → α) (offset n : ℕ) :
    (slice content offset n).length = n := by
  simp [slice]

theorem slice_append (content : ℕ → α) (offset m n : ℕ) :
    slice content offset m ++ slice content (offset+m) n = slice content offset (m+n) := by
  unfold slice
  rw [← map_append, List.range'_append_1]

theorem take_slice (content : ℕ → α) (offset : ℕ) {m n : ℕ} (h : m ≤ n) :
    (slice content offset n).take m = slice content offset m := by
  have hsplit := slice_append content offset m (n-m)
  rw [Nat.add_sub_cancel' h] at hsplit
  rw [← hsplit, take_left' (length_slice _ _ _)]

theorem flatMap_slice_blocks (content : ℕ → α) (size start n : ℕ) :
    (List.range' start n).flatMap (fun c => slice content (c*size) size) =
      slice content (start*size) (n*size) := by
  induction n generalizing start with
  | zero => simp [slice]
  | succ n ih =>
    rw [List.range'_succ, flatMap_cons, ih, Nat.succ_mul start, slice_append,
      Nat.succ_mul n, Nat.add_comm size]

end ChunkedRead
