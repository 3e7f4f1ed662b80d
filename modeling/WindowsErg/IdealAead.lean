import Mathlib.Data.List.Basic

/-! Ideal authenticated encryption: a log of what was sealed. -/
namespace IdealAead
universe u
variable {K N H M C : Type u}

structure Entry (K N H M C : Type u) where
  key : K
  nonce : N
  aad : H
  plaintext : M
  box : C
  deriving DecidableEq

/-- Under one key, a box stands for one sealing. -/
def Binding (log : List (Entry K N H M C)) : Prop :=
  ∀ e ∈ log, ∀ e' ∈ log, e.key = e'.key → e.box = e'.box → e = e'

def Fresh (log : List (Entry K N H M C)) (entry : Entry K N H M C) : Prop :=
  ∀ e ∈ log, e.key = entry.key → e.box = entry.box → e = entry

theorem binding_nil : Binding ([] : List (Entry K N H M C)) := by
  intro e he
  contradiction

theorem fresh_nil (entry : Entry K N H M C) : Fresh [] entry := by
  intro e he
  contradiction

theorem Binding.cons {log : List (Entry K N H M C)} {entry : Entry K N H M C} (h : Binding log)
    (hfresh : Fresh log entry) : Binding (entry :: log) := by
  intro e he e' he' hkey hbox
  rw [List.mem_cons] at he he'
  rcases he with rfl | he
  · rcases he' with rfl | he'
    · rfl
    · exact (hfresh e' he' hkey.symm hbox.symm).symm
  · rcases he' with rfl | he'
    · exact hfresh e he hkey hbox
    · exact h e he e' he' hkey hbox

variable [DecidableEq K] [DecidableEq N] [DecidableEq H] [DecidableEq C]

def openBox (log : List (Entry K N H M C)) (key : K) (nonce : N) (aad : H) (box : C) : Option M :=
  (log.find? fun e => e.key = key ∧ e.nonce = nonce ∧ e.aad = aad ∧ e.box = box).map Entry.plaintext

theorem openBox_eq {log : List (Entry K N H M C)} (h : Binding log) {entry : Entry K N H M C}
    (hentry : entry ∈ log) (nonce : N) (aad : H) :
    openBox log entry.key nonce aad entry.box =
      if nonce = entry.nonce ∧ aad = entry.aad then some entry.plaintext else none := by
  unfold openBox
  split_ifs with hsame
  · obtain ⟨rfl, rfl⟩ := hsame
    obtain ⟨e, he⟩ : ∃ e, log.find? (fun e => e.key = entry.key ∧ e.nonce = entry.nonce ∧
        e.aad = entry.aad ∧ e.box = entry.box) = some e := by
      rw [← Option.isSome_iff_exists, List.find?_isSome]
      exact ⟨entry, hentry, by simp⟩
    have hfound := List.find?_some he
    simp only [decide_eq_true_eq] at hfound
    have heq : e = entry :=
      h e (List.mem_of_find?_eq_some he) entry hentry hfound.1 hfound.2.2.2
    rw [he, heq, Option.map_some]
  · rw [Option.map_eq_none_iff, List.find?_eq_none]
    intro e he hfound
    simp only [decide_eq_true_eq] at hfound
    obtain ⟨hkey, rfl, rfl, hbox⟩ := hfound
    rw [h e he entry hentry hkey hbox] at hsame
    exact hsame ⟨rfl, rfl⟩

end IdealAead
