import Mathlib.Algebra.Order.BigOperators.Group.List
import Mathlib.Algebra.Order.Ring.Nat
import Mathlib.Data.List.Nodup
import Mathlib.Data.List.Perm.Subperm
import Mathlib.Data.List.TakeWhile

/-! Items in one sequence, with a delimiter after each of them or between any two. -/
namespace DelimitedItems
open List
universe u
variable {α : Type u}

def room (items : List (List α)) : ℕ := (items.map fun item => item.length+1).sum

@[simp]
theorem room_nil : room ([] : List (List α)) = 0 := rfl

@[simp]
theorem room_cons (item : List α) (items : List (List α)) :
    room (item :: items) = item.length+1+room items := rfl

def terminated (delimiter : α) (items : List (List α)) : List α :=
  items.flatMap fun item => item ++ [delimiter]

theorem terminated_cons (delimiter : α) (item : List α) (items : List (List α)) :
    terminated delimiter (item :: items) = item ++ delimiter :: terminated delimiter items := by
  simp [terminated]

theorem terminated_append (delimiter : α) (first second : List (List α)) :
    terminated delimiter (first ++ second) =
      terminated delimiter first ++ terminated delimiter second :=
  flatMap_append

theorem length_terminated (delimiter : α) (items : List (List α)) :
    (terminated delimiter items).length = room items := by
  induction items with
  | nil => rfl
  | cons item items ih =>
    rw [terminated_cons, length_append, length_cons, ih, room_cons]
    omega

variable {items : List (List α)}

theorem length_intercalate (delimiter : α) (h : items ≠ []) :
    ([delimiter].intercalate items).length+1 = room items := by
  induction items with
  | nil => contradiction
  | cons item items ih =>
    cases items with
    | nil => simp
    | cons second items =>
      have hrest := ih (cons_ne_nil _ _)
      rw [intercalate_cons_cons, length_append, length_append, room_cons, ← hrest, length_singleton]
      omega

theorem terminated_eq_intercalate (delimiter : α) (h : items ≠ []) :
    terminated delimiter items = [delimiter].intercalate items ++ [delimiter] := by
  induction items with
  | nil => contradiction
  | cons item items ih =>
    cases items with
    | nil => simp [terminated]
    | cons second items =>
      rw [terminated_cons, ih (cons_ne_nil _ _), intercalate_cons_cons, append_assoc, append_assoc]
      rfl

theorem exists_intercalate_concat {delimiter : α} (hne : items ≠ [])
    (h : ∀ item ∈ items, item ≠ [] ∧ delimiter ∉ item) :
    ∃ front last, [delimiter].intercalate items = front ++ [last] ∧ last ≠ delimiter := by
  induction items with
  | nil => contradiction
  | cons item items ih =>
    cases items with
    | nil =>
      obtain ⟨hitem, hfree⟩ := h item mem_cons_self
      refine ⟨item.dropLast, item.getLast hitem, ?_, ?_⟩
      · rw [intercalate_singleton, dropLast_append_getLast]
      · intro hlast
        exact hfree (hlast ▸ getLast_mem hitem)
    | cons second items =>
      obtain ⟨front, last, hrest, hlast⟩ :=
        ih (cons_ne_nil _ _) fun item hitem => h item (mem_cons_of_mem _ hitem)
      refine ⟨item ++ [delimiter] ++ front, last, ?_, hlast⟩
      rw [intercalate_cons_cons, hrest]
      simp only [append_assoc]

theorem mem_intercalate_iff {a delimiter : α} (h : a ≠ delimiter) (items : List (List α)) :
    a ∈ [delimiter].intercalate items ↔ ∃ item ∈ items, a ∈ item := by
  induction items with
  | nil => simp
  | cons item items ih =>
    cases items with
    | nil => simp
    | cons second items =>
      rw [intercalate_cons_cons, mem_append, mem_append, ih]
      simp [h]

theorem sum_le_of_subset {β : Type u} (size : β → ℕ) {items others : List β} (hnodup : items.Nodup)
    (hsubset : items ⊆ others) : (items.map size).sum ≤ (others.map size).sum := by
  obtain ⟨front, hperm, hsublist⟩ := subperm_of_subset hnodup hsubset
  rw [← (hperm.map size).sum_eq]
  exact (hsublist.map size).sum_le_sum fun n _ => Nat.zero_le n

section Front
variable [DecidableEq α]

def frontItems (delimiter : α) (data : List α) : List (List α) :=
  let item := data.takeWhile (· ≠ delimiter)
  if item = [] then [] else item :: frontItems delimiter (data.drop (item.length+1))
termination_by data.length
decreasing_by
  have hshort := (List.takeWhile_prefix (l := data) fun a => decide (a ≠ delimiter)).length_le
  have hpos : 0 < (data.takeWhile fun a => decide (a ≠ delimiter)).length :=
    length_pos_iff.mpr (by assumption)
  rw [length_drop]
  omega

variable {delimiter : α}

variable {item : List α}

theorem takeWhile_item (h : delimiter ∉ item) (rest : List α) :
    (item ++ rest).takeWhile (· ≠ delimiter) = item ++ rest.takeWhile (· ≠ delimiter) := by
  apply takeWhile_append_of_pos
  intro a ha
  simpa using ne_of_mem_of_not_mem ha h

theorem frontItems_delimiter (rest : List α) : frontItems delimiter (delimiter :: rest) = [] := by
  rw [frontItems]
  simp

theorem frontItems_nil : frontItems delimiter [] = [] := by
  rw [frontItems]
  simp

theorem frontItems_item (hne : item ≠ []) (h : delimiter ∉ item) :
    frontItems delimiter item = [item] := by
  have hitem : item.takeWhile (· ≠ delimiter) = item := by
    simpa using takeWhile_item h []
  rw [frontItems, hitem, if_neg hne, drop_eq_nil_of_le (Nat.le_succ _), frontItems_nil]

theorem frontItems_cons (hne : item ≠ []) (h : delimiter ∉ item) (rest : List α) :
    frontItems delimiter (item ++ delimiter :: rest) = item :: frontItems delimiter rest := by
  have hitem : (item ++ delimiter :: rest).takeWhile (· ≠ delimiter) = item := by
    simpa using takeWhile_item h (delimiter :: rest)
  rw [frontItems, hitem, if_neg hne, ← drop_drop, drop_left]
  rfl

theorem frontItems_terminated (h : ∀ item ∈ items, item ≠ [] ∧ delimiter ∉ item) (rest : List α) :
    frontItems delimiter (terminated delimiter items ++ rest) = items ++ frontItems delimiter rest := by
  induction items with
  | nil => rfl
  | cons item items ih =>
    obtain ⟨⟨hne, hitem⟩, hitems⟩ := forall_mem_cons.mp h
    rw [terminated_cons, append_assoc, cons_append, frontItems_cons hne hitem, ih hitems,
      cons_append]

theorem frontItems_cut (h : ∀ item ∈ items, item ≠ [] ∧ delimiter ∉ item) {data : List α}
    (hdata : data <+: terminated delimiter items ++ [delimiter])
    (hlength : room items ≤ data.length+1) : frontItems delimiter data = items := by
  have hroom := length_terminated delimiter items
  have htake := prefix_iff_eq_take.mp hdata
  -- nothing is missing, or the last delimiter, or that of the last item as well
  by_cases hfull : (terminated delimiter items ++ [delimiter]).length ≤ data.length
  · rw [hdata.eq_of_length_le hfull, frontItems_terminated h, frontItems_delimiter, append_nil]
  rw [length_append, length_singleton, hroom] at hfull
  by_cases hlast : data.length = room items
  · rw [hlast, ← hroom, take_left] at htake
    rw [htake, ← append_nil (terminated delimiter items), frontItems_terminated h, frontItems_nil,
      append_nil]
  · rcases eq_nil_or_concat' items with rfl | ⟨front, last, rfl⟩
    · rw [room_nil] at hlast hfull
      omega
    · -- the delimiter of the last item is lost
      have hsplit : terminated delimiter (front ++ [last]) ++ [delimiter] =
          (terminated delimiter front ++ last) ++ [delimiter, delimiter] := by
        simp [terminated]
      have hfront : data = terminated delimiter front ++ last := by
        have hsize : data.length = (terminated delimiter front ++ last).length := by
          rw [terminated_append, length_append, terminated_cons] at hroom
          simp only [length_append, length_cons, terminated, flatMap_nil,
            length_nil] at hroom hfull hlast hlength ⊢
          omega
        rw [htake, hsplit, hsize, take_left]
      obtain ⟨hfrontItems, hlastItem⟩ := forall_mem_append.mp h
      obtain ⟨hne, hmem⟩ := hlastItem last mem_cons_self
      rw [hfront, frontItems_terminated hfrontItems, frontItems_item hne hmem]

theorem notMem_of_mem_frontItems {data : List α} (h : item ∈ frontItems delimiter data) :
    delimiter ∉ item := by
  induction hlength : data.length using Nat.strong_induction_on generalizing data with
  | _ n ih =>
    rw [frontItems] at h
    split at h
    · simp at h
    · next hne =>
      have hpos := length_pos_iff.mpr hne
      have hshort := (List.takeWhile_prefix (l := data) fun a => decide (a ≠ delimiter)).length_le
      rcases mem_cons.mp h with rfl | hrest
      · intro hmem
        simpa using mem_takeWhile_imp hmem
      · apply ih _ _ hrest rfl
        rw [length_drop]
        omega

theorem room_frontItems_le (data : List α) : room (frontItems delimiter data) ≤ data.length+1 := by
  induction hlength : data.length using Nat.strong_induction_on generalizing data with
  | _ n ih =>
    rw [frontItems]
    split
    · simp
    · next hne =>
      have hpos := length_pos_iff.mpr hne
      have hshort := (List.takeWhile_prefix (l := data) fun a => decide (a ≠ delimiter)).length_le
      rw [room_cons]
      by_cases hend : (data.takeWhile fun a => decide (a ≠ delimiter)).length = data.length
      · -- the last item ends with the data
        rw [drop_eq_nil_of_le (by omega), frontItems_nil, room_nil]
        omega
      · have hrest := ih _ (by rw [length_drop]; omega)
          (data.drop ((data.takeWhile fun a => decide (a ≠ delimiter)).length+1)) rfl
        rw [length_drop] at hrest
        omega

end Front

end DelimitedItems
