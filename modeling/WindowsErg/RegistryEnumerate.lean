import WindowsErg.RegistryValues

/-! Enumeration of the subkeys and values of a key, `src/registry/key.rs`. -/
namespace WindowsErg.Registry
open List TextScan UnicodeText

structure KeyContents where
  subkeyNames : List (List UInt16)
  valueNames : List (List UInt16)
  subkey_length : ∀ name ∈ subkeyNames, name.length ≤ 255
  value_length : ∀ name ∈ valueNames, name.length ≤ 16383

def errorNoMoreItems : UInt32 := 259

/-- `RegEnumKeyExW` and `RegEnumValueW` with a buffer of `capacity` units: the name is stored with a
terminator, which the length that is handed back does not count. -/
def regEnum (names : List (List UInt16)) (index capacity : ℕ) : Except UInt32 (List UInt16) :=
  match names[index]? with
  | none => .error errorNoMoreItems
  | some name => if name.length+1 ≤ capacity then .ok name else .error errorMoreData

inductive EnumerateError where
  | windowsApi (errorCode : UInt32)
  -- `index += 1` on 32 bits
  | overflow
  deriving DecidableEq

theorem lt_of_regEnum {names : List (List UInt16)} {index capacity : ℕ} {name : List UInt16}
    (h : regEnum names index capacity = .ok name) : index < names.length := by
  unfold regEnum at h
  split at h
  · cases h
  · next hname => exact (List.getElem?_eq_some_iff.mp hname).1

def enumerateNames (names : List (List UInt16)) (index : ℕ) (found : List Text) :
    Except EnumerateError (List Text) :=
  match _h : regEnum names index 256 with
  | .error code => if code = errorNoMoreItems then .ok found else .error (.windowsApi code)
  | .ok name =>
    if 2^32 ≤ index+1 then .error .overflow
    else enumerateNames names (index+1) (found ++ [decodeUtf16Lossy name])
termination_by names.length-index
decreasing_by
  have hindex := lt_of_regEnum _h
  omega

def subkeys (key : KeyContents) : Except EnumerateError (List Text) :=
  enumerateNames key.subkeyNames 0 []

def valueNames (key : KeyContents) : Except EnumerateError (List Text) :=
  enumerateNames key.valueNames 0 []

theorem enumerateNames_eq_ok_iff (front rest : List (List UInt16)) (found texts : List Text) :
    enumerateNames (front ++ rest) front.length found = .ok texts ↔
      (∀ name ∈ rest, name.length ≤ 255) ∧ (rest ≠ [] → (front ++ rest).length < 2^32) ∧
        texts = found ++ rest.map decodeUtf16Lossy := by
  -- `front` is what the index has passed
  induction rest generalizing front found with
  | nil =>
    have hend : regEnum (front ++ []) front.length 256 = .error errorNoMoreItems := by
      simp [regEnum]
    rw [enumerateNames, hend]
    simp [eq_comm]
  | cons name rest ih =>
    by_cases hfits : name.length+1 ≤ 256
    · have hname : regEnum (front ++ name :: rest) front.length 256 = .ok name := by
        simp [regEnum, hfits]
      have hlength : (front ++ name :: rest).length = front.length+1+rest.length := by
        rw [length_append, length_cons]
        omega
      rw [enumerateNames, hname]
      dsimp only
      by_cases hindex : 2^32 ≤ front.length+1
      · rw [if_pos hindex]
        refine ⟨fun h => (by cases h), fun h => ?_⟩
        have hshort := h.2.1 (cons_ne_nil _ _)
        omega
      · have hstep := ih (front ++ [name]) (found ++ [decodeUtf16Lossy name])
        have hfront : front ++ [name] ++ rest = front ++ name :: rest := by simp
        have hnext : (front ++ [name]).length = front.length+1 := by simp
        rw [hfront, hnext] at hstep
        rw [if_neg hindex, hstep, forall_mem_cons, hlength]
        -- after the last name the index is not raised again
        have hlast : (rest ≠ [] → front.length+1+rest.length < 2^32) ↔
            front.length+1+rest.length < 2^32 := by
          refine ⟨fun h => ?_, fun h _ => h⟩
          cases rest with
          | nil => exact Nat.lt_of_not_le hindex
          | cons second rest => exact h (cons_ne_nil _ _)
        rw [hlast]
        constructor
        · rintro ⟨hrest, hshort, rfl⟩
          exact ⟨⟨by omega, hrest⟩, fun _ => hshort, by simp⟩
        · rintro ⟨⟨-, hrest⟩, hshort, rfl⟩
          exact ⟨hrest, hshort (cons_ne_nil _ _), by simp⟩
    · have hname : regEnum (front ++ name :: rest) front.length 256 = .error errorMoreData := by
        simp [regEnum, hfits]
      have hcode : errorMoreData ≠ errorNoMoreItems := by decide
      rw [enumerateNames, hname]
      dsimp only
      rw [if_neg hcode]
      refine ⟨fun h => (by cases h), fun h => ?_⟩
      have hshort := h.1 name mem_cons_self
      omega

def Complete (result : Except EnumerateError (List Text)) (names : List (List UInt16)) : Prop :=
  ∃ texts, result = .ok texts ∧ texts.map encodeUtf16 = names

theorem complete_enumerateNames_iff (names : List (List UInt16)) :
    Complete (enumerateNames names 0 []) names ↔
      names.length < 2^32 ∧ ∀ name ∈ names, name.length ≤ 255 ∧ WellFormed name := by
  have hloop (texts : List Text) : enumerateNames names 0 [] = .ok texts ↔ _ :=
    enumerateNames_eq_ok_iff [] names [] texts
  have hshort : (names ≠ [] → ([] ++ names).length < 2^32) ↔ names.length < 2^32 := by
    refine ⟨fun h => ?_, fun h _ => h⟩
    cases names with
    | nil => decide
    | cons name names => exact h (cons_ne_nil _ _)
  rw [forall₂_and, ← map_encodeUtf16_decodeUtf16Lossy_iff]
  constructor
  · rintro ⟨texts, hresult, hnames⟩
    obtain ⟨hfits, hindex, rfl⟩ := (hloop texts).mp hresult
    exact ⟨hshort.mp hindex, hfits, hnames⟩
  · rintro ⟨hindex, hfits, hnames⟩
    exact ⟨_, (hloop _).mpr ⟨hfits, hshort.mpr hindex, rfl⟩, hnames⟩

/-- Subkeys are always enumerated, values only if no name has more than 255 units. (A name with an
unpaired surrogate has no text, and an index has 32 bits.) -/
theorem enumeration_complete_iff (key : KeyContents) :
    (Complete (subkeys key) key.subkeyNames ↔
      key.subkeyNames.length < 2^32 ∧ ∀ name ∈ key.subkeyNames, WellFormed name) ∧
    (Complete (valueNames key) key.valueNames ↔
      key.valueNames.length < 2^32 ∧
        ∀ name ∈ key.valueNames, name.length ≤ 255 ∧ WellFormed name) := by
  refine ⟨?_, complete_enumerateNames_iff key.valueNames⟩
  rw [subkeys, complete_enumerateNames_iff]
  -- a buffer of 256 units has room for a subkey's longest name
  refine and_congr_right fun _ => forall₂_congr fun name hname => ?_
  exact and_iff_right (key.subkey_length name hname)

theorem longName_length : ∀ name ∈ [List.replicate 256 (0x61 : UInt16)], name.length ≤ 16383 := by
  intro name hname
  rw [mem_singleton.mp hname, length_replicate]
  decide

def longNameKey : KeyContents where
  subkeyNames := []
  valueNames := [List.replicate 256 0x61]
  subkey_length _ h := absurd h not_mem_nil
  value_length := longName_length

theorem enumeration_stops_at_long_name :
    valueNames longNameKey = .error (.windowsApi 234) := by
  have hname : regEnum longNameKey.valueNames 0 256 = .error errorMoreData := by
    have hone (name : List UInt16) : regEnum [name] 0 256 =
        if name.length+1 ≤ 256 then .ok name else .error errorMoreData := rfl
    rw [longNameKey, hone, length_replicate, if_neg (by decide)]
  rw [valueNames, enumerateNames, hname]
  rfl

end WindowsErg.Registry
