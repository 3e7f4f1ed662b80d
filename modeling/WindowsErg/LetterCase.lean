import WindowsErg.TextScan

/-! Lower case: of ASCII letters only, and of all letters as far as that concerns ASCII. -/
namespace LetterCase
open List TextScan

def Ascii (c : Char) : Prop := c.toNat < 128

instance (c : Char) : Decidable (Ascii c) := inferInstanceAs (Decidable (_ < _))

theorem toNat_toLower (c : Char) :
    c.toLower.toNat = if 65 ≤ c.toNat ∧ c.toNat ≤ 90 then c.toNat+32 else c.toNat := by
  have hrange : (c.val ≥ 'A'.val ∧ c.val ≤ 'Z'.val) ↔ 65 ≤ c.toNat ∧ c.toNat ≤ 90 :=
    and_congr UInt32.le_iff_toNat_le UInt32.le_iff_toNat_le
  delta Char.toLower
  split
  · rename_i hupper
    have hletter := hrange.mp hupper
    rw [if_pos hletter]
    change (c.val+32).toNat = c.val.toNat+32
    rw [UInt32.toNat_add]
    change (c.toNat+32)%4294967296 = c.toNat+32
    omega
  · rename_i hother
    rw [if_neg (mt hrange.mpr hother)]

theorem ascii_toLower_iff (c : Char) : Ascii c.toLower ↔ Ascii c := by
  unfold Ascii
  rw [toNat_toLower]
  split <;> omega

theorem toLower_toLower (c : Char) : c.toLower.toLower = c.toLower := by
  apply Char.toNat_inj.mp
  rw [toNat_toLower c.toLower, toNat_toLower c, if_neg]
  split <;> omega

theorem ascii_ofList {s : Text} (h : (s.all fun c => decide (Ascii c)) = true) :
    ∀ c ∈ (String.ofList s).toList, Ascii c := by
  rw [String.toList_ofList]
  simpa using h

theorem ascii_of_eqIgnoreAsciiCase {s t : Text} (h : eqIgnoreAsciiCase s t = true)
    (hs : ∀ c ∈ s, Ascii c) : ∀ c ∈ t, Ascii c := by
  have hsame : s.map Char.toLower = t.map Char.toLower := of_decide_eq_true h
  intro c hc
  have hlower : c.toLower ∈ s.map Char.toLower := hsame ▸ mem_map_of_mem hc
  obtain ⟨d, hd, hcase⟩ := mem_map.mp hlower
  rw [← ascii_toLower_iff, ← hcase, ascii_toLower_iff]
  exact hs d hd

/-- The Kelvin sign, the one letter outside of ASCII whose lower case is an ASCII letter. -/
def kelvinSign : Char := '\u212A'

structure LowerMapping where
  lower (before : Text) (c : Char) (after : Text) : Text
  ascii : ∀ before c after, Ascii c → lower before c after = [c.toLower]
  kelvin : ∀ before after, lower before kelvinSign after = ['k']
  other : ∀ before c after, ¬ Ascii c → c ≠ kelvinSign → ∃ d ∈ lower before c after, ¬ Ascii d

variable (m : LowerMapping)

def lowerFrom : Text → Text → Text
  | _, [] => []
  | before, c :: after => m.lower before c after ++ lowerFrom (before ++ [c]) after

def toLowercase (s : Text) : Text := lowerFrom m [] s

def withoutKelvin (s : Text) : Text := s.map fun c => if c = kelvinSign then 'k' else c

def LowersToAscii (c : Char) : Prop := Ascii c ∨ c = kelvinSign

theorem lowersToAscii_iff (c : Char) :
    LowersToAscii c ↔ Ascii (if c = kelvinSign then 'k' else c) := by
  unfold LowersToAscii
  split
  · rename_i hkelvin
    exact iff_of_true (Or.inr hkelvin) (by decide)
  · rename_i hother
    exact or_iff_left hother

theorem withoutKelvin_of_notMem {s : Text} (h : kelvinSign ∉ s) : withoutKelvin s = s := by
  rw [withoutKelvin, ← map_id s, map_map]
  apply map_congr_left
  intro c hc
  exact if_neg (ne_of_mem_of_not_mem hc h)

theorem lowerFrom_of_lowersToAscii {s : Text} (h : ∀ c ∈ s, LowersToAscii c) (before : Text) :
    lowerFrom m before s = (withoutKelvin s).map Char.toLower := by
  induction s generalizing before with
  | nil => rfl
  | cons c s ih =>
    obtain ⟨hc, hs⟩ := forall_mem_cons.mp h
    have hcons : withoutKelvin (c :: s) = (if c = kelvinSign then 'k' else c) :: withoutKelvin s := rfl
    rw [lowerFrom, ih hs, hcons, map_cons]
    rcases hc with hascii | rfl
    · have hne : c ≠ kelvinSign := by
        rintro rfl
        exact absurd hascii (by decide)
      rw [m.ascii before c s hascii, if_neg hne]
      rfl
    · rw [m.kelvin before s, if_pos rfl]
      rfl

theorem lowersToAscii_of_lowerFrom {s before : Text} (h : ∀ c ∈ lowerFrom m before s, Ascii c) :
    ∀ c ∈ s, LowersToAscii c := by
  induction s generalizing before with
  | nil => simp
  | cons c s ih =>
    rw [lowerFrom, forall_mem_append] at h
    refine forall_mem_cons.mpr ⟨?_, ih h.2⟩
    -- any other letter leaves something in the text that is not ASCII
    by_contra hnot
    obtain ⟨hascii, hkelvin⟩ := not_or.mp hnot
    obtain ⟨d, hd, hwide⟩ := m.other before c s hascii hkelvin
    exact hwide (h.1 d hd)

theorem eqIgnoreAsciiCase_toLowercase {key : Text} (hkey : ∀ c ∈ key, Ascii c) (s : Text) :
    eqIgnoreAsciiCase key (toLowercase m s) = eqIgnoreAsciiCase key (withoutKelvin s) := by
  by_cases hs : ∀ c ∈ s, LowersToAscii c
  · have hlower : (toLowercase m s).map Char.toLower = (withoutKelvin s).map Char.toLower := by
      rw [toLowercase, lowerFrom_of_lowersToAscii m hs, map_map]
      exact map_congr_left fun c _ => toLower_toLower c
    rw [eqIgnoreAsciiCase, eqIgnoreAsciiCase, hlower]
  · have hwide : ¬ eqIgnoreAsciiCase key (toLowercase m s) = true := fun h =>
      hs (lowersToAscii_of_lowerFrom m (ascii_of_eqIgnoreAsciiCase h hkey))
    have hkelvin : ¬ eqIgnoreAsciiCase key (withoutKelvin s) = true := by
      intro h
      apply hs
      intro c hc
      rw [lowersToAscii_iff]
      exact ascii_of_eqIgnoreAsciiCase h hkey _ (mem_map_of_mem hc)
    rw [Bool.eq_false_of_not_eq_true hwide, Bool.eq_false_of_not_eq_true hkelvin]

def LowerMapping.narrow : LowerMapping where
  lower _ c _ := if c = kelvinSign then ['k'] else [c.toLower]
  ascii _ c _ hascii := if_neg (by rintro rfl; exact absurd hascii (by decide))
  kelvin _ _ := if_pos rfl
  other _ c _ hwide hkelvin := ⟨c.toLower, by simp [hkelvin], mt (ascii_toLower_iff c).mp hwide⟩

end LetterCase
