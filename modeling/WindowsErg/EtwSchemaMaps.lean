import WindowsErg.EtwSchemaCache

/-! What the label text of a bitmap still tells about the value of a field, `src/etw/schema.rs`. -/
namespace WindowsErg.Etw
open Option List TextScan

def HasBit (v : UInt64) (bit : ℕ) : Prop := v.toNat.testBit bit = true

variable {v w : UInt64}

theorem hasBit_ext (h : ∀ bit, HasBit v bit ↔ HasBit w bit) : v = w := by
  apply UInt64.toNat_inj.mp
  apply Nat.eq_of_testBit_eq
  intro bit
  exact Bool.eq_iff_iff.mpr (h bit)

theorem and_eq_right_iff (v k : UInt64) : v &&& k = k ↔ ∀ bit, HasBit k bit → HasBit v bit := by
  unfold HasBit
  constructor
  · intro h bit hbit
    rw [← h, UInt64.toNat_and, Nat.testBit_and, Bool.and_eq_true] at hbit
    exact hbit.1
  · intro h
    apply hasBit_ext
    intro bit
    rw [HasBit, UInt64.toNat_and, Nat.testBit_and, Bool.and_eq_true]
    exact ⟨fun hboth => hboth.2, fun hbit => ⟨h bit hbit, hbit⟩⟩

def withBit (v : UInt64) (bit : ℕ) : UInt64 := v ||| UInt64.ofNat (2^bit)

variable {bit : ℕ}

theorem hasBit_withBit (hbit : bit < 64) (i : ℕ) :
    HasBit (withBit v bit) i ↔ HasBit v i ∨ i = bit := by
  have hpow : (UInt64.ofNat (2^bit)).toNat = 2^bit := by
    rw [UInt64.toNat_ofNat', Nat.mod_eq_of_lt]
    exact Nat.pow_lt_pow_right (by decide) hbit
  rw [HasBit, withBit, UInt64.toNat_or, Nat.testBit_or, hpow, Nat.testBit_two_pow, Bool.or_eq_true,
    decide_eq_true_eq, HasBit]
  exact or_congr_right eq_comm

theorem HasBit.lt (h : HasBit v bit) : bit < 64 := by
  by_contra hlarge
  have hsmall : v.toNat < 2^bit :=
    lt_of_lt_of_le v.toNat_lt (Nat.pow_le_pow_right (by decide) (Nat.not_lt.mp hlarge))
  rw [HasBit, Nat.testBit_lt_two_pow hsmall] at h
  cases h

def MapDefinition.labelOf (map : MapDefinition) (value : EventFieldValue) : Option Text :=
  ((extractNumericValue value).bind map.renderNumeric).or
    ((extractTextValue value).bind map.renderText)

structure IsBitmap (map : MapDefinition) : Prop where
  kind : map.kind = .bitmap
  numeric : ∀ entry ∈ map.entries, ∃ k, entry.key = .numeric k
  nodup : (map.entries.map (·.label)).Nodup
  separated : ∀ entry ∈ map.entries, '|' ∉ entry.label

def LosesNoBits (map : MapDefinition) : Prop :=
  ∀ first second text, map.labelOf first = some text → map.labelOf second = some text →
    extractNumericValue first = extractNumericValue second

/-- Next to each key the map has a name for every further bit: an entry with this bit and otherwise
only bits of the key. -/
def NamesEveryBit (map : MapDefinition) : Prop :=
  ∀ entry ∈ map.entries, ∀ k, entry.key = .numeric k → k ≠ 0 → ∀ bit < 64, ¬ HasBit k bit →
    ∃ other ∈ map.entries, ∃ k', other.key = .numeric k' ∧ HasBit k' bit ∧
      ∀ i, HasBit k' i → HasBit k i ∨ i = bit

def Inside (v : UInt64) (entry : MapEntry) : Prop :=
  ∃ k, entry.key = .numeric k ∧ k ≠ 0 ∧ ∀ bit, HasBit k bit → HasBit v bit

theorem bitLabel_eq_some_iff (v : UInt64) (entry : MapEntry) (label : Text) :
    MapDefinition.bitLabel v entry = some label ↔ Inside v entry ∧ entry.label = label := by
  unfold MapDefinition.bitLabel Inside
  cases hkey : entry.key with
  | numeric k =>
    simp only [ite_none_right_eq_some, Option.some.injEq, and_eq_right_iff,
      MapKey.numeric.injEq, exists_eq_left', ne_eq]
  | text k => simp

variable {entry : MapEntry}

section
variable {k : UInt64} (hbit : bit < 64)
    (hnone : ∀ k', entry.key = .numeric k' → HasBit k' bit → ¬ ∀ i, HasBit k' i → HasBit k i ∨ i = bit)
include hbit hnone

theorem inside_withBit :
    Inside (withBit k bit) entry ↔ Inside k entry := by
  constructor
  · rintro ⟨k', hkey', hk', hin⟩
    have honly : ∀ i, HasBit k' i → HasBit k i ∨ i = bit :=
      fun i hi => (hasBit_withBit hbit i).mp (hin i hi)
    refine ⟨k', hkey', hk', ?_⟩
    intro i hi
    rcases honly i hi with hki | rfl
    · exact hki
    · exact absurd honly (hnone k' hkey' hi)
  · rintro ⟨k', hkey', hk', hin⟩
    refine ⟨k', hkey', hk', ?_⟩
    intro i hi
    exact (hasBit_withBit hbit i).mpr (Or.inl (hin i hi))

theorem bitLabel_withBit :
    MapDefinition.bitLabel (withBit k bit) entry = MapDefinition.bitLabel k entry := by
  apply Option.ext
  intro label
  rw [bitLabel_eq_some_iff, bitLabel_eq_some_iff, inside_withBit hbit hnone]

end

theorem hasBit_of_inside {map : MapDefinition} (hnames : NamesEveryBit map)
    (hsame : ∀ entry ∈ map.entries, Inside v entry ↔ Inside w entry) (hentry : entry ∈ map.entries)
    (hinside : Inside v entry) (hbit : HasBit v bit) : HasBit w bit := by
  obtain ⟨k, hkey, hk, hin⟩ := (hsame entry hentry).mp hinside
  by_contra hnot
  -- the bit is not in the key, so the map has an entry for it next to the key
  have hout : ¬ HasBit k bit := fun hkbit => hnot (hin bit hkbit)
  obtain ⟨other, hother, k', hkey', hbit', honly⟩ :=
    hnames entry hentry k hkey hk bit hbit.lt hout
  have hk' : k' ≠ 0 := by
    rintro rfl
    exact absurd hbit' (by simp [HasBit])
  -- this entry is inside the first value, and hence inside the second
  have hinsideV : Inside v other := by
    refine ⟨k', hkey', hk', ?_⟩
    intro i hi
    obtain ⟨j, hj, -, hinV⟩ := hinside
    obtain rfl : k = j := MapKey.numeric.inj (hkey.symm.trans hj)
    rcases honly i hi with hki | rfl
    · exact hinV i hki
    · exact hbit
  obtain ⟨j, hj, -, hinW⟩ := (hsame other hother).mp hinsideV
  obtain rfl : k' = j := MapKey.numeric.inj (hkey'.symm.trans hj)
  exact hnot (hinW bit hbit')

section Bitmap
variable {map : MapDefinition} (h : IsBitmap map)
include h

theorem mem_labels_iff (hentry : entry ∈ map.entries) :
    entry.label ∈ map.entries.filterMap (MapDefinition.bitLabel v) ↔ Inside v entry := by
  simp only [mem_filterMap, bitLabel_eq_some_iff]
  constructor
  · rintro ⟨other, hother, hinside, hlabel⟩
    rwa [← inj_on_of_nodup_map h.nodup hother hentry hlabel]
  · intro hinside
    exact ⟨entry, hentry, hinside, rfl⟩

theorem separated_labels (v : UInt64) :
    ∀ label ∈ map.entries.filterMap (MapDefinition.bitLabel v), '|' ∉ label := by
  intro label hlabel
  obtain ⟨entry, hentry, hbit⟩ := mem_filterMap.mp hlabel
  rw [← ((bitLabel_eq_some_iff v entry label).mp hbit).2]
  exact h.separated entry hentry

theorem renderNumeric_cases {text : Text} (htext : map.renderNumeric v = some text) :
    ∃ labels, labels ≠ [] ∧ (∀ label ∈ labels, '|' ∉ label) ∧
      text = List.intercalate ['|'] labels ∧
      (labels = map.entries.filterMap (MapDefinition.bitLabel v) ∨
        v = 0 ∧ ∃ entry ∈ map.entries, entry.key = .numeric 0 ∧ labels = [entry.label]) := by
  rw [MapDefinition.renderNumeric, h.kind] at htext
  dsimp only at htext
  by_cases hempty : map.entries.filterMap (MapDefinition.bitLabel v) = []
  · rw [if_pos hempty] at htext
    obtain ⟨entry, hentry, hfound⟩ := exists_of_findSome?_eq_some htext
    obtain ⟨hkey, hlabel⟩ := ite_none_right_eq_some.mp hfound
    -- a key other than zero is inside the value that it is equal to
    have hzero : v = 0 := by
      by_contra hne
      have hinside : Inside v entry := ⟨v, hkey, hne, fun _ hbit => hbit⟩
      have hmem := (mem_labels_iff h hentry).mpr hinside
      rw [hempty] at hmem
      cases hmem
    subst hzero
    refine ⟨[entry.label], cons_ne_nil _ _, ?_, ?_, Or.inr ⟨rfl, entry, hentry, hkey, rfl⟩⟩
    · intro label hmem
      rw [mem_singleton.mp hmem]
      exact h.separated entry hentry
    · rw [← Option.some.inj hlabel]
      exact intercalate_singleton.symm
  · rw [if_neg hempty] at htext
    exact ⟨_, hempty, separated_labels h v, (Option.some.inj htext).symm, Or.inl rfl⟩

theorem labelOf_u64 (hne : map.entries.filterMap (MapDefinition.bitLabel v) ≠ []) :
    map.labelOf (.u64 v) =
      some (List.intercalate ['|'] (map.entries.filterMap (MapDefinition.bitLabel v))) := by
  have hrender : map.renderNumeric v =
      some (List.intercalate ['|'] (map.entries.filterMap (MapDefinition.bitLabel v))) := by
    rw [MapDefinition.renderNumeric, h.kind]
    exact if_neg hne
  rw [MapDefinition.labelOf, extractNumericValue, bind_some, hrender, some_or]

theorem numeric_of_labelOf {value : EventFieldValue} {text : Text}
    (htext : map.labelOf value = some text) :
    ∃ v, extractNumericValue value = some v ∧ map.renderNumeric v = some text := by
  rcases or_eq_some_iff.mp htext with hnumber | ⟨-, hstring⟩
  · exact bind_eq_some_iff.mp hnumber
  · obtain ⟨s, -, hrender⟩ := bind_eq_some_iff.mp hstring
    obtain ⟨entry, hentry, hlabel⟩ := exists_of_findSome?_eq_some hrender
    obtain ⟨k, hkey⟩ := h.numeric entry hentry
    rw [MapDefinition.textLabel, hkey] at hlabel
    cases hlabel

theorem eq_of_labels_eq (hnames : NamesEveryBit map)
    (hne : map.entries.filterMap (MapDefinition.bitLabel v) ≠ [])
    (heq : map.entries.filterMap (MapDefinition.bitLabel v) =
      map.entries.filterMap (MapDefinition.bitLabel w)) : v = w := by
  have hsame : ∀ entry ∈ map.entries, Inside v entry ↔ Inside w entry := by
    intro entry hentry
    rw [← mem_labels_iff h hentry, ← mem_labels_iff h hentry, heq]
  obtain ⟨label, hlabel⟩ := exists_mem_of_ne_nil _ hne
  obtain ⟨entry, hentry, hbit⟩ := mem_filterMap.mp hlabel
  have hinside := ((bitLabel_eq_some_iff v entry label).mp hbit).1
  apply hasBit_ext
  intro bit
  constructor
  · exact hasBit_of_inside hnames hsame hentry hinside
  · exact hasBit_of_inside hnames (fun e he => (hsame e he).symm) hentry
      ((hsame entry hentry).mp hinside)

theorem labels_ne_zero_label (hentry : entry ∈ map.entries) (hkey : entry.key = .numeric 0) :
    map.entries.filterMap (MapDefinition.bitLabel w) ≠ [entry.label] := by
  intro heq
  have hmem : entry.label ∈ map.entries.filterMap (MapDefinition.bitLabel w) := by
    rw [heq]
    exact mem_singleton.mpr rfl
  obtain ⟨k, hk, hne, -⟩ := (mem_labels_iff h hentry).mp hmem
  exact hne (MapKey.numeric.inj (hk.symm.trans hkey))

theorem renderNumeric_injective (hnames : NamesEveryBit map) {text : Text}
    (hv : map.renderNumeric v = some text) (hw : map.renderNumeric w = some text) : v = w := by
  obtain ⟨labels, hne, hsep, htext, hcases⟩ := renderNumeric_cases h hv
  obtain ⟨labels', hne', hsep', htext', hcases'⟩ := renderNumeric_cases h hw
  -- no label has the separator, so the text splits into the labels again
  have hlabels : labels = labels' := by
    rw [← splitOn_intercalate '|' hsep hne, ← htext, htext', splitOn_intercalate '|' hsep' hne']
  subst hlabels
  rcases hcases with rfl | ⟨rfl, entry, hentry, hkey, rfl⟩
  · rcases hcases' with heq | ⟨-, entry, hentry, hkey, heq⟩
    · exact eq_of_labels_eq h hnames hne heq
    · exact absurd heq (labels_ne_zero_label h hentry hkey)
  · rcases hcases' with heq | ⟨rfl, -⟩
    · exact absurd heq.symm (labels_ne_zero_label h hentry hkey)
    · rfl

/-- The label texts of a bitmap tell the values apart exactly if the map names every bit next to each
key. -/
theorem bitmap_loses_no_bits_iff : LosesNoBits map ↔ NamesEveryBit map := by
  constructor
  · intro hloses entry hentry k hkey hk bit hbit hout
    by_contra hnone
    -- the key and the key with the further bit have the same entries inside them
    have hlabels : map.entries.filterMap (MapDefinition.bitLabel (withBit k bit)) =
        map.entries.filterMap (MapDefinition.bitLabel k) := by
      apply filterMap_congr
      intro other hother
      apply bitLabel_withBit hbit
      intro k' hkey' hbit' honly
      exact hnone ⟨other, hother, k', hkey', hbit', honly⟩
    have hne : map.entries.filterMap (MapDefinition.bitLabel k) ≠ [] := by
      have hmem := (mem_labels_iff h hentry).mpr ⟨k, hkey, hk, fun _ hi => hi⟩
      exact ne_nil_of_mem hmem
    have htext := labelOf_u64 h hne
    have htext' := labelOf_u64 h (v := withBit k bit) (hlabels ▸ hne)
    rw [hlabels] at htext'
    -- so the two values have one label text, and they differ in this bit
    have hvalue : withBit k bit = k := Option.some.inj (hloses _ _ _ htext' htext)
    apply hout
    rw [← hvalue]
    exact (hasBit_withBit hbit bit).mpr (Or.inr rfl)
  · intro hnames first second text hfirst hsecond
    obtain ⟨v, hv, hrender⟩ := numeric_of_labelOf h hfirst
    obtain ⟨w, hw, hrender'⟩ := numeric_of_labelOf h hsecond
    rw [hv, hw, renderNumeric_injective h hnames hrender hrender']

end Bitmap

def allOrNothing : MapDefinition :=
  ⟨.bitmap, [⟨.numeric 0, "none".toList⟩, ⟨.numeric 0xFFFFFFFFFFFFFFFF, "all".toList⟩]⟩

theorem bitmap_loses_no_bits_all_or_nothing : IsBitmap allOrNothing ∧ LosesNoBits allOrNothing := by
  have hbitmap : IsBitmap allOrNothing := by
    refine ⟨rfl, ?_, by decide, by decide⟩
    intro entry hentry
    rcases mem_pair.mp hentry with rfl | rfl
    · exact ⟨0, rfl⟩
    · exact ⟨0xFFFFFFFFFFFFFFFF, rfl⟩
  refine ⟨hbitmap, (bitmap_loses_no_bits_iff hbitmap).mpr ?_⟩
  intro entry hentry k hkey hk bit hbit hout
  rcases mem_pair.mp hentry with rfl | rfl
  · exact absurd (MapKey.numeric.inj hkey).symm hk
  · have hall : ∀ bit < 64, HasBit 0xFFFFFFFFFFFFFFFF bit := by
      unfold HasBit
      decide
    rw [← MapKey.numeric.inj hkey] at hout
    exact absurd (hall bit hbit) hout

/-- With a name for the lowest bit alone, the second bit is dropped. -/
theorem bitmap_drops_bit :
    let map : MapDefinition := ⟨.bitmap, [⟨.numeric 1, "Read".toList⟩]⟩
    map.labelOf (.u32 1) = some "Read".toList ∧ map.labelOf (.u32 3) = some "Read".toList ∧
      ¬ LosesNoBits map := by
  intro map
  have hone : map.labelOf (.u32 1) = some "Read".toList := by decide
  have hthree : map.labelOf (.u32 3) = some "Read".toList := by decide
  refine ⟨hone, hthree, ?_⟩
  intro hloses
  exact absurd (hloses _ _ _ hone hthree) (by decide)

end WindowsErg.Etw
