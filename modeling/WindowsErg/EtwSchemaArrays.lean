import WindowsErg.EtwSchemaSpans

/-! Arrays in a payload: how many bytes the decoder takes for one. -/
namespace WindowsErg.Etw
open List TextScan ByteCodec UnicodeText GuardedRun Guarded Checked

/-- The values of a property are of `s` bytes by its types: a type that the decoder does not know can
be of any size, texts and SIDs are of none. -/
structure ElementOfSize (prop : PropertyMeta) (s : ℕ) : Prop where
  pos : 0 < s
  not_text : prop.inType ≠ tdhInTypeUnicodeString ∧ prop.inType ≠ tdhInTypeAnsiString ∧
    prop.inType ≠ tdhInTypeSid
  inType : ∀ k, inTypeSize prop.inType = some k → k = s
  pointer : prop.inType = tdhInTypePointer → s = 4 ∨ s = 8
  outType : ∀ k, outTypeSize prop.outType = some k → k = s
  boolean : prop.outType = tdhOutTypeBoolean → s = 1 ∨ s = 4
  not_socket : prop.outType ≠ tdhOutTypeSocketAddress

section Element
variable {prop : PropertyMeta} {s : ℕ} (h : ElementOfSize prop s) {data : Bytes} (hdata : s ≤ data.length)
include h hdata

theorem ElementOfSize.overrideBytes_declared (hlength : prop.length.toNat = s) :
    overrideBytes prop data = none ∨ overrideBytes prop data = some s := by
  unfold overrideBytes
  cases hout : outTypeSize prop.outType with
  | some k =>
    rw [h.outType k hout]
    exact Or.inr (sized_of_le hdata)
  | none =>
    change unsizedOverrideBytes prop data = none ∨ unsizedOverrideBytes prop data = some s
    rw [unsizedOverrideBytes, if_neg h.not_socket, hlength]
    by_cases hboolean : prop.outType = tdhOutTypeBoolean
    · rw [if_pos hboolean]
      rcases h.boolean hboolean with rfl | rfl
      · exact Or.inr (sized_of_le hdata)
      · rw [if_pos ⟨le_rfl, hdata⟩]
        exact Or.inr (sized_of_le hdata)
    · rw [if_neg hboolean]
      split
      · exact Or.inr rfl
      · exact Or.inl rfl

theorem ElementOfSize.inTypeBytes_declared (hlength : prop.length.toNat = s) :
    inTypeBytes prop data = some s := by
  cases hin : inTypeSize prop.inType with
  | some k =>
    have hk := h.inType k hin
    rw [inTypeBytes_of_size hin (by omega), hk]
    exact sized_of_le hdata
  | none =>
    by_cases hpointer : prop.inType = tdhInTypePointer
    · rw [inTypeBytes_pointer hpointer, hlength]
      rcases h.pointer hpointer with rfl | rfl
      · exact sized_of_le hdata
      · exact sized_of_le hdata
    · rw [inTypeBytes_of_none hin hpointer h.not_text.2.2, if_neg h.not_text.1, if_neg h.not_text.2.1,
        hlength, if_pos h.pos, min_eq_left hdata]

theorem ElementOfSize.parseOneValue_declared (hlength : prop.length.toNat = s) :
    (Etw.parseOneValue prop data).map Prod.snd = some s := by
  rw [parseOneValue_bytes, h.inTypeBytes_declared hdata hlength]
  rcases h.overrideBytes_declared hdata hlength with hover | hover <;> rw [hover] <;> rfl

theorem ElementOfSize.parseOneValue_undeclared (hlength : prop.length.toNat = 0) :
    (Etw.parseOneValue prop data).map Prod.snd =
      if outTypeSize prop.outType ≠ none then some s
      else if prop.outType = tdhOutTypeBoolean then some 1
      else if prop.inType = tdhInTypePointer then sized 8 data
      else if inTypeSize prop.inType ≠ none then some s
      else some data.length := by
  rw [parseOneValue_bytes, overrideBytes]
  cases hout : outTypeSize prop.outType with
  | some k =>
    rw [h.outType k hout, if_pos (by simp), Option.elim_some, sized_of_le hdata, Option.some_or]
  | none =>
    rw [if_neg (by simp), Option.elim_none, unsizedOverrideBytes, if_neg h.not_socket, hlength]
    by_cases hboolean : prop.outType = tdhOutTypeBoolean
    · have hone : 1 ≤ data.length := h.pos.trans_le hdata
      rw [if_pos hboolean, if_pos hboolean, if_neg (by omega), sized_of_le hone, Option.some_or]
    · rw [if_neg hboolean, if_neg hboolean, if_neg (by omega), Option.none_or]
      by_cases hpointer : prop.inType = tdhInTypePointer
      · rw [if_pos hpointer, inTypeBytes_pointer hpointer, hlength]
        rfl
      · rw [if_neg hpointer]
        cases hin : inTypeSize prop.inType with
        | some k =>
          rw [if_pos (by simp), inTypeBytes_of_size hin (by omega), h.inType k hin, sized_of_le hdata]
        | none =>
          rw [if_neg (by simp), inTypeBytes_of_none hin hpointer h.not_text.2.2, if_neg h.not_text.1,
            if_neg h.not_text.2.1, hlength, if_neg (lt_irrefl 0)]

end Element

def SingleFits (prop : PropertyMeta) (n s rest : ℕ) : Prop :=
  prop.length.toNat = 0 ∧ outTypeSize prop.outType = none ∧ prop.outType ≠ tdhOutTypeBoolean ∧
    ((prop.inType = tdhInTypePointer ∧ s = 4 ∧ n = 2) ∨
      (prop.inType ≠ tdhInTypePointer ∧ inTypeSize prop.inType = none ∧ rest = n*s))

def CountedFits (prop : PropertyMeta) (n s rest : ℕ) : Prop :=
  (prop.length.toNat = s ∧ s < n) ∨
    (prop.length.toNat = 0 ∧ ∀ size, elementSizeHint prop = some size → size = s ∨ rest < size*n)

theorem ElementOfSize.single_fits_iff {prop : PropertyMeta} {n s : ℕ} (h : ElementOfSize prop s)
    (hn : 2 ≤ n) {data : Bytes} (hdata : n*s ≤ data.length)
    (hlength : prop.length.toNat = s ∨ prop.length.toNat = 0) :
    (∀ consumed, (Etw.parseOneValue prop data).map Prod.snd = some consumed → consumed = n*s) ↔
      SingleFits prop n s data.length := by
  have hpos := h.pos
  have hmore : s < n*s := lt_mul_of_one_lt_left hpos hn
  have hs : s ≤ data.length := by omega
  -- a value of another number of bytes does not fit
  have hother {k : ℕ} (hk : k ≠ n*s) : ¬ ∀ consumed, some k = some consumed → consumed = n*s := by
    intro hfits
    exact hk (hfits k rfl)
  rcases hlength with hdeclared | hzero
  · rw [h.parseOneValue_declared hs hdeclared]
    exact iff_of_false (hother hmore.ne) fun hfits => by
      have hzero := hfits.1
      omega
  rw [h.parseOneValue_undeclared hs hzero]
  unfold SingleFits
  by_cases hout : outTypeSize prop.outType = none
  · rw [if_neg (not_not.mpr hout)]
    by_cases hboolean : prop.outType = tdhOutTypeBoolean
    · rw [if_pos hboolean]
      exact iff_of_false (hother (by omega)) fun hfits => hfits.2.2.1 hboolean
    rw [if_neg hboolean]
    by_cases hpointer : prop.inType = tdhInTypePointer
    · have height : 8 ≤ data.length := by
        rcases h.pointer hpointer with rfl | rfl <;> omega
      rw [if_pos hpointer, sized_of_le height]
      simp only [hzero, hout, ne_eq, hboolean, not_false_eq_true, hpointer, not_true_eq_false, true_and,
        false_and, or_false, Option.some.injEq, forall_eq']
      rcases h.pointer hpointer with rfl | rfl <;> omega
    rw [if_neg hpointer]
    by_cases hin : inTypeSize prop.inType = none
    · rw [if_neg (not_not.mpr hin)]
      simp [hzero, hout, hboolean, hpointer, hin]
    · rw [if_pos hin]
      refine iff_of_false (hother hmore.ne) ?_
      rintro ⟨-, -, -, ⟨hp, -⟩ | ⟨-, hnone, -⟩⟩
      · exact hpointer hp
      · exact hin hnone
  · rw [if_pos hout]
    exact iff_of_false (hother hmore.ne) fun hfits => hout hfits.2.1

theorem counted_fits_iff {prop : PropertyMeta} {n s : ℕ} (hn : 2 ≤ n) (hs : 0 < s) {data : Bytes}
    (hdata : n*s ≤ data.length) (hlength : prop.length.toNat = s ∨ prop.length.toNat = 0) :
    (∀ consumed, (Etw.parseCountedValue prop n data).map Prod.snd = some consumed → consumed = n*s) ↔
      CountedFits prop n s data.length := by
  have hmore : s < n*s := lt_mul_of_one_lt_left hs hn
  rw [parseCountedValue_bytes prop (by omega), countedBytes]
  unfold CountedFits
  rcases hlength with hdeclared | hzero
  · rw [hdeclared]
    by_cases hle : n ≤ s
    · rw [if_pos hle, if_pos ⟨hs, by omega⟩]
      refine iff_of_false ?_ ?_
      · intro hfits
        have hsize := hfits s rfl
        omega
      · rintro (⟨-, hlt⟩ | ⟨hzero, -⟩) <;> omega
    · have htake : s*n = n*s := Nat.mul_comm s n
      rw [if_neg hle, if_pos ⟨hs, by omega⟩]
      refine iff_of_true ?_ (Or.inl ⟨rfl, by omega⟩)
      rintro consumed ⟨⟩
      exact htake
  · rw [hzero, if_neg (by omega)]
    have hpositive : ¬ 0 = s := by omega
    simp only [hpositive, false_and, true_and, false_or]
    cases elementSizeHint prop with
    | none => simp
    | some size =>
      simp only [Option.bind_some, Option.some.injEq, forall_eq', sized]
      by_cases hlong : size*n ≤ data.length
      · have hcancel : size*n = n*s ↔ size = s := by
          rw [Nat.mul_comm size n]
          exact Nat.mul_right_inj (by omega)
        rw [if_pos hlong]
        simp only [Option.some.injEq, forall_eq', hcancel, Nat.not_lt.mpr hlong, or_false]
      · rw [if_neg hlong]
        simp [Nat.not_le.mp hlong]

/-- An array of `n` elements of `s` bytes: the count is in the count member or in another
property, the length is that of an element or left out. -/
structure DescribesArray (buffer : Bytes) (offset n s : ℕ) : Prop where
  two_le : 2 ≤ n
  count : ((u32At buffer offset).testBit propertyParamFixedCount = true ∧
      (u32At buffer offset).testBit propertyParamCount = false ∧ u16At buffer (offset+16) = n) ∨
    ((u32At buffer offset).testBit propertyParamFixedCount = false ∧
      (u32At buffer offset).testBit propertyParamCount = true)
  noParamLength : (u32At buffer offset).testBit propertyParamLength = false
  length : u16At buffer (offset+18) = s ∨ u16At buffer (offset+18) = 0
  element : ElementOfSize (propertyAt buffer offset) s

structure HoldsArray (prop : PropertyMeta) (data : Bytes) (offset : ℕ) (known : List (Option UInt64))
    (n s : ℕ) : Prop where
  fits : offset+n*s ≤ data.length
  count : ∀ index m, prop.countPropertyIndex = some index → referencedU16 known index = some m →
    m.toNat = n

theorem u16At_lt (buffer : Bytes) (offset : ℕ) : u16At buffer offset < 2^16 := by
  have hlt := ofLe_lt ((buffer.drop offset).take 2)
  have hlen : ((buffer.drop offset).take 2).length ≤ 2 := length_take_le _ _
  calc u16At buffer offset < 256^((buffer.drop offset).take 2).length := hlt
    _ ≤ 256^2 := Nat.pow_le_pow_right (by decide) hlen

theorem toNat_max_one (m : UInt16) : (max m 1).toNat = max m.toNat 1 := by
  change (if m ≤ 1 then (1 : UInt16) else m).toNat = max m.toNat 1
  have hle : m ≤ 1 ↔ m.toNat ≤ 1 := UInt16.le_iff_toNat_le
  split
  · rename_i hone
    rw [hle] at hone
    exact (max_eq_right hone).symm
  · rename_i hmore
    rw [hle] at hmore
    exact (max_eq_left (by omega)).symm

namespace DescribesArray
variable {buffer : Bytes} {offset n s : ℕ} (h : DescribesArray buffer offset n s)
include h

theorem length_cases : (propertyAt buffer offset).length.toNat = s ∨
    (propertyAt buffer offset).length.toNat = 0 := by
  have hvalue : (propertyAt buffer offset).length.toNat = u16At buffer (offset+18) := by
    change (UInt16.ofNat (u16At buffer (offset+18))).toNat = _
    rw [UInt16.toNat_ofNat', Nat.mod_eq_of_lt (u16At_lt buffer _)]
  rw [hvalue]
  exact h.length

theorem resolveLength_eq (known : List (Option UInt64)) :
    resolveLength (propertyAt buffer offset) known = (propertyAt buffer offset).length := by
  have hindex : (propertyAt buffer offset).lengthPropertyIndex = none := by
    simp [propertyAt, h.noParamLength]
  rw [resolveLength, hindex]

section
variable {data : Bytes} {start : ℕ} {known : List (Option UInt64)}
    (hholds : HoldsArray (propertyAt buffer offset) data start known n s)
include hholds

/-- A count in the count member is not used: the code asks for both flags. -/
theorem resolveCount_cases :
    resolveCount (propertyAt buffer offset) known = 1 ∨
      (resolveCount (propertyAt buffer offset) known).toNat = n := by
  have hn := h.two_le
  rcases h.count with ⟨hfixed, hparam, -⟩ | ⟨hfixed, hparam⟩
  · have hindex : (propertyAt buffer offset).countPropertyIndex = none := by
      simp [propertyAt, hparam]
    have hcount : (propertyAt buffer offset).count = 1 := by
      simp [propertyAt, hparam]
    rw [resolveCount, hindex, hcount]
    exact Or.inl rfl
  · have hindex : (propertyAt buffer offset).countPropertyIndex = some (u16At buffer (offset+16)) := by
      simp [propertyAt, hfixed, hparam]
    rw [resolveCount, hindex]
    dsimp only
    cases hm : referencedU16 known (u16At buffer (offset+16)) with
    | none => exact Or.inl rfl
    | some m =>
      have hmn := hholds.count _ m hindex hm
      right
      rw [Option.getD_some, toNat_max_one]
      omega

theorem parseProperty_fits_iff :
    (∀ consumed, (Etw.parseProperty (propertyAt buffer offset) known (data.drop start)).map Prod.snd =
        some consumed → consumed = n*s) ↔
      if resolveCount (propertyAt buffer offset) known = 1
      then SingleFits (propertyAt buffer offset) n s (data.length-start)
      else CountedFits (propertyAt buffer offset) n s (data.length-start) := by
  have hn := h.two_le
  have hlong : n*s ≤ (data.drop start).length := by
    have hfits := hholds.fits
    rw [length_drop]
    omega
  rw [Etw.parseProperty, h.resolveLength_eq, ← length_drop]
  rcases h.resolveCount_cases hholds with hone | hcount
  · rw [if_pos hone, hone, if_neg (by decide)]
    exact h.element.single_fits_iff hn hlong h.length_cases
  · have hmany : 1 < resolveCount (propertyAt buffer offset) known := by
      rw [UInt16.lt_iff_toNat_lt, hcount]
      exact hn
    have hne : resolveCount (propertyAt buffer offset) known ≠ 1 := by
      intro hone
      rw [hone] at hmany
      exact absurd hmany (by decide)
    rw [if_neg hne, if_pos hmany, hcount]
    exact counted_fits_iff hn h.element.pos hlong h.length_cases

end

end DescribesArray

theorem getElem?_propertiesFrom {buffer : Bytes} {count offset k : ℕ} {prop : PropertyMeta}
    (h : (propertiesFrom buffer count offset)[k]? = some prop) :
    prop = propertyAt buffer (offset+sizeOfEventPropertyInfo*k) := by
  induction count generalizing offset k with
  | zero => cases h
  | succ count ih =>
    rw [propertiesFrom] at h
    split at h
    · cases h
    · cases k with
      | zero =>
        cases h
        rfl
      | succ k =>
        have hoffset : offset+sizeOfEventPropertyInfo+sizeOfEventPropertyInfo*k =
            offset+sizeOfEventPropertyInfo*(k+1) := by
          rw [Nat.mul_succ]
          omega
        rw [← hoffset]
        exact ih h

def propertyInfoOffset (k : ℕ) : ℕ :=
  sizeOfTraceEventInfo-sizeOfEventPropertyInfo+sizeOfEventPropertyInfo*k

theorem getElem?_buildSchema {tdh : Tdh} {record : EventRecord} {schema : CachedSchema}
    (hbuild : buildSchema tdh record = some schema) {k : ℕ} (hk : k < schema.props.length) :
    schema.props[k] = propertyAt (tdh.eventInformation record.eventHeader record.extendedData).2
      (propertyInfoOffset k) := by
  unfold buildSchema at hbuild
  dsimp only at hbuild
  split_ifs at hbuild
  cases hbuild
  exact getElem?_propertiesFrom (List.getElem?_eq_getElem hk)

/-- An array is read as its elements, or not at all, and the fields behind it lie where they should,
exactly when the sizes work out. -/
theorem array_aligned_iff {tdh : Tdh} {record : EventRecord} {schema : CachedSchema}
    (hbuild : buildSchema tdh record = some schema) {k n s : ℕ} (hk : k < schema.props.length)
    (harray : DescribesArray (tdh.eventInformation record.eventHeader record.extendedData).2
      (propertyInfoOffset k) n s)
    (data : Slice UInt8)
    (hholds : ∀ offset known, ArrivesAt schema data k offset known →
      HoldsArray schema.props[k] data.toList offset known n s) :
    (∀ span, (parseSpans schema data).value[k]? = some span → span.stop = span.start+n*s ∧
      ∃ total, Tiles (span.start+n*s) ((parseSpans schema data).value.drop (k+1)) total) ↔
      ∀ offset known, ArrivesAt schema data k offset known →
        if resolveCount schema.props[k] known = 1
        then SingleFits schema.props[k] n s (data.toList.length-offset)
        else CountedFits schema.props[k] n s (data.toList.length-offset) := by
  have hprop := getElem?_buildSchema hbuild hk
  rcases arrives_or_never hk.le with ⟨offset, known, harrive⟩ | ⟨hnone, hnever⟩
  · have hheld := hholds offset known harrive
    have hpos : 0 < n*s := Nat.mul_pos (by have := harray.two_le; omega) harray.element.pos
    have hmore : offset < data.toList.length := by
      have hfits := hheld.fits
      omega
    rw [field_aligned_iff hk harrive hmore]
    rw [hprop] at hheld ⊢
    rw [harray.parseProperty_fits_iff hheld, harrive.forall_iff]
  · rw [hnone]
    refine iff_of_true ?_ fun offset known h => absurd h (hnever offset known)
    rintro span ⟨⟩

def propertyInfo (flags inType count length : ℕ) : Bytes :=
  leBytes 4 flags ++ leBytes 4 0 ++ leBytes 2 inType ++ leBytes 6 0 ++ leBytes 2 count ++
    leBytes 2 length ++ leBytes 4 0

def fixedTdh (infos : List Bytes) : Tdh where
  eventInformationSize _ _ := (122, 0)
  eventInformation _ _ := (0, List.replicate 100 0 ++ leBytes 4 infos.length ++ List.replicate 8 0 ++
    infos.flatten)
  eventMapInformationSize _ _ := (1168, 0)
  eventMapInformation _ _ := (1168, [])

def fixedSchema (infos : List Bytes) : CachedSchema :=
  ⟨propertiesFrom ((fixedTdh infos).eventInformation (selfDescribingEvent 0 0 []).eventHeader []).2
    infos.length (propertyInfoOffset 0)⟩

def countedByteInfos : List Bytes := [propertyInfo 0 4 1 1, propertyInfo 4 4 0 1, propertyInfo 0 4 1 1]

theorem elementOfSize_number {prop : PropertyMeta} {k : ℕ} (hin : inTypeSize prop.inType = some k)
    (hpos : 0 < k) (hout : prop.outType = 0) (hpointer : prop.inType ≠ tdhInTypePointer)
    (htext : prop.inType ≠ tdhInTypeUnicodeString ∧ prop.inType ≠ tdhInTypeAnsiString ∧
      prop.inType ≠ tdhInTypeSid) : ElementOfSize prop k where
  pos := hpos
  not_text := htext
  inType j hj := Option.some.inj (hj.symm.trans hin)
  pointer h := absurd h hpointer
  outType j hj := by
    rw [hout] at hj
    cases hj
  boolean h := by
    rw [hout] at h
    exact absurd h (by decide)
  not_socket := by
    rw [hout]
    decide

theorem array_aligned_bytes :
    let infos := countedByteInfos
    let data : Slice UInt8 := ⟨[3, 7, 8, 9, 5], by decide⟩
    buildSchema (fixedTdh infos) (selfDescribingEvent 0 0 []) = some (fixedSchema infos) ∧
      ∀ span, (parseSpans (fixedSchema infos) data).value[1]? = some span →
        span.stop = span.start+3*1 ∧
        ∃ total, Tiles (span.start+3*1) ((parseSpans (fixedSchema infos) data).value.drop 2) total := by
  intro infos data
  have hbuild : buildSchema (fixedTdh infos) (selfDescribingEvent 0 0 []) = some (fixedSchema infos) := by
    decide +kernel
  have hk : 1 < (fixedSchema infos).props.length := by decide +kernel
  have harray : DescribesArray ((fixedTdh infos).eventInformation
      (selfDescribingEvent 0 0 []).eventHeader (selfDescribingEvent 0 0 []).extendedData).2
      (propertyInfoOffset 1) 3 1 :=
    { two_le := by decide
      count := Or.inr ⟨by decide +kernel, by decide +kernel⟩
      noParamLength := by decide +kernel
      length := Or.inl (by decide +kernel)
      element := elementOfSize_number (by decide +kernel) (by decide) (by decide +kernel)
        (by decide +kernel) (by decide +kernel) }
  have harrive : ArrivesAt (fixedSchema infos) data 1 1 [some 3] := by
    unfold ArrivesAt
    decide +kernel
  have hprop := getElem?_buildSchema hbuild hk
  have hindex : (propertyAt ((fixedTdh infos).eventInformation
      (selfDescribingEvent 0 0 []).eventHeader (selfDescribingEvent 0 0 []).extendedData).2
      (propertyInfoOffset 1)).countPropertyIndex = some 0 := by decide +kernel
  refine ⟨hbuild, (array_aligned_iff hbuild hk harray data ?_).mpr ?_⟩
  · intro offset known h
    have hsame := harrive.unique h
    rw [hsame.1, hsame.2, hprop]
    refine ⟨by decide, ?_⟩
    intro index m hm hvalue
    rw [← Option.some.inj (hindex.symm.trans hm)] at hvalue
    have hthree : referencedU16 [some 3] 0 = some 3 := by decide
    rw [← Option.some.inj (hthree.symm.trans hvalue)]
    rfl
  · intro offset known h
    have hsame := harrive.unique h
    rw [hsame.1, hsame.2, hprop, if_neg (by decide +kernel)]
    exact Or.inl ⟨by decide +kernel, by decide⟩

/-- Two numbers of four bytes with the count in the count member, and the same with the count in the
number before them: in both cases one number is read, and the number behind them at the second. -/
theorem array_misaligned :
    let fixedCount := [propertyInfo 0x20 8 2 4, propertyInfo 0 8 1 4]
    let referred := [propertyInfo 0 8 1 4, propertyInfo 0x4 8 0 4, propertyInfo 0 8 1 4]
    (buildSchema (fixedTdh fixedCount) (selfDescribingEvent 0 0 []) = some (fixedSchema fixedCount) ∧
      (parseSpans (fixedSchema fixedCount)
        ⟨[1, 0, 0, 0, 2, 0, 0, 0, 3, 0, 0, 0], by decide⟩).value.map
          (fun span => (span.field.value, span.start, span.stop)) =
        [(.u32 1, 0, 4), (.u32 2, 4, 8)]) ∧
    (buildSchema (fixedTdh referred) (selfDescribingEvent 0 0 []) = some (fixedSchema referred) ∧
      (parseSpans (fixedSchema referred)
        ⟨[2, 0, 0, 0, 1, 0, 0, 0, 2, 0, 0, 0, 3, 0, 0, 0], by decide⟩).value.map
          (fun span => (span.field.value, span.start, span.stop)) =
        [(.u32 2, 0, 4), (.binary [1, 0, 0, 0], 4, 8), (.u32 2, 8, 12)]) := by
  refine ⟨⟨?_, ?_⟩, ?_, ?_⟩ <;> decide +kernel

theorem resolveCount_of_zero {prop : PropertyMeta} {known : List (Option UInt64)} {i : ℕ}
    (hrefers : prop.countPropertyIndex = some i)
    (hzero : ∀ v, known[i]?.join = some v → v = 0) : resolveCount prop known = 1 := by
  rw [resolveCount, hrefers]
  dsimp only
  cases hknown : known[i]?.join with
  | none =>
    rw [referencedU16, hknown]
    rfl
  | some v =>
    rw [referencedU16, hknown, hzero v hknown]
    rfl

theorem spansFrom_of_end {data : Bytes} {offset : ℕ} (hend : data.length ≤ offset)
    (props : List PropertyMeta) (known : List (Option UInt64)) :
    spansFrom data props offset known = [] := by
  cases props with
  | nil => rfl
  | cons prop props => rw [spansFrom, if_pos hend]

theorem ArrivesAt.known_getElem? {schema : CachedSchema} {data : Slice UInt8} {k offset i : ℕ}
    {known : List (Option UInt64)} (h : ArrivesAt schema data k offset known) {v : UInt64}
    (hv : known[i]?.join = some v) :
    ∃ span, (parseSpans schema data).value[i]? = some span ∧
      extractNumericValue span.field.value = some v := by
  have hknown : known = _ := (arriveAfter_eq_some h).2
  have hsplit := spansFrom_append data.toList (schema.props.take k) (schema.props.drop k) 0 []
  rw [take_append_drop] at hsplit
  rw [hknown, nil_append, List.getElem?_map, Option.join_eq_some_iff] at hv
  obtain ⟨span, hspan, hnumber⟩ := Option.map_eq_some_iff.mp hv
  refine ⟨span, ?_, hnumber⟩
  obtain ⟨hlt, -⟩ := List.getElem?_eq_some_iff.mp hspan
  rw [value_parseSpans, hsplit, List.getElem?_append_left hlt, hspan]

/-- A property whose count is in a property that holds zero takes no bytes exactly when the
payload ends there or nothing can be read there. -/
theorem empty_array_iff {schema : CachedSchema} {i j : ℕ} (hj : j < schema.props.length)
    (hrefers : schema.props[j].countPropertyIndex = some i) (data : Slice UInt8)
    (hzero : ∀ span v, (parseSpans schema data).value[i]? = some span →
      extractNumericValue span.field.value = some v → v = 0) :
    ((∀ span, (parseSpans schema data).value[j]? = some span → span.stop = span.start) ∧
      ∀ offset known, ArrivesAt schema data j offset known →
        (parseSpans schema data).value.drop (j+1) =
          spansFrom data.toList (schema.props.drop (j+1)) offset (known ++ [none])) ↔
      ∀ offset known, ArrivesAt schema data j offset known → data.toList.length ≤ offset ∨
        (Etw.parseOneValue { schema.props[j] with length := resolveLength schema.props[j] known }
            (data.toList.drop offset) = none ∧
          spansFrom data.toList (schema.props.drop (j+1)) offset (known ++ [none]) = []) := by
  rcases arrives_or_never hj.le with ⟨offset, known, harrive⟩ | ⟨hnone, hnever⟩
  · have hone : resolveCount schema.props[j] known = 1 := by
      apply resolveCount_of_zero hrefers
      intro v hv
      obtain ⟨span, hspan, hnumber⟩ := harrive.known_getElem? hv
      exact hzero span v hspan hnumber
    have hparse : Etw.parseProperty schema.props[j] known (data.toList.drop offset) =
        Etw.parseOneValue { schema.props[j] with length := resolveLength schema.props[j] known }
          (data.toList.drop offset) := by
      rw [Etw.parseProperty, hone]
      exact if_neg (by decide)
    have hdrop := drop_parseSpans hj.le harrive
    rw [drop_eq_getElem_cons hj, spansFrom, hparse] at hdrop
    rw [harrive.forall_iff, harrive.forall_iff, ← List.head?_drop, ← tail_drop, hdrop]
    by_cases hend : data.toList.length ≤ offset
    · rw [if_pos hend, spansFrom_of_end hend]
      exact iff_of_true ⟨by rintro span ⟨⟩, rfl⟩ (Or.inl hend)
    rw [if_neg hend]
    cases hvalue : Etw.parseOneValue
        { schema.props[j] with length := resolveLength schema.props[j] known }
        (data.toList.drop offset) with
    | none =>
      constructor
      · intro h
        exact Or.inr ⟨rfl, h.2.symm⟩
      · rintro (h | ⟨-, h⟩)
        · exact absurd h hend
        · exact ⟨by rintro span ⟨⟩, h.symm⟩
    | some parsed =>
      -- a value that is read takes a byte at least
      have hpos : 0 < parsed.2 := by
        refine parseOneValue_pos ?_ hvalue
        rw [length_drop]
        omega
      refine iff_of_false ?_ ?_
      · intro h
        have hstop : offset+parsed.2 = offset := h.1 _ rfl
        omega
      · rintro (h | ⟨h, -⟩)
        · exact hend h
        · cases h
  · rw [hnone]
    refine iff_of_true ⟨?_, ?_⟩ ?_
    · rintro span ⟨⟩
    · intro offset known h
      exact absurd h (hnever offset known)
    · intro offset known h
      exact absurd h (hnever offset known)

theorem empty_array_at_end :
    let data : Slice UInt8 := ⟨[0], by decide⟩
    (∀ span, (parseSpans (fixedSchema countedByteInfos) data).value[1]? = some span →
        span.stop = span.start) ∧
      ∀ offset known, ArrivesAt (fixedSchema countedByteInfos) data 1 offset known →
        (parseSpans (fixedSchema countedByteInfos) data).value.drop 2 =
          spansFrom data.toList ((fixedSchema countedByteInfos).props.drop 2) offset
            (known ++ [none]) := by
  intro data
  have hbuild : buildSchema (fixedTdh countedByteInfos) (selfDescribingEvent 0 0 []) =
      some (fixedSchema countedByteInfos) := by decide +kernel
  have hj : 1 < (fixedSchema countedByteInfos).props.length := by decide +kernel
  have hrefers : (fixedSchema countedByteInfos).props[1].countPropertyIndex = some 0 := by
    rw [getElem?_buildSchema hbuild hj]
    decide +kernel
  have harrive : ArrivesAt (fixedSchema countedByteInfos) data 1 1 [some 0] := by
    unfold ArrivesAt
    decide +kernel
  have hnumber : (parseSpans (fixedSchema countedByteInfos) data).value[0]?.map
      (fun span => extractNumericValue span.field.value) = some (some 0) := by decide +kernel
  apply (empty_array_iff hj hrefers data ?_).mpr
  · rw [harrive.forall_iff]
    exact Or.inl (by decide)
  · intro span v hspan hv
    rw [hspan, Option.map_some, hv] at hnumber
    exact Option.some.inj (Option.some.inj hnumber)

/-- The byte behind an array of no bytes is read as its element. -/
theorem empty_array_takes_byte :
    buildSchema (fixedTdh countedByteInfos) (selfDescribingEvent 0 0 []) =
        some (fixedSchema countedByteInfos) ∧
      (parseSpans (fixedSchema countedByteInfos) ⟨[0, 5], by decide⟩).value.map
          (fun span => (span.field.value, span.start, span.stop)) =
        [(.u8 0, 0, 1), (.u8 5, 1, 2)] := by
  constructor <;> decide +kernel

end WindowsErg.Etw
