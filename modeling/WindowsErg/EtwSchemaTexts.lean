import WindowsErg.EtwProvider
import WindowsErg.EtwSchemaArrays

/-! Texts and other values of a declared length in a payload. -/
namespace WindowsErg.Etw
open Option List TextScan ByteCodec UnicodeText GuardedRun Guarded Checked

/-- Texts and binary values, by the in-type. A socket address is a binary value with an out-type of its
own. -/
structure TextOrBinary (prop : PropertyMeta) : Prop where
  inType : inTypeSize prop.inType = none
  not_pointer : prop.inType ≠ tdhInTypePointer
  not_sid : prop.inType ≠ tdhInTypeSid

def OverrideHonours (prop : PropertyMeta) (data : Bytes) : Prop :=
  (∀ size, outTypeSize prop.outType = some size → size = prop.length.toNat ∨ data.length < size) ∧
    (prop.outType = tdhOutTypeSocketAddress →
      ∀ size, socketBytes data = some size → size = prop.length.toNat) ∧
    (prop.outType = tdhOutTypeBoolean → prop.length.toNat = 1 ∨ prop.length.toNat = 4)

def LengthHonoured (prop : PropertyMeta) (count : ℕ) (data : Bytes) : Prop :=
  if count ≤ 1 then OverrideHonours prop data ∧
    (prop.inType = tdhInTypeUnicodeString → prop.length.toNat = 1 → overrideBytes prop data = none →
      data.length < 2)
  else count ≤ prop.length.toNat ∨ (data.length < prop.length.toNat*count ∧
    ∀ size, elementSizeHint prop = some size → data.length < size*count)

theorem elementSizeHint_pos (prop : PropertyMeta) : Positive (elementSizeHint prop) := by
  unfold elementSizeHint
  iterate 14 refine positive_ite (fun _ => positive_some (by decide)) fun _ => ?_
  exact positive_none

section Declared
variable {prop : PropertyMeta} {data : Bytes}

theorem sized_fits_iff {k size : ℕ} :
    (∀ taken, sized k data = some taken → taken = size) ↔ k = size ∨ data.length < k := by
  unfold sized
  split
  · simp only [Option.some.injEq, forall_eq']
    omega
  · simp only [reduceCtorEq, false_implies, implies_true, true_iff]
    omega

variable (hpos : 0 < prop.length.toNat) (hfits : prop.length.toNat ≤ data.length)
include hpos hfits

theorem boolean_fits_iff :
    (∀ taken, (if 4 ≤ prop.length.toNat ∧ prop.length.toNat ≤ data.length then sized 4 data
      else sized 1 data) = some taken → taken = prop.length.toNat) ↔
      prop.length.toNat = 1 ∨ prop.length.toNat = 4 := by
  split
  · rw [sized_fits_iff]
    omega
  · rw [sized_fits_iff]
    omega

theorem override_fits_iff :
    (∀ taken, overrideBytes prop data = some taken → taken = prop.length.toNat) ↔
      OverrideHonours prop data := by
  unfold overrideBytes OverrideHonours
  cases hsize : outTypeSize prop.outType with
  | some size =>
    have hsocket : prop.outType ≠ tdhOutTypeSocketAddress := by
      intro h
      rw [h] at hsize
      cases hsize
    have hboolean : prop.outType ≠ tdhOutTypeBoolean := by
      intro h
      rw [h] at hsize
      cases hsize
    simp only [elim_some, sized_fits_iff, Option.some.injEq, forall_eq', hsocket, hboolean,
      false_implies, and_true]
  | none =>
    simp only [elim_none, reduceCtorEq, false_implies, implies_true, true_and, unsizedOverrideBytes]
    by_cases hsocket : prop.outType = tdhOutTypeSocketAddress
    · have hboolean : prop.outType ≠ tdhOutTypeBoolean := by
        rw [hsocket]
        decide
      rw [if_pos hsocket]
      constructor
      · intro h
        exact ⟨fun _ => h, fun h => absurd h hboolean⟩
      · intro h
        exact h.1 hsocket
    · by_cases hboolean : prop.outType = tdhOutTypeBoolean
      · rw [if_neg hsocket, if_pos hboolean, boolean_fits_iff hpos hfits]
        constructor
        · intro h
          exact ⟨fun h => absurd h hsocket, fun _ => h⟩
        · intro h
          exact h.2 hboolean
      · rw [if_neg hsocket, if_neg hboolean]
        simp only [hsocket, hboolean, false_implies, and_true, iff_true]
        intro taken htaken
        exact (Option.some.inj (ite_none_right_eq_some.mp htaken).2).symm

theorem TextOrBinary.inType_fits_iff (h : TextOrBinary prop) :
    (∀ taken, inTypeBytes prop data = some taken → taken = prop.length.toNat) ↔
      (prop.inType = tdhInTypeUnicodeString → prop.length.toNat = 1 → data.length < 2) := by
  rw [inTypeBytes_of_none h.inType h.not_pointer h.not_sid]
  by_cases hunicode : prop.inType = tdhInTypeUnicodeString
  · rw [if_pos hunicode, unicodeBytes]
    simp only [hunicode, true_implies]
    by_cases hone : prop.length.toNat = 1
    · rw [if_neg (by omega)]
      by_cases hshort : data.length < 2
      · rw [if_pos hshort]
        simp [hshort]
      · rw [if_neg hshort]
        refine iff_of_false ?_ ?_
        · intro htaken
          have heq := htaken _ rfl
          have heven := takeUtf16_even data
          omega
        · intro himp
          exact hshort (himp hone)
    · rw [if_pos ⟨by omega, hfits⟩]
      simp only [hone, false_implies, iff_true]
      intro taken htaken
      exact (Option.some.inj (ite_none_right_eq_some.mp htaken).2).symm
  · rw [if_neg hunicode]
    simp only [hunicode, false_implies, iff_true]
    intro taken htaken
    by_cases hansi : prop.inType = tdhInTypeAnsiString
    · rw [if_pos hansi, ansiBytes, if_pos ⟨hpos, hfits⟩] at htaken
      exact (Option.some.inj (ite_none_right_eq_some.mp htaken).2).symm
    · rw [if_neg hansi, if_pos hpos, min_eq_left hfits] at htaken
      exact (Option.some.inj htaken).symm

theorem TextOrBinary.single_honours_iff (h : TextOrBinary prop) :
    (∀ taken, (Etw.parseOneValue prop data).map Prod.snd = some taken →
      taken = prop.length.toNat) ↔ LengthHonoured prop 1 data := by
  rw [parseOneValue_bytes, LengthHonoured, if_pos le_rfl, ← override_fits_iff hpos hfits]
  cases hover : overrideBytes prop data with
  | some k => simp
  | none =>
    simp only [none_or, h.inType_fits_iff hpos hfits, reduceCtorEq, false_implies, implies_true,
      true_and, true_implies]

theorem counted_honours_iff {count : ℕ} (hcount : 1 < count) :
    (∀ taken, (Etw.parseCountedValue prop count data).map Prod.snd = some taken →
      taken = prop.length.toNat) ↔ LengthHonoured prop count data := by
  rw [parseCountedValue_bytes prop (by omega), countedBytes, LengthHonoured,
    if_neg (Nat.not_le.mpr hcount)]
  by_cases hle : count ≤ prop.length.toNat
  · rw [if_pos hle, if_pos ⟨hpos, hfits⟩]
    refine iff_of_true ?_ (Or.inl hle)
    rintro taken ⟨⟩
    rfl
  · have hmore : prop.length.toNat < prop.length.toNat*count := lt_mul_of_one_lt_right hpos hcount
    rw [if_neg hle]
    by_cases hlong : prop.length.toNat*count ≤ data.length
    · rw [if_pos ⟨hpos, hlong⟩]
      refine iff_of_false ?_ ?_
      · intro htaken
        have heq := htaken _ rfl
        omega
      · rintro (h | ⟨h, -⟩) <;> omega
    · rw [if_neg fun h => hlong h.2]
      simp only [hle, false_or, Nat.not_le.mp hlong, true_and]
      cases hhint : elementSizeHint prop with
      | none => simp
      | some size =>
        have hsize : 0 < size := elementSizeHint_pos prop size hhint
        -- an element of a byte or more makes the array longer than its declared length
        have hother : size*count ≠ prop.length.toNat := by
          have hge := Nat.le_mul_of_pos_left count hsize
          omega
        simp only [bind_some, sized_fits_iff, hother, false_or, Option.some.injEq, forall_eq']

end Declared

theorem one_le_resolveCount (prop : PropertyMeta) (known : List (Option UInt64)) :
    1 ≤ (resolveCount prop known).toNat := by
  unfold resolveCount
  split
  · rw [toNat_max_one]
    exact le_max_right _ _
  · rw [toNat_max_one]
    exact le_max_right _ _

abbrev withLength (prop : PropertyMeta) (known : List (Option UInt64)) : PropertyMeta :=
  { prop with length := resolveLength prop known }

theorem TextOrBinary.parseProperty_honours_iff {prop : PropertyMeta} (h : TextOrBinary prop)
    {known : List (Option UInt64)} {data : Bytes} (hpos : 0 < (resolveLength prop known).toNat)
    (hfits : (resolveLength prop known).toNat ≤ data.length) :
    (∀ taken, (Etw.parseProperty prop known data).map Prod.snd = some taken →
      taken = (resolveLength prop known).toNat) ↔
      LengthHonoured (withLength prop known) (resolveCount prop known).toNat data := by
  have hkind : TextOrBinary (withLength prop known) := ⟨h.inType, h.not_pointer, h.not_sid⟩
  rw [Etw.parseProperty]
  by_cases hmany : 1 < resolveCount prop known
  · rw [if_pos hmany]
    exact counted_honours_iff hpos hfits (UInt16.lt_iff_toNat_lt.mp hmany)
  · have hone : (resolveCount prop known).toNat = 1 := by
      have hle := one_le_resolveCount prop known
      rw [UInt16.lt_iff_toNat_lt, UInt16.toNat_one] at hmany
      omega
    rw [if_neg hmany, hone]
    exact hkind.single_honours_iff hpos hfits

/-- A text, a binary value or a socket address takes its declared length and the next field
follows it, exactly when its out-type and its count leave it so. -/
theorem declared_length_iff {schema : CachedSchema} {k : ℕ} (hk : k < schema.props.length)
    (hkind : TextOrBinary schema.props[k]) (data : Slice UInt8) {offset : ℕ}
    {known : List (Option UInt64)} (harrive : ArrivesAt schema data k offset known)
    (hpos : 0 < (resolveLength schema.props[k] known).toNat)
    (hfits : offset+(resolveLength schema.props[k] known).toNat ≤ data.toList.length) :
    (∀ span, (parseSpans schema data).value[k]? = some span →
      span.stop = span.start+(resolveLength schema.props[k] known).toNat ∧
      ∃ total, Tiles (span.start+(resolveLength schema.props[k] known).toNat)
        ((parseSpans schema data).value.drop (k+1)) total) ↔
      LengthHonoured (withLength schema.props[k] known) (resolveCount schema.props[k] known).toNat
        (data.toList.drop offset) := by
  rw [field_aligned_iff hk harrive (by omega)]
  apply hkind.parseProperty_honours_iff hpos
  rw [length_drop]
  omega

def declaredProperty (inType outType : ℕ) (length : UInt16) : PropertyMeta :=
  ⟨[], inType, outType, length, 1, none, none, none⟩

def textThenByte (length : UInt16) : CachedSchema :=
  ⟨[declaredProperty tdhInTypeAnsiString 0 length, declaredProperty tdhInTypeUInt8 0 1]⟩

theorem declared_length_ansi :
    let schema := textThenByte 2
    let data : Slice UInt8 := ⟨[0x48, 0x69, 5], by decide⟩
    ArrivesAt schema data 0 0 [] ∧
      ∀ span, (parseSpans schema data).value[0]? = some span → span.stop = span.start+2 ∧
        ∃ total, Tiles (span.start+2) ((parseSpans schema data).value.drop 1) total := by
  intro schema data
  have hhonoured : LengthHonoured (declaredProperty tdhInTypeAnsiString 0 2) 1 [0x48, 0x69, 5] := by
    rw [LengthHonoured, if_pos le_rfl]
    refine ⟨⟨?_, ?_, ?_⟩, ?_⟩
    · rintro size ⟨⟩
    · intro h
      exact absurd h (by decide)
    · intro h
      exact absurd h (by decide)
    · intro h
      exact absurd h (by decide)
  have hk : 0 < schema.props.length := by decide
  have hkind : TextOrBinary (declaredProperty tdhInTypeAnsiString 0 2) :=
    ⟨by decide, by decide, by decide⟩
  have hlength : (resolveLength (declaredProperty tdhInTypeAnsiString 0 2) []).toNat = 2 := rfl
  have harrive : ArrivesAt schema data 0 0 [] := rfl
  exact ⟨harrive, (declared_length_iff hk hkind data harrive (hlength.symm ▸ Nat.two_pos)
    (hlength.symm ▸ Nat.le_succ 2)).mpr hhonoured⟩

/-- A socket address of sixteen bytes, of which eight are taken: the number behind it is read inside
it. So is the number behind a UTF-16 text of one byte. -/
theorem declared_length_ignored :
    (parseSpans ⟨[declaredProperty 14 tdhOutTypeSocketAddress 16, declaredProperty tdhInTypeUInt8 0 1]⟩
        ⟨[2, 0, 0, 80, 127, 0, 0, 1, 9, 0, 0, 0, 0, 0, 0, 0, 5], by decide⟩).value.map
        (fun span => (span.field.value, span.start, span.stop)) =
      [(.ipAddr (.v4 [127, 0, 0, 1]), 0, 8), (.u8 9, 8, 9)] ∧
    (parseSpans ⟨[declaredProperty tdhInTypeUnicodeString 0 1, declaredProperty tdhInTypeUInt8 0 1]⟩
        ⟨[0x41, 5, 0, 0, 7], by decide⟩).value.map
        (fun span => (span.field.value, span.start, span.stop)) =
      [(.string [Char.ofNat 0x541], 0, 4), (.u8 7, 4, 5)] := by
  constructor <;> decide +kernel

def utf16OutTypes : List ℕ :=
  [0, tdhOutTypeString, tdhOutTypeXml, tdhOutTypeJson, tdhOutTypeReducedString]

/-- The bytes hold a text in UTF-16: they end with it, or with a NUL behind it and what follows. -/
structure HoldsUtf16 (area : Bytes) (s : Text) (ending : Bytes) : Prop where
  bytes : area = utf16LeBytes (encodeUtf16 s) ++ ending
  ends : ending = [] ∨ ∃ padding, ending = 0 :: 0 :: padding

namespace HoldsUtf16
variable {area : Bytes} {s : Text} {ending : Bytes} (h : HoldsUtf16 area s ending)
include h

theorem ending_empty : (takeUtf16 ending).1 = [] ∧ ending.takeWhile (· != 0) = [] := by
  rcases h.ends with hends | ⟨padding, hends⟩
  · rw [hends]
    exact ⟨rfl, rfl⟩
  · rw [hends]
    exact ⟨rfl, rfl⟩

theorem decodeUtf16Lossy_iff : decodeUtf16Lossy (takeUtf16 area).1 = s ↔ Char.ofNat 0 ∉ s := by
  rw [h.bytes]
  exact decodeUtf16Lossy_takeUtf16_iff s h.ending_empty.1

theorem decodeUtf8_iff (hs : Char.ofNat 0 ∉ s) :
    decodeUtf8 (area.takeWhile (· != 0)) = some s ↔ s = [] ∨ ∃ c, s = [c] ∧ c.toNat < 0x80 := by
  rw [decodeUtf8_eq_some_iff, h.bytes]
  exact takeWhile_utf16_eq_encodeUtf8_iff hs h.ending_empty.2

end HoldsUtf16

theorem parseOneValue_utf16 {prop : PropertyMeta} (hin : prop.inType = tdhInTypeUnicodeString)
    (hrender : isRenderingOutType prop.outType = false) {area : Bytes}
    (hlength : area.length = prop.length.toNat) (hpos : 0 < area.length) (heven : area.length%2 = 0)
    (rest : Bytes) :
    (Etw.parseOneValue prop (area ++ rest)).map Prod.fst = some (.string
      (if isTextOutType prop.outType = true
        then (decodeUtf8 (area.takeWhile (· != 0))).getD (decodeUtf16Lossy (takeUtf16 area).1)
        else decodeUtf16Lossy (takeUtf16 area).1)) := by
  have hle : area.length ≤ (area ++ rest).length := by
    rw [length_append]
    omega
  have hunits : Etw.parseInType prop (area ++ rest) =
      some (.string (decodeUtf16Lossy (takeUtf16 area).1), area.length) := by
    rw [parseInType_unicodeString prop _ hin, ← hlength, if_pos ⟨by omega, hle⟩, Etw.parseUtf16Sized,
      if_neg (by omega), take_left]
    rfl
  rw [Etw.parseOneValue, parseOutTypeOverride_text prop _ hrender, hunits, ← hlength]
  by_cases htext : isTextOutType prop.outType = true
  · rw [if_pos ⟨htext, hpos, hle⟩, if_pos htext, parseUtf8Sized, Etw.parseBytesSized,
      if_neg (by omega), take_left]
    cases decodeUtf8 (area.takeWhile (· != 0)) <;> rfl
  · rw [if_neg fun hall => htext hall.1, if_neg htext]
    rfl

/-- A text in UTF-16 is decoded as itself by all these out-types exactly if it has no NUL, and its
bytes up to the first zero byte are not UTF-8 or it is at most one ASCII character. -/
theorem utf16_out_types_iff {prop : PropertyMeta} (hin : prop.inType = tdhInTypeUnicodeString)
    {known : List (Option UInt64)} (hone : resolveCount prop known = 1) {area : Bytes} {s : Text}
    {ending : Bytes} (hholds : HoldsUtf16 area s ending)
    (hlength : area.length = (resolveLength prop known).toNat) (hpos : 0 < area.length)
    (heven : area.length%2 = 0) (rest : Bytes) :
    (∀ outType ∈ utf16OutTypes,
      (Etw.parseProperty { prop with outType := outType } known (area ++ rest)).map Prod.fst =
        some (.string s)) ↔
      Char.ofNat 0 ∉ s ∧ (¬ ValidText area ∨ s = [] ∨ ∃ c, s = [c] ∧ c.toNat < 0x80) := by
  have hparse (outType : ℕ) (hrender : isRenderingOutType outType = false) :
      (Etw.parseProperty { prop with outType := outType } known (area ++ rest)).map Prod.fst =
        some (.string s) ↔
      (if isTextOutType outType = true
        then (decodeUtf8 (area.takeWhile (· != 0))).getD (decodeUtf16Lossy (takeUtf16 area).1)
        else decodeUtf16Lossy (takeUtf16 area).1) = s := by
    have hcount : resolveCount { prop with outType := outType } known = 1 := hone
    have hunicode : (withLength { prop with outType := outType } known).inType =
        tdhInTypeUnicodeString := hin
    rw [Etw.parseProperty, hcount, if_neg (by decide)]
    rw [parseOneValue_utf16 hunicode hrender hlength hpos heven, Option.some.injEq,
      EventFieldValue.string.injEq]
  have hnone := hparse 0 (by decide)
  rw [if_neg (by decide), hholds.decodeUtf16Lossy_iff] at hnone
  constructor
  · intro hall
    have hnul := hnone.mp (hall 0 (by decide))
    have hstring := (hparse tdhOutTypeString (by decide)).mp (hall tdhOutTypeString (by decide))
    refine ⟨hnul, ?_⟩
    rw [if_pos (by decide)] at hstring
    rw [← hholds.decodeUtf8_iff hnul, ValidText]
    cases hutf8 : decodeUtf8 (area.takeWhile (· != 0)) with
    | none => exact Or.inl (by decide)
    | some text =>
      rw [hutf8] at hstring
      exact Or.inr (congrArg some hstring)
  · rintro ⟨hnul, hcases⟩ outType hmem
    have hrender : ∀ outType ∈ utf16OutTypes, isRenderingOutType outType = false := by decide
    rw [hparse outType (hrender outType hmem)]
    have hunits := hholds.decodeUtf16Lossy_iff.mpr hnul
    rw [← hholds.decodeUtf8_iff hnul, ValidText] at hcases
    rw [hunits]
    split
    · rcases hcases with hinvalid | hvalid
      · rw [not_isSome_iff_eq_none.mp hinvalid]
        rfl
      · rw [hvalid]
        rfl
    · rfl

theorem utf16_out_types_ascii :
    HoldsUtf16 [0x41, 0] ['A'] [] ∧
      ∀ outType ∈ utf16OutTypes,
        (Etw.parseProperty { declaredProperty tdhInTypeUnicodeString 0 2 with outType := outType } []
          ([0x41, 0] ++ [])).map Prod.fst = some (.string ['A']) := by
  have hholds : HoldsUtf16 [0x41, 0] ['A'] [] := ⟨by decide, Or.inl rfl⟩
  exact ⟨hholds, (utf16_out_types_iff rfl rfl hholds rfl (by decide) (by decide) []).mpr
    ⟨by decide, Or.inr (Or.inr ⟨'A', rfl, by decide⟩)⟩⟩

/-- The text "AB" is decoded as "A" if its out-type is that of a string. -/
theorem utf16_out_type_truncates :
    utf16LeBytes (encodeUtf16 "AB".toList) = [0x41, 0, 0x42, 0] ∧
      Etw.parseProperty (declaredProperty tdhInTypeUnicodeString 0 4) [] [0x41, 0, 0x42, 0] =
        some (.string "AB".toList, 4) ∧
      Etw.parseProperty (declaredProperty tdhInTypeUnicodeString tdhOutTypeString 4) []
        [0x41, 0, 0x42, 0] = some (.string "A".toList, 4) := by
  refine ⟨?_, ?_, ?_⟩ <;> decide

structure SizedText (prop : PropertyMeta) : Prop where
  inType : (prop.inType = tdhInTypeUnicodeString ∧ prop.length.toNat%2 = 0) ∨
    prop.inType = tdhInTypeAnsiString
  pos : 0 < prop.length.toNat
  outType : isRenderingOutType prop.outType = false

structure NaturalLength (prop : PropertyMeta) : Prop where
  single : prop.count.toNat ≤ 1 ∧ prop.countPropertyIndex = none
  declared : prop.lengthPropertyIndex = none
  kind : ElementOfSize prop prop.length.toNat ∨ SizedText prop

def layout : List PropertyMeta → ℕ → List (Text × ℕ × ℕ)
  | [], _ => []
  | prop :: props, offset =>
    (prop.name, offset, offset+prop.length.toNat) :: layout props (offset+prop.length.toNat)

def fieldAreas (data : Bytes) : List PropertyMeta → ℕ → List (PropertyMeta × Bytes)
  | [], _ => []
  | prop :: props, offset => (prop, (data.drop offset).take prop.length.toNat) ::
      fieldAreas data props (offset+prop.length.toNat)

theorem overrideBytes_text {prop : PropertyMeta} (hrender : isRenderingOutType prop.outType = false)
    (data : Bytes) :
    overrideBytes prop data =
      if isTextOutType prop.outType ∧ 0 < prop.length.toNat ∧ prop.length.toNat ≤ data.length ∧
        ValidText (data.take prop.length.toNat) then some prop.length.toNat else none := by
  rw [← parseOutTypeOverride_bytes, parseOutTypeOverride_text prop data hrender,
    map_snd_textOverride]

theorem SizedText.parseOneValue_bytes {prop : PropertyMeta} (h : SizedText prop) {data : Bytes}
    (hdata : prop.length.toNat ≤ data.length) :
    (Etw.parseOneValue prop data).map Prod.snd =
      if prop.inType = tdhInTypeAnsiString ∧ ¬ ValidText (data.take prop.length.toNat) then none
      else some prop.length.toNat := by
  have hpos := h.pos
  rw [Etw.parseOneValue_bytes, overrideBytes_text h.outType]
  by_cases hover : isTextOutType prop.outType ∧ 0 < prop.length.toNat ∧
      prop.length.toNat ≤ data.length ∧ ValidText (data.take prop.length.toNat)
  · rw [if_pos hover, if_neg fun hinvalid => hinvalid.2 hover.2.2.2]
    rfl
  · rw [if_neg hover, none_or]
    rcases h.inType with ⟨hunicode, heven⟩ | hansi
    · have hansi : prop.inType ≠ tdhInTypeAnsiString := by
        rw [hunicode]
        decide
      rw [if_neg fun hinvalid => hansi hinvalid.1, ← parseInType_bytes,
        parseInType_unicodeString prop data hunicode, map_snd_string, map_snd_unicode, unicodeBytes,
        if_pos ⟨by omega, hdata⟩, if_pos heven]
    · have hbytes : inTypeBytes prop data = ansiBytes prop data := by
        rw [inTypeBytes_of_none, hansi]
        · rfl
        all_goals
          rw [hansi]
          decide
      rw [hbytes, ansiBytes, if_pos ⟨hpos, hdata⟩]
      by_cases hvalid : ValidText (data.take prop.length.toNat)
      · rw [if_pos hvalid, if_neg fun hinvalid => hinvalid.2 hvalid]
      · rw [if_neg hvalid, if_pos ⟨hansi, hvalid⟩]

theorem NaturalLength.parseProperty_bytes {prop : PropertyMeta} (h : NaturalLength prop)
    (known : List (Option UInt64)) {data : Bytes} (hdata : prop.length.toNat ≤ data.length) :
    (Etw.parseProperty prop known data).map Prod.snd =
      if prop.inType = tdhInTypeAnsiString ∧ ¬ ValidText (data.take prop.length.toNat) then none
      else some prop.length.toNat := by
  have hcount : ¬ 1 < resolveCount prop known := by
    rw [resolveCount, h.single.2, UInt16.lt_iff_toNat_lt, toNat_max_one, UInt16.toNat_one]
    have hone := h.single.1
    omega
  have hresolved : resolveLength prop known = prop.length := by
    rw [resolveLength, h.declared]
  have hlength : withLength prop known = prop := by
    rw [withLength, hresolved]
  rw [Etw.parseProperty, if_neg hcount]
  change (Etw.parseOneValue (withLength prop known) data).map Prod.snd = _
  rw [hlength]
  rcases h.kind with hscalar | htext
  · rw [if_neg fun hinvalid => hscalar.not_text.2.1 hinvalid.1]
    exact hscalar.parseOneValue_declared hdata rfl
  · exact htext.parseOneValue_bytes hdata

theorem NaturalLength.pos {prop : PropertyMeta} (h : NaturalLength prop) : 0 < prop.length.toNat := by
  rcases h.kind with hscalar | htext
  · exact hscalar.pos
  · exact htext.pos

theorem spansFrom_layout_iff {props : List PropertyMeta} (hnatural : ∀ prop ∈ props, NaturalLength prop)
    (data : Bytes) (offset : ℕ) (known : List (Option UInt64))
    (hlong : offset+(props.map (·.length.toNat)).sum ≤ data.length) :
    (spansFrom data props offset known).map (fun span => (span.field.name, span.start, span.stop)) =
        layout props offset ↔
      ∀ p ∈ fieldAreas data props offset, p.1.inType = tdhInTypeAnsiString → ValidText p.2 := by
  induction props generalizing offset known with
  | nil => simp [spansFrom, layout, fieldAreas]
  | cons prop props ih =>
    rw [map_cons, sum_cons] at hlong
    have hhead := hnatural prop mem_cons_self
    have hpos := hhead.pos
    have hdata : prop.length.toNat ≤ (data.drop offset).length := by
      rw [length_drop]
      omega
    have hbytes := hhead.parseProperty_bytes known hdata
    rw [spansFrom, if_neg (by omega), layout, fieldAreas, forall_mem_cons]
    by_cases hinvalid : prop.inType = tdhInTypeAnsiString ∧
        ¬ ValidText ((data.drop offset).take prop.length.toNat)
    · -- the loop stops at a text that cannot be decoded
      rw [if_pos hinvalid, map_eq_none_iff] at hbytes
      rw [hbytes]
      refine iff_of_false ?_ ?_
      · intro h
        cases h
      · intro h
        exact hinvalid.2 (h.1 hinvalid.1)
    · rw [if_neg hinvalid] at hbytes
      obtain ⟨⟨value, consumed⟩, hparsed, hconsumed⟩ := map_eq_some_iff.mp hbytes
      have hvalid : prop.inType = tdhInTypeAnsiString →
          ValidText ((data.drop offset).take prop.length.toNat) := by
        intro hansi
        by_contra hnot
        exact hinvalid ⟨hansi, hnot⟩
      have hrest := ih (fun p hp => hnatural p (mem_cons_of_mem _ hp)) (offset+consumed)
        (known ++ [extractNumericValue value]) (by rw [← hconsumed] at hlong; omega)
      rw [hparsed]
      dsimp only at hconsumed ⊢
      rw [hconsumed] at hrest ⊢
      rw [map_cons, cons_eq_cons, hrest]
      simp only [true_and, and_iff_right hvalid]

/-- With lengths that are natural for their types and a payload that has them, every property has a
field where it should be exactly if the texts in bytes can be decoded. -/
theorem natural_lengths_iff (schema : CachedSchema)
    (hnatural : ∀ prop ∈ schema.props, NaturalLength prop) (data : Slice UInt8)
    (hlong : (schema.props.map (·.length.toNat)).sum ≤ data.toList.length) :
    (parseSpans schema data).value.map (fun span => (span.field.name, span.start, span.stop)) =
        layout schema.props 0 ↔
      ∀ p ∈ fieldAreas data.toList schema.props 0,
        p.1.inType = tdhInTypeAnsiString → ValidText p.2 := by
  rw [value_parseSpans]
  apply spansFrom_layout_iff hnatural
  omega

theorem naturalLength_textThenByte {length : UInt16} (hpos : 0 < length.toNat) :
    ∀ prop ∈ (textThenByte length).props, NaturalLength prop := by
  have htext : NaturalLength (declaredProperty tdhInTypeAnsiString 0 length) :=
    ⟨⟨le_rfl, rfl⟩, rfl, Or.inr ⟨Or.inr rfl, hpos, rfl⟩⟩
  have hbyte : NaturalLength (declaredProperty tdhInTypeUInt8 0 1) :=
    ⟨⟨le_rfl, rfl⟩, rfl,
      Or.inl (elementOfSize_number rfl (by decide) rfl (by decide) (by decide))⟩
  exact forall_mem_cons.mpr ⟨htext, forall_mem_singleton.mpr hbyte⟩

theorem natural_lengths_text :
    (parseSpans (textThenByte 2) ⟨[0x48, 0x69, 5], by decide⟩).value.map
      (fun span => (span.field.name, span.start, span.stop)) = [([], 0, 2), ([], 2, 3)] :=
  (natural_lengths_iff (textThenByte 2) (naturalLength_textThenByte (by decide))
    ⟨[0x48, 0x69, 5], by decide⟩ (by decide)).mpr (by decide)

/-- A text of one byte that is no UTF-8, and a number: there is no field. -/
theorem natural_lengths_lost :
    (∀ prop ∈ (textThenByte 1).props, NaturalLength prop) ∧
      ((textThenByte 1).props.map (·.length.toNat)).sum = 2 ∧
      (Checked.parseValues (textThenByte 1) ⟨[0xFF, 5], by decide⟩).value = [] :=
  ⟨naturalLength_textThenByte (by decide), by decide, by decide +kernel⟩

end WindowsErg.Etw
