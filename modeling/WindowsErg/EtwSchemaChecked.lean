import WindowsErg.EtwSchema
import WindowsErg.GuardedRun

/-! The decoder of event payloads, `src/etw/schema.rs`, with every index and every sum checked. -/
namespace WindowsErg.Etw.Checked
open Option List TextScan ByteCodec UnicodeText GuardedRun Guarded

def parseSocketAddress (data : Bytes) : Guarded Parsed :=
  if data.length < 8 then pure none
  else do
    let low ← index data 0
    let high ← index data 1
    let family := ofLe [low, high]
    if family = 2 then pure ((getRange data 4 8).map fun b => (.ipAddr (.v4 b), 8))
    else if family = 23 then pure ((getRange data 8 24).map fun b => (.ipAddr (.v6 b), 24))
    else pure none

def utf16SizedLoop (data : Bytes) (byteLen idx : ℕ) (units : List UInt16) :
    Guarded (List UInt16) := do
  check (idx+1 < usizeLimit) .overflow
  if _hmore : idx+1 < byteLen then
    let low ← index data idx
    let high ← index data (idx+1)
    let unit := UInt16.ofNat (ofLe [low, high])
    if unit = 0 then pure units
    else
      check (idx+2 < usizeLimit) .overflow
      utf16SizedLoop data byteLen (idx+2) (units ++ [unit])
  else pure units
termination_by byteLen-idx

def parseUtf16Sized (data : Bytes) (byteLen : ℕ) : Guarded (Option (Text × ℕ)) :=
  if byteLen = 0 ∨ data.length < byteLen ∨ byteLen%2 ≠ 0 then pure none
  else do
    let units ← utf16SizedLoop data byteLen 0 []
    pure (some (decodeUtf16Lossy units, byteLen))

def utf16CstrLoop (data : Bytes) (consumed : ℕ) (units : List UInt16) :
    Guarded (List UInt16 × ℕ) := do
  check (consumed+1 < usizeLimit) .overflow
  if _hmore : consumed+1 < data.length then
    let low ← index data consumed
    let high ← index data (consumed+1)
    let unit := UInt16.ofNat (ofLe [low, high])
    check (consumed+2 < usizeLimit) .overflow
    if unit = 0 then pure (units, consumed+2)
    else utf16CstrLoop data (consumed+2) (units ++ [unit])
  else pure (units, consumed)
termination_by data.length-consumed

def parseUtf16Cstr (data : Bytes) : Guarded (Option (Text × ℕ)) :=
  if data.length < 2 then pure none
  else do
    let (units, consumed) ← utf16CstrLoop data 0 []
    pure (some (decodeUtf16Lossy units, consumed))

def parseBytesSized (data : Bytes) (byteLen : ℕ) : Guarded (Option (Text × ℕ)) :=
  if byteLen = 0 ∨ data.length < byteLen then pure none
  else do
    let raw ← sliceTo data byteLen
    let text ← sliceTo raw (raw.findIdx (· == 0))
    pure ((decodeUtf8 text).map (·, byteLen))

def parseAsciiCstr (data : Bytes) : Guarded (Option (Text × ℕ)) := do
  let end_ := data.findIdx (· == 0)
  let bytes ← sliceTo data end_
  match decodeUtf8 bytes with
  | none => pure none
  | some text =>
    let consumed ← if end_ < data.length then addIn usizeLimit end_ 1 else pure end_
    pure (some (text, consumed))

def parseSid (data : Bytes) : Guarded (Option (Text × ℕ)) :=
  match getRange data 0 8 with
  | none => pure none
  | some header => do
    let count ← index header 1
    let subsLen ← mulIn usizeLimit 4 count.toNat
    let len ← addIn usizeLimit 8 subsLen
    match getRange data 8 len with
    | none => pure none
    | some subs =>
      let authority ← slice header 2 8
      let revision ← index header 0
      pure (some ("S-".toList ++ decimal revision.toNat ++ '-' :: decimal (ofBe authority) ++
        subAuthoritiesText count.toNat subs, len))

def stringValue (parsed : Option (Text × ℕ)) : Parsed :=
  parsed.map fun (s, consumed) => (.string s, consumed)

def parseOutTypeOverride (prop : PropertyMeta) (data : Bytes) : Guarded Parsed :=
  let sizeHint := prop.length.toNat
  let outType := prop.outType
  if outType = tdhOutTypeHexInt8 then pure (parseHex 1 data)
  else if outType = tdhOutTypeHexInt16 then pure (parseHex 2 data)
  else if outType = tdhOutTypeHexInt32 then pure (parseHex 4 data)
  else if outType = tdhOutTypeHexInt64 then pure (parseHex 8 data)
  else if outType = tdhOutTypeHResult ∨ outType = tdhOutTypeNtStatus ∨
      outType = tdhOutTypeWin32Error then pure (parseHex 4 data)
  else if outType = tdhOutTypePort then
    pure ((firstBytes 2 data).map fun b => (.u16 (UInt16.ofNat (ofBe b)), 2))
  else if outType = tdhOutTypePid ∨ outType = tdhOutTypeTid then
    pure ((leNumber 4 data).map fun v => (.u32 (UInt32.ofNat v), 4))
  else if outType = tdhOutTypeIpv4 then
    pure ((firstBytes 4 data).map fun b => (.ipAddr (.v4 b), 4))
  else if outType = tdhOutTypeIpv6 then
    pure ((firstBytes 16 data).map fun b => (.ipAddr (.v6 b), 16))
  else if outType = tdhOutTypeSocketAddress then parseSocketAddress data
  else if outType = tdhOutTypeBoolean then
    pure (if 4 ≤ sizeHint ∧ sizeHint ≤ data.length then
      (leNumber 4 data).map fun v => (.bool (v != 0), 4)
    else data.head?.map fun b => (.bool (b != 0), 1))
  else if isTextOutType outType ∧ 0 < sizeHint ∧ sizeHint ≤ data.length then
    stringValue <$> parseBytesSized data sizeHint
  else pure none

def parseScalar (scalarSize : ℕ) (make : ℕ → EventFieldValue) (prop : PropertyMeta)
    (data : Bytes) : Guarded Parsed :=
  let sizeHint := prop.length.toNat
  if scalarSize < sizeHint ∧ sizeHint ≤ data.length then do
    let blob ← sliceTo data sizeHint
    pure (some (.binary blob, sizeHint))
  else pure ((leNumber scalarSize data).map fun v => (make v, scalarSize))

def parseInType (prop : PropertyMeta) (data : Bytes) : Guarded Parsed :=
  let sizeHint := prop.length.toNat
  let inType := prop.inType
  if inType = tdhInTypeUInt8 then parseScalar 1 (fun v => .u8 (UInt8.ofNat v)) prop data
  else if inType = tdhInTypeUInt16 then parseScalar 2 (fun v => .u16 (UInt16.ofNat v)) prop data
  else if inType = tdhInTypeUInt32 then parseScalar 4 (fun v => .u32 (UInt32.ofNat v)) prop data
  else if inType = tdhInTypeUInt64 then parseScalar 8 (fun v => .u64 (UInt64.ofNat v)) prop data
  else if inType = tdhInTypeInt32 then
    parseScalar 4 (fun v => .i32 (UInt32.ofNat v).toInt32) prop data
  else if inType = tdhInTypeInt64 then
    parseScalar 8 (fun v => .i64 (UInt64.ofNat v).toInt64) prop data
  else if inType = tdhInTypeBoolean then pure ((leNumber 4 data).map fun v => (.bool (v != 0), 4))
  else if inType = tdhInTypeGuid then pure ((parseGuid data).map fun g => (.guid g, 16))
  else if inType = tdhInTypePointer then
    pure (if sizeHint = 4 then (leNumber 4 data).map fun v => (.pointer (UInt64.ofNat v), 4)
      else (leNumber 8 data).map fun v => (.pointer (UInt64.ofNat v), 8))
  else if inType = tdhInTypeFileTime then
    pure ((leNumber 8 data).map fun v => (.u64 (UInt64.ofNat v), 8))
  else if inType = tdhInTypeSid then stringValue <$> parseSid data
  else if inType = tdhInTypeHexInt32 then pure (parseHex 4 data)
  else if inType = tdhInTypeHexInt64 then pure (parseHex 8 data)
  else if inType = tdhInTypeUnicodeString then
    stringValue <$> (if 2 ≤ sizeHint ∧ sizeHint ≤ data.length then parseUtf16Sized data sizeHint
      else parseUtf16Cstr data)
  else if inType = tdhInTypeAnsiString then
    stringValue <$> (if 0 < sizeHint ∧ sizeHint ≤ data.length then parseBytesSized data sizeHint
      else parseAsciiCstr data)
  else do
    let take := if 0 < sizeHint then min sizeHint data.length else data.length
    let blob ← sliceTo data take
    pure (some (.binary blob, take))

def parseOneValue (prop : PropertyMeta) (data : Bytes) : Guarded Parsed := do
  match ← parseOutTypeOverride prop data with
  | some found => pure (some found)
  | none => parseInType prop data

def checkedMul (a b : ℕ) : Option ℕ := if a*b < usizeLimit then some (a*b) else none

def saturatingMul (a b : ℕ) : ℕ := min (a*b) (usizeLimit-1)

def saturatingAdd (a b : ℕ) : ℕ := min (a+b) (usizeLimit-1)

def parseCountedValue (prop : PropertyMeta) (count : UInt16) (data : Bytes) : Guarded Parsed :=
  let declaredLen := prop.length.toNat
  let bytesToTake :=
    if count.toNat ≤ declaredLen then declaredLen else saturatingMul declaredLen count.toNat
  if count = 0 then pure (some (.binary [], 0))
  else if 0 < declaredLen ∧ 0 < bytesToTake ∧ bytesToTake ≤ data.length then do
    let blob ← sliceTo data bytesToTake
    pure (some (.binary blob, bytesToTake))
  else
    match (elementSizeHint prop).bind (checkedMul · count.toNat) with
    | none => pure none
    | some bytesToTake =>
      if data.length < bytesToTake then pure none
      else do
        let blob ← sliceTo data bytesToTake
        pure (some (.binary blob, bytesToTake))

def parseProperty (prop : PropertyMeta) (parsedNumeric : List (Option UInt64)) (data : Bytes) :
    Guarded Parsed :=
  let resolvedCount := resolveCount prop parsedNumeric
  let runtimeProp := { prop with length := resolveLength prop parsedNumeric }
  if 1 < resolvedCount then parseCountedValue runtimeProp resolvedCount data
  else parseOneValue runtimeProp data

structure FieldSpan where
  field : EventField
  start : ℕ
  stop : ℕ

def parseLoop (data : Bytes) : List PropertyMeta → ℕ → ℕ → List (Option UInt64) → List FieldSpan →
    Guarded (List FieldSpan)
  | [], _, _, _, fields => pure fields
  | prop :: props, idx, offset, parsedNumeric, fields =>
    if data.length ≤ offset then pure fields
    else do
      let rest ← sliceFrom data offset
      match ← parseProperty prop parsedNumeric rest with
      | none => pure fields
      | some (value, consumed) =>
        let parsedNumeric ← store parsedNumeric idx (extractNumericValue value)
        let next := saturatingAdd offset consumed
        parseLoop data props (idx+1) next parsedNumeric
          (fields ++ [⟨⟨prop.name, value⟩, offset, next⟩])

def parseSpans (schema : CachedSchema) (data : Slice UInt8) : Guarded (List FieldSpan) :=
  parseLoop data.toList schema.props 0 0 (List.replicate schema.props.length none) []

def parseValues (schema : CachedSchema) (data : Slice UInt8) : Guarded (List EventField) :=
  List.map FieldSpan.field <$> parseSpans schema data

variable (k : ℕ)

section
variable (data : Bytes)

theorem getRange_zero (k : ℕ) : getRange data 0 k = firstBytes k data := by
  simp [getRange, firstBytes]

theorem getRange_drop (first k : ℕ) (hfirst : first ≤ data.length) :
    getRange data first (first+k) = firstBytes k (data.drop first) := by
  have hiff : first ≤ first+k ∧ first+k ≤ data.length ↔ k ≤ (data.drop first).length := by
    rw [length_drop]
    omega
  simp only [getRange, firstBytes, hiff, drop_take, Nat.add_sub_cancel_left]

theorem drop_eq_cons_cons (i : ℕ) (h : i+1 < data.length) :
    data.drop i = data.getD i default :: data.getD (i+1) default :: data.drop (i+2) := by
  have hi : i < data.length := by omega
  rw [drop_eq_getElem_cons hi, drop_eq_getElem_cons h]
  simp only [getD_eq_getElem?_getD, List.getElem?_eq_getElem hi, List.getElem?_eq_getElem h,
    getD_some]

theorem parseSocketAddress_eq :
    parseSocketAddress data = pure (Etw.parseSocketAddress data) := by
  unfold parseSocketAddress Etw.parseSocketAddress
  split
  · rfl
  · rename_i hlong
    have hfamily : data.take 2 = [data.getD 0 default, data.getD 1 default] :=
      congrArg (List.take 2) (drop_eq_cons_cons data 0 (by omega))
    have h4 : getRange data 4 8 = firstBytes 4 (data.drop 4) := getRange_drop data 4 4 (by omega)
    have h8 : getRange data 8 24 = firstBytes 16 (data.drop 8) := getRange_drop data 8 16 (by omega)
    rw [index_eq (by omega), index_eq (by omega), pure_bind, pure_bind, ← hfamily, h4, h8]
    simp only [apply_ite (pure : Parsed → Guarded Parsed)]

theorem takeUtf16_short {bytes : Bytes} (h : bytes.length ≤ 1) : takeUtf16 bytes = ([], 0) := by
  match bytes, h with
  | [], _ => rfl
  | [_], _ => rfl

theorem utf16SizedLoop_eq (byteLen : ℕ) (hlen : byteLen ≤ data.length)
    (hlimit : data.length < 2^63) (idx : ℕ) (hidx : idx ≤ byteLen) (units : List UInt16) :
    utf16SizedLoop data byteLen idx units =
      pure (units ++ (takeUtf16 ((data.take byteLen).drop idx)).1) := by
  -- each round goes two bytes further
  induction hrest : byteLen-idx using Nat.strong_induction_on generalizing idx units with
  | _ rest ih =>
    have hbound : idx+2 < usizeLimit := by
      unfold usizeLimit
      omega
    rw [utf16SizedLoop, check_bind (by omega)]
    by_cases hmore : idx+1 < byteLen
    · have htake : (data.take byteLen).length = byteLen := length_take_of_le hlen
      have hcons := drop_eq_cons_cons (data.take byteLen) idx (by omega)
      have hlow : (data.take byteLen).getD idx default = data.getD idx default := by
        simp only [getD_eq_getElem?_getD, List.getElem?_take_of_lt (show idx < byteLen by omega)]
      have hhigh : (data.take byteLen).getD (idx+1) default = data.getD (idx+1) default := by
        simp only [getD_eq_getElem?_getD, List.getElem?_take_of_lt hmore]
      rw [dif_pos hmore, index_eq (by omega), index_eq (by omega), pure_bind, pure_bind, hcons, hlow,
        hhigh, takeUtf16]
      dsimp only
      split
      · simp
      · rw [check_bind hbound, ih _ (by omega) (idx+2) (by omega) _ rfl, append_assoc]
        rfl
    · have hshort : ((data.take byteLen).drop idx).length ≤ 1 := by
        rw [length_drop, length_take]
        omega
      rw [dif_neg hmore, takeUtf16_short hshort, append_nil]

theorem parseUtf16Sized_eq (hlimit : data.length < 2^63) (byteLen : ℕ) :
    parseUtf16Sized data byteLen = pure (Etw.parseUtf16Sized data byteLen) := by
  unfold parseUtf16Sized Etw.parseUtf16Sized
  split
  · rfl
  · rw [utf16SizedLoop_eq data byteLen (by omega) hlimit 0 (Nat.zero_le _) [], pure_bind]
    rfl

theorem utf16CstrLoop_eq (hlimit : data.length < 2^63) (consumed : ℕ)
    (hconsumed : consumed ≤ data.length) (units : List UInt16) :
    utf16CstrLoop data consumed units = pure (units ++ (takeUtf16 (data.drop consumed)).1,
      consumed+(takeUtf16 (data.drop consumed)).2) := by
  induction hrest : data.length-consumed using Nat.strong_induction_on
    generalizing consumed units with
  | _ rest ih =>
    have hbound : consumed+2 < usizeLimit := by
      unfold usizeLimit
      omega
    rw [utf16CstrLoop, check_bind (by omega)]
    by_cases hmore : consumed+1 < data.length
    · have hcons := drop_eq_cons_cons data consumed hmore
      rw [dif_pos hmore, index_eq (by omega), index_eq hmore, pure_bind, pure_bind, check_bind hbound,
        hcons, takeUtf16]
      split
      · simp
      · rw [ih _ (by omega) (consumed+2) (by omega) _ rfl, append_assoc]
        simp only [cons_append, nil_append]
        congr 2
        omega
    · have hshort : (data.drop consumed).length ≤ 1 := by
        rw [length_drop]
        omega
      rw [dif_neg hmore, takeUtf16_short hshort, append_nil, Nat.add_zero]

theorem parseUtf16Cstr_eq (hlimit : data.length < 2^63) :
    parseUtf16Cstr data = pure (Etw.parseUtf16Cstr data) := by
  unfold parseUtf16Cstr Etw.parseUtf16Cstr
  split
  · rfl
  · rw [utf16CstrLoop_eq data hlimit 0 (Nat.zero_le _) [], pure_bind]
    simp

theorem take_findIdx_zero (bytes : Bytes) :
    bytes.take (bytes.findIdx (· == 0)) = bytes.takeWhile (· != 0) := by
  have hnot : bytes.takeWhile (· != 0) = bytes.take (bytes.findIdx fun b => !(b != 0)) :=
    takeWhile_eq_take_findIdx_not
  simpa [bne] using hnot.symm

theorem length_takeWhile_nonzero (bytes : Bytes) :
    (bytes.takeWhile (· != 0)).length = bytes.findIdx (· == 0) := by
  rw [← take_findIdx_zero, length_take, min_eq_left findIdx_le_length]

theorem parseBytesSized_eq (byteLen : ℕ) :
    parseBytesSized data byteLen = pure (Etw.parseBytesSized data byteLen) := by
  unfold parseBytesSized Etw.parseBytesSized
  split
  · rfl
  · rw [sliceTo_eq (by omega), pure_bind, sliceTo_eq findIdx_le_length, pure_bind,
      take_findIdx_zero]

theorem parseAsciiCstr_eq (hlimit : data.length < 2^63) :
    parseAsciiCstr data = pure (Etw.parseAsciiCstr data) := by
  have hend : data.findIdx (· == 0) ≤ data.length := findIdx_le_length
  unfold parseAsciiCstr Etw.parseAsciiCstr
  dsimp only
  rw [sliceTo_eq hend, pure_bind, length_takeWhile_nonzero]
  cases decodeUtf8 (data.take (data.findIdx (· == 0))) with
  | none => rfl
  | some text =>
    dsimp only
    split
    · have hbound : data.findIdx (· == 0)+1 < usizeLimit := by
        unfold usizeLimit
        omega
      rw [addIn_eq hbound, pure_bind]
      rfl
    · rw [pure_bind]
      rfl

theorem parseSid_eq : parseSid data = pure (Etw.parseSid data) := by
  unfold parseSid Etw.parseSid
  rw [getRange_zero]
  cases hheader : firstBytes 8 data with
  | none => rfl
  | some header =>
    have hlong : 8 ≤ data.length ∧ header = data.take 8 := by
      unfold firstBytes at hheader
      split_ifs at hheader with hle
      exact ⟨hle, (Option.some.inj hheader).symm⟩
    have hlen : header.length = 8 := by
      rw [hlong.2, length_take_of_le hlong.1]
    -- the number of sub-authorities is a byte
    have hcount := (header.getD 1 default).toNat_lt
    have hsubs : 4*(header.getD 1 default).toNat < usizeLimit := by
      unfold usizeLimit
      omega
    have htotal : 8+4*(header.getD 1 default).toNat < usizeLimit := by
      unfold usizeLimit
      omega
    have hauthority : (header.take 8).drop 2 = header.drop 2 := by
      rw [take_of_length_le hlen.le]
    dsimp only
    rw [index_eq (by omega), pure_bind, mulIn_eq hsubs, pure_bind, addIn_eq htotal, pure_bind]
    have hrange : getRange data 8 (8+4*(header.getD 1 default).toNat) =
        (firstBytes (8+4*(header.getD 1 default).toNat) data).map (List.drop 8) := by
      simp only [getRange, firstBytes, Nat.le_add_right, true_and]
      split <;> rfl
    rw [hrange]
    change _ = pure (((firstBytes (8+4*(header.getD 1 default).toNat) data).map (List.drop 8)).bind
      fun subs => some ("S-".toList ++ decimal (header.getD 0 default).toNat ++ '-' ::
        decimal (ofBe (header.drop 2)) ++ subAuthoritiesText (header.getD 1 default).toNat subs,
        8+4*(header.getD 1 default).toNat))
    cases (firstBytes (8+4*(header.getD 1 default).toNat) data).map (List.drop 8) with
    | none => rfl
    | some subs =>
      dsimp only
      rw [slice_eq ⟨by omega, hlen.ge⟩, pure_bind, index_eq (by omega), pure_bind, hauthority]
      rfl

end

variable (prop : PropertyMeta)

theorem parseOutTypeOverride_eq (data : Bytes) :
    parseOutTypeOverride prop data = pure (Etw.parseOutTypeOverride prop data) := by
  unfold parseOutTypeOverride Etw.parseOutTypeOverride
  dsimp only
  simp only [parseSocketAddress_eq, parseBytesSized_eq, map_pure,
    apply_ite (pure : Parsed → Guarded Parsed)]
  rfl

theorem parseScalar_eq (scalarSize : ℕ) (make : ℕ → EventFieldValue) (prop : PropertyMeta)
    (data : Bytes) :
    parseScalar scalarSize make prop data = pure (Etw.parseScalar scalarSize make prop data) := by
  unfold parseScalar Etw.parseScalar
  dsimp only
  split
  · rename_i hblob
    rw [sliceTo_eq hblob.2, pure_bind]
  · rfl

theorem parseInType_eq (data : Bytes) (hlimit : data.length < 2^63) :
    parseInType prop data = pure (Etw.parseInType prop data) := by
  have htake : (if 0 < prop.length.toNat then min prop.length.toNat data.length
      else data.length) ≤ data.length := by
    split
    · exact min_le_right _ _
    · exact le_rfl
  unfold parseInType Etw.parseInType
  dsimp only
  simp only [parseScalar_eq, parseSid_eq, parseUtf16Sized_eq data hlimit,
    parseUtf16Cstr_eq data hlimit, parseBytesSized_eq, parseAsciiCstr_eq data hlimit,
    sliceTo_eq htake, map_pure, pure_bind, ← apply_ite (pure : Option (Text × ℕ) → Guarded _),
    apply_ite (pure : Parsed → Guarded Parsed)]
  rfl

theorem parseOneValue_eq (data : Bytes) (hlimit : data.length < 2^63) :
    parseOneValue prop data = pure (Etw.parseOneValue prop data) := by
  rw [parseOneValue, parseOutTypeOverride_eq, pure_bind, Etw.parseOneValue]
  cases Etw.parseOutTypeOverride prop data with
  | none => exact parseInType_eq prop data hlimit
  | some found => rfl

theorem forall_mem_ite {c : Prop} [Decidable c] {size bound : ℕ} {other : Option ℕ}
    (hsize : size ≤ bound) (hother : ∀ n ∈ other, n ≤ bound) :
    ∀ n ∈ (if c then some size else other), n ≤ bound := by
  split
  · intro n hn
    cases hn
    exact hsize
  · exact hother

theorem elementSizeHint_le : ∀ size ∈ elementSizeHint prop, size ≤ 16 := by
  unfold elementSizeHint
  iterate 14 refine forall_mem_ite (by decide) ?_
  simp

theorem product_lt {a : ℕ} (count : UInt16) (ha : a < 2^16) : a*count.toNat < usizeLimit := by
  have hcount := count.toNat_lt
  calc a*count.toNat ≤ 2^16*2^16 := Nat.mul_le_mul ha.le hcount.le
    _ < usizeLimit := by decide

theorem parseCountedValue_eq (count : UInt16) (data : Bytes) :
    parseCountedValue prop count data = pure (Etw.parseCountedValue prop count.toNat data) := by
  have hmul : saturatingMul prop.length.toNat count.toNat = prop.length.toNat*count.toNat := by
    have hlt := product_lt count prop.length.toNat_lt
    unfold saturatingMul
    omega
  have hzero : count = 0 ↔ count.toNat = 0 := by
    rw [← UInt16.toNat_inj]
    rfl
  unfold parseCountedValue Etw.parseCountedValue
  dsimp only
  rw [hmul]
  simp only [hzero]
  generalize (if count.toNat ≤ prop.length.toNat then prop.length.toNat
    else prop.length.toNat*count.toNat) = bytesToTake
  split
  · rfl
  split
  · rename_i hblob
    rw [sliceTo_eq hblob.2.2, pure_bind]
  · cases hsize : elementSizeHint prop with
    | none => rfl
    | some size =>
      have hle := elementSizeHint_le prop size hsize
      have hchecked : checkedMul size count.toNat = some (size*count.toNat) :=
        if_pos (product_lt count (by omega))
      rw [bind_some, hchecked]
      dsimp only
      split
      · rename_i hshort
        simp [hshort]
      · rename_i hlong
        rw [sliceTo_eq (by omega), pure_bind]
        simp [hlong]

def Within {α : Type} (data : Bytes) (parsed : Option (α × ℕ)) : Prop :=
  ∀ value consumed, parsed = some (value, consumed) → consumed ≤ data.length

section Within
variable {α β : Type} {data : Bytes}

theorem within_none : Within data (none : Option (α × ℕ)) := by
  intro value consumed h
  cases h

theorem within_some {value : α} {consumed : ℕ} (h : consumed ≤ data.length) :
    Within data (some (value, consumed)) := by
  rintro _ _ ⟨⟩
  exact h

theorem within_ite {c : Prop} [Decidable c] {first second : Option (α × ℕ)}
    (hfirst : c → Within data first) (hsecond : ¬ c → Within data second) :
    Within data (if c then first else second) := by
  split
  · exact hfirst ‹_›
  · exact hsecond ‹_›

theorem within_map {found : Option β} {k : ℕ} (make : β → α)
    (h : ∀ b, found = some b → k ≤ data.length) :
    Within data (found.map fun b => (make b, k)) := by
  cases found with
  | none => exact within_none
  | some b => exact within_some (h b rfl)

theorem length_of_firstBytes {k : ℕ} {bytes : Bytes} (h : firstBytes k data = some bytes) :
    k ≤ data.length := by
  unfold firstBytes at h
  split_ifs at h with hle
  exact hle

theorem within_firstBytes (make : Bytes → α) :
    Within data ((firstBytes k data).map fun b => (make b, k)) :=
  within_map make fun _ h => length_of_firstBytes h

theorem within_leNumber (make : ℕ → α) :
    Within data ((leNumber k data).map fun v => (make v, k)) := by
  apply within_map make
  intro v h
  obtain ⟨bytes, hbytes, -⟩ := map_eq_some_iff.mp h
  exact length_of_firstBytes hbytes

theorem Within.string {parsed : Option (Text × ℕ)} (h : Within data parsed) :
    Within data (parsed.map fun (s, consumed) => (EventFieldValue.string s, consumed)) := by
  cases parsed with
  | none => exact within_none
  | some p => exact within_some (h p.1 p.2 rfl)

end Within

theorem takeUtf16_le (bytes : Bytes) : (takeUtf16 bytes).2 ≤ bytes.length := by
  induction bytes using takeUtf16.induct with
  | case1 a b rest unit hzero => simp [takeUtf16, unit, hzero]
  | case2 a b rest unit hunit ih =>
    rw [takeUtf16, if_neg hunit]
    simp only [length_cons]
    omega
  | case3 bytes hshort =>
    rw [takeUtf16]
    · exact Nat.zero_le _
    · exact hshort

section
variable (data : Bytes)

theorem within_parseUtf16Sized (byteLen : ℕ) :
    Within data (Etw.parseUtf16Sized data byteLen) :=
  within_ite (fun _ => within_none) fun h => within_some (by omega)

theorem within_parseUtf16Cstr : Within data (Etw.parseUtf16Cstr data) :=
  within_ite (fun _ => within_none) fun _ => within_some (takeUtf16_le data)

theorem within_parseBytesSized (byteLen : ℕ) :
    Within data (Etw.parseBytesSized data byteLen) :=
  within_ite (fun _ => within_none) fun h => within_map _ fun _ _ => by omega

theorem within_parseAsciiCstr : Within data (Etw.parseAsciiCstr data) := by
  have hend : (data.takeWhile (· != 0)).length ≤ data.length := (takeWhile_sublist _).length_le
  apply within_map
  intro text _
  split
  · assumption
  · exact hend

theorem within_parseSid : Within data (Etw.parseSid data) := by
  rintro text consumed h
  simp only [Etw.parseSid, bind_eq_bind, bind_eq_some_iff] at h
  obtain ⟨header, -, subs, hsubs, htext⟩ := h
  obtain ⟨bytes, hbytes, -⟩ := map_eq_some_iff.mp hsubs
  cases htext
  exact length_of_firstBytes hbytes

theorem within_parseGuid :
    Within data ((parseGuid data).map fun g => (EventFieldValue.guid g, 16)) := by
  apply within_map
  intro guid h
  simp only [parseGuid, bind_eq_bind, bind_eq_some_iff] at h
  -- the last part of the identifier is read at offset 8
  obtain ⟨-, -, -, -, -, -, bytes, hbytes, -⟩ := h
  have hlast := length_of_firstBytes hbytes
  rw [length_drop] at hlast
  omega

theorem within_parseSocketAddress : Within data (Etw.parseSocketAddress data) := by
  refine within_ite (fun _ => within_none) fun hlong => ?_
  refine within_ite (fun _ => within_map _ fun _ _ => by omega) fun _ => ?_
  refine within_ite (fun _ => within_map _ fun bytes h => ?_) fun _ => within_none
  have hlast := length_of_firstBytes h
  rw [length_drop] at hlast
  omega

theorem within_parseHex : Within data (parseHex k data) :=
  within_leNumber k _

theorem within_parseOutTypeOverride :
    Within data (Etw.parseOutTypeOverride prop data) := by
  refine within_ite (fun _ => within_parseHex 1 data) fun _ => ?_
  refine within_ite (fun _ => within_parseHex 2 data) fun _ => ?_
  refine within_ite (fun _ => within_parseHex 4 data) fun _ => ?_
  refine within_ite (fun _ => within_parseHex 8 data) fun _ => ?_
  refine within_ite (fun _ => within_parseHex 4 data) fun _ => ?_
  refine within_ite (fun _ => within_firstBytes 2 _) fun _ => ?_
  refine within_ite (fun _ => within_leNumber 4 _) fun _ => ?_
  refine within_ite (fun _ => within_firstBytes 4 _) fun _ => ?_
  refine within_ite (fun _ => within_firstBytes 16 _) fun _ => ?_
  refine within_ite (fun _ => within_parseSocketAddress data) fun _ => ?_
  refine within_ite (fun _ => ?_) fun _ => ?_
  · refine within_ite (fun _ => within_leNumber 4 _) fun _ => within_map _ fun b h => ?_
    exact length_pos_of_mem (mem_of_mem_head? h)
  · exact within_ite (fun _ => (within_parseBytesSized data _).string) fun _ => within_none

end

theorem within_parseScalar (scalarSize : ℕ) (make : ℕ → EventFieldValue) (prop : PropertyMeta)
    (data : Bytes) : Within data (Etw.parseScalar scalarSize make prop data) :=
  within_ite (fun h => within_some h.2) fun _ => within_leNumber scalarSize make

theorem within_parseInType (data : Bytes) : Within data (Etw.parseInType prop data) := by
  iterate 6 refine within_ite (fun _ => within_parseScalar _ _ prop data) fun _ => ?_
  refine within_ite (fun _ => within_leNumber 4 _) fun _ => ?_
  refine within_ite (fun _ => within_parseGuid data) fun _ => ?_
  refine within_ite (fun _ => ?_) fun _ => ?_
  · exact within_ite (fun _ => within_leNumber 4 _) fun _ => within_leNumber 8 _
  refine within_ite (fun _ => within_leNumber 8 _) fun _ => ?_
  refine within_ite (fun _ => (within_parseSid data).string) fun _ => ?_
  refine within_ite (fun _ => within_parseHex 4 data) fun _ => ?_
  refine within_ite (fun _ => within_parseHex 8 data) fun _ => ?_
  refine within_ite (fun _ => Within.string ?_) fun _ => ?_
  · exact within_ite (fun _ => within_parseUtf16Sized data _) fun _ => within_parseUtf16Cstr data
  refine within_ite (fun _ => Within.string ?_) fun _ => within_some ?_
  · exact within_ite (fun _ => within_parseBytesSized data _) fun _ => within_parseAsciiCstr data
  · split
    · exact min_le_right _ _
    · exact le_rfl

theorem within_parseOneValue (data : Bytes) : Within data (Etw.parseOneValue prop data) := by
  intro value consumed h
  rcases or_eq_some_iff.mp h with hoverride | ⟨-, hin⟩
  · exact within_parseOutTypeOverride prop data value consumed hoverride
  · exact within_parseInType prop data value consumed hin

theorem within_parseCountedValue (count : ℕ) (data : Bytes) :
    Within data (Etw.parseCountedValue prop count data) := by
  refine within_ite (fun _ => within_some (Nat.zero_le _)) fun _ => ?_
  refine within_ite (fun h => within_some h.2.2) fun _ => ?_
  cases elementSizeHint prop with
  | none => exact within_none
  | some size => exact within_ite (fun _ => within_none) fun h => within_some (by omega)

theorem within_parseProperty (parsedNumeric : List (Option UInt64)) (data : Bytes) :
    Within data (Etw.parseProperty prop parsedNumeric data) :=
  within_ite (fun _ => within_parseCountedValue _ _ data) fun _ => within_parseOneValue _ data

inductive Tiles : ℕ → List FieldSpan → ℕ → Prop
  | nil (n : ℕ) : Tiles n [] n
  | cons {field : EventField} {start next stop : ℕ} {spans : List FieldSpan} (hle : start ≤ next)
      (hrest : Tiles next spans stop) : Tiles start (⟨field, start, next⟩ :: spans) stop

section
variable (known : List (Option UInt64))

theorem referencedU16_append (n index : ℕ) :
    referencedU16 (known ++ List.replicate n none) index = referencedU16 known index := by
  unfold referencedU16
  by_cases hindex : index < known.length
  · rw [List.getElem?_append_left hindex]
  · have hnone : (known ++ List.replicate n none)[index]?.join = none := by
      rw [List.getElem?_append_right (by omega), List.getElem?_replicate]
      split <;> rfl
    rw [hnone, List.getElem?_eq_none (by omega)]
    rfl

theorem resolveCount_append (n : ℕ) :
    resolveCount prop (known ++ List.replicate n none) = resolveCount prop known := by
  simp only [resolveCount, referencedU16_append]

theorem resolveLength_append (n : ℕ) :
    resolveLength prop (known ++ List.replicate n none) = resolveLength prop known := by
  simp only [resolveLength, referencedU16_append]

theorem parseProperty_eq (n : ℕ) (data : Bytes)
    (hlimit : data.length < 2^63) :
    parseProperty prop (known ++ List.replicate n none) data =
      pure (Etw.parseProperty prop known data) := by
  unfold parseProperty Etw.parseProperty
  dsimp only
  rw [resolveCount_append, resolveLength_append, parseCountedValue_eq,
    parseOneValue_eq _ data hlimit, ← apply_ite (pure : Parsed → Guarded Parsed)]

end

def spansFrom (data : Bytes) : List PropertyMeta → ℕ → List (Option UInt64) → List FieldSpan
  | [], _, _ => []
  | prop :: props, offset, known =>
    if data.length ≤ offset then []
    else
      match Etw.parseProperty prop known (data.drop offset) with
      | none => []
      | some (value, consumed) => ⟨⟨prop.name, value⟩, offset, offset+consumed⟩ ::
          spansFrom data props (offset+consumed) (known ++ [extractNumericValue value])

theorem offset_add_le {prop : PropertyMeta} {known : List (Option UInt64)} {data : Bytes} {offset : ℕ}
    {value : EventFieldValue} {consumed : ℕ} (hoffset : offset ≤ data.length)
    (hparsed : Etw.parseProperty prop known (data.drop offset) = some (value, consumed)) :
    offset+consumed ≤ data.length := by
  have hconsumed := within_parseProperty prop known _ value consumed hparsed
  rw [length_drop] at hconsumed
  omega

theorem parseLoop_eq (data : Bytes) (hlimit : data.length < 2^63) (props : List PropertyMeta)
    (offset : ℕ) (hoffset : offset ≤ data.length) (known : List (Option UInt64))
    (fields : List FieldSpan) :
    parseLoop data props known.length offset (known ++ List.replicate props.length none) fields =
      pure (fields ++ spansFrom data props offset known) := by
  induction props generalizing offset known fields with
  | nil => simp [parseLoop, spansFrom]
  | cons prop props ih =>
    rw [parseLoop, spansFrom]
    by_cases hend : data.length ≤ offset
    · rw [if_pos hend, if_pos hend, append_nil]
    · have hrest : (data.drop offset).length < 2^63 := by
        rw [length_drop]
        omega
      rw [if_neg hend, if_neg hend, sliceFrom_eq hoffset, pure_bind, parseProperty_eq prop known _ _ hrest,
        pure_bind]
      cases hparsed : Etw.parseProperty prop known (data.drop offset) with
      | none => simp
      | some parsed =>
        obtain ⟨value, consumed⟩ := parsed
        have hle := offset_add_le hoffset hparsed
        have hnext : saturatingAdd offset consumed = offset+consumed := by
          unfold saturatingAdd usizeLimit
          omega
        have hstored : (known ++ List.replicate (props.length+1) none).set known.length
            (extractNumericValue value) =
            (known ++ [extractNumericValue value]) ++ List.replicate props.length none := by
          rw [set_append_right _ _ le_rfl, Nat.sub_self, replicate_succ, set_cons_zero,
            append_assoc]
          rfl
        have hrun := ih (offset+consumed) hle (known ++ [extractNumericValue value])
          (fields ++ [⟨⟨prop.name, value⟩, offset, offset+consumed⟩])
        rw [length_append, length_singleton] at hrun
        dsimp only
        rw [length_cons, store_eq _ (by simp), pure_bind, hstored, hnext, hrun, append_assoc]
        rfl

theorem parseSpans_eq (schema : CachedSchema) (data : Slice UInt8) :
    parseSpans schema data = pure (spansFrom data.toList schema.props 0 []) :=
  parseLoop_eq data.toList data.length_lt schema.props 0 (Nat.zero_le _) [] []

section Spans
variable (data : Bytes) (props : List PropertyMeta) (offset : ℕ) (known : List (Option UInt64))

theorem map_field_spansFrom :
    (spansFrom data props offset known).map FieldSpan.field =
      (Etw.parseLoop data props offset known).1 := by
  induction props generalizing offset known with
  | nil => rfl
  | cons prop props ih =>
    rw [spansFrom, Etw.parseLoop]
    split
    · rfl
    · cases Etw.parseProperty prop known (data.drop offset) with
      | none => rfl
      | some parsed =>
        dsimp only
        rw [map_cons, ih]

theorem names_spansFrom_prefix :
    (spansFrom data props offset known).map (·.field.name) <+: props.map (·.name) := by
  induction props generalizing offset known with
  | nil => exact nil_prefix
  | cons prop props ih =>
    rw [spansFrom]
    split
    · exact nil_prefix
    · split
      · exact nil_prefix
      · exact cons_prefix_cons.mpr ⟨rfl, ih _ _⟩

theorem spansFrom_tiles (hoffset : offset ≤ data.length) :
    ∃ total ≤ data.length, Tiles offset (spansFrom data props offset known) total := by
  induction props generalizing offset known with
  | nil => exact ⟨offset, hoffset, .nil offset⟩
  | cons prop props ih =>
    rw [spansFrom]
    split
    · exact ⟨offset, hoffset, .nil offset⟩
    · split
      · exact ⟨offset, hoffset, .nil offset⟩
      · rename_i value consumed hparsed
        obtain ⟨total, htotal, htiles⟩ := ih _ (known ++ [extractNumericValue value])
          (offset_add_le hoffset hparsed)
        exact ⟨total, htotal, .cons (Nat.le_add_right offset consumed) htiles⟩

end Spans

theorem parseValues_eq (schema : CachedSchema) (data : Slice UInt8) :
    parseValues schema data = pure (Etw.parseValues schema data.toList) := by
  rw [parseValues, parseSpans_eq, map_pure, map_field_spansFrom]
  rfl

/-- No check fails, the fields are those of the first properties, and they tile the payload from its
start. -/
theorem parse_values_tiles (schema : CachedSchema) (data : Slice UInt8) :
    ∃ spans, (parseSpans schema data).outcome = .ok spans ∧
      (parseValues schema data).outcome = .ok (spans.map FieldSpan.field) ∧
      spans.map (·.field.name) <+: schema.props.map (·.name) ∧
      ∃ total ≤ data.toList.length, Tiles 0 spans total := by
  refine ⟨spansFrom data.toList schema.props 0 [], ?_, ?_, names_spansFrom_prefix _ _ _ _,
    spansFrom_tiles _ _ _ _ (Nat.zero_le _)⟩
  · rw [parseSpans_eq, outcome_pure]
  · rw [parseValues, parseSpans_eq, map_pure, outcome_pure]

end WindowsErg.Etw.Checked
