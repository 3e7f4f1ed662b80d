import WindowsErg.UnicodeText

/-! Decoding an event payload by its schema, `src/etw/schema.rs`. -/
namespace WindowsErg.Etw
open TextScan ByteCodec UnicodeText

structure Guid where
  data1 : UInt32
  data2 : UInt16
  data3 : UInt16
  data4 : Bytes
  deriving DecidableEq, Repr

inductive IpAddr where
  | v4 (octets : Bytes)
  | v6 (octets : Bytes)
  deriving DecidableEq, Repr

inductive EventFieldValue where
  | string (v : Text)
  | ipAddr (v : IpAddr)
  | u8 (v : UInt8)
  | u16 (v : UInt16)
  | u32 (v : UInt32)
  | u64 (v : UInt64)
  | i32 (v : Int32)
  | i64 (v : Int64)
  | bool (v : Bool)
  | guid (v : Guid)
  | binary (v : Bytes)
  | pointer (v : UInt64)
  deriving DecidableEq

structure EventField where
  name : Text
  value : EventFieldValue
  deriving DecidableEq

structure PropertyMeta where
  name : Text
  inType : ℕ
  outType : ℕ
  length : UInt16
  count : UInt16
  countPropertyIndex : Option ℕ
  lengthPropertyIndex : Option ℕ
  mapName : Option Text
  deriving DecidableEq

structure CachedSchema where
  props : List PropertyMeta
  deriving DecidableEq

def tdhInTypeUnicodeString : ℕ := 1
def tdhInTypeAnsiString : ℕ := 2
def tdhInTypeUInt8 : ℕ := 4
def tdhInTypeUInt16 : ℕ := 6
def tdhInTypeInt32 : ℕ := 7
def tdhInTypeUInt32 : ℕ := 8
def tdhInTypeInt64 : ℕ := 9
def tdhInTypeUInt64 : ℕ := 10
def tdhInTypeBoolean : ℕ := 13
def tdhInTypeGuid : ℕ := 15
def tdhInTypePointer : ℕ := 16
def tdhInTypeFileTime : ℕ := 17
def tdhInTypeSid : ℕ := 19
def tdhInTypeHexInt32 : ℕ := 20
def tdhInTypeHexInt64 : ℕ := 21

def tdhOutTypeString : ℕ := 1
def tdhOutTypeBoolean : ℕ := 13
def tdhOutTypeHexInt8 : ℕ := 16
def tdhOutTypeHexInt16 : ℕ := 17
def tdhOutTypeHexInt32 : ℕ := 18
def tdhOutTypeHexInt64 : ℕ := 19
def tdhOutTypePid : ℕ := 20
def tdhOutTypeTid : ℕ := 21
def tdhOutTypePort : ℕ := 22
def tdhOutTypeIpv4 : ℕ := 23
def tdhOutTypeIpv6 : ℕ := 24
def tdhOutTypeSocketAddress : ℕ := 25
def tdhOutTypeXml : ℕ := 28
def tdhOutTypeWin32Error : ℕ := 30
def tdhOutTypeNtStatus : ℕ := 31
def tdhOutTypeHResult : ℕ := 32
def tdhOutTypeJson : ℕ := 34
def tdhOutTypeUtf8 : ℕ := 35
def tdhOutTypeReducedString : ℕ := 300

abbrev Parsed := Option (EventFieldValue × ℕ)

def firstBytes (k : ℕ) (data : Bytes) : Option Bytes :=
  if k ≤ data.length then some (data.take k) else none

def leNumber (k : ℕ) (data : Bytes) : Option ℕ := (firstBytes k data).map ofLe

def hexText (width v : ℕ) : Text := "0x".toList ++ padZeros width (hexUpper v)

def parseHex (k : ℕ) (data : Bytes) : Parsed :=
  (leNumber k data).map fun v => (.string (hexText (2*k) v), k)

def parseGuid (data : Bytes) : Option Guid := do
  let d1 ← leNumber 4 data
  let d2 ← leNumber 2 (data.drop 4)
  let d3 ← leNumber 2 (data.drop 6)
  let d4 ← firstBytes 8 (data.drop 8)
  return ⟨UInt32.ofNat d1, UInt16.ofNat d2, UInt16.ofNat d3, d4⟩

def parseUtf16Sized (data : Bytes) (byteLen : ℕ) : Option (Text × ℕ) :=
  if byteLen = 0 ∨ data.length < byteLen ∨ byteLen%2 ≠ 0 then none
  else some (decodeUtf16Lossy (takeUtf16 (data.take byteLen)).1, byteLen)

def parseUtf16Cstr (data : Bytes) : Option (Text × ℕ) :=
  if data.length < 2 then none
  else some (decodeUtf16Lossy (takeUtf16 data).1, (takeUtf16 data).2)

/-- The strict UTF-8 text before the first NUL of the first `byteLen` bytes:
`parse_ascii_sized` and `parse_utf8_sized` have the same body. -/
def parseBytesSized (data : Bytes) (byteLen : ℕ) : Option (Text × ℕ) :=
  if byteLen = 0 ∨ data.length < byteLen then none
  else (decodeUtf8 ((data.take byteLen).takeWhile (· != 0))).map (·, byteLen)

def parseAsciiSized (data : Bytes) (byteLen : ℕ) : Option (Text × ℕ) := parseBytesSized data byteLen

def parseUtf8Sized (data : Bytes) (byteLen : ℕ) : Option (Text × ℕ) := parseBytesSized data byteLen

def parseAsciiCstr (data : Bytes) : Option (Text × ℕ) :=
  let end_ := (data.takeWhile (· != 0)).length
  (decodeUtf8 (data.take end_)).map fun text =>
    (text, if end_ < data.length then end_+1 else end_)

def subAuthoritiesText : ℕ → Bytes → Text
  | 0, _ => []
  | n+1, subs => '-' :: decimal (ofLe (subs.take 4)) ++ subAuthoritiesText n (subs.drop 4)

def parseSid (data : Bytes) : Option (Text × ℕ) := do
  let header ← firstBytes 8 data
  let count := (header.getD 1 0).toNat
  let len := 8+4*count
  let subs ← (firstBytes len data).map (List.drop 8)
  let authority := ofBe (header.drop 2)
  return ("S-".toList ++ decimal (header.getD 0 0).toNat ++ '-' :: decimal authority ++
    subAuthoritiesText count subs, len)

def parseSocketAddress (data : Bytes) : Parsed :=
  if data.length < 8 then none
  else
    let family := ofLe (data.take 2)
    if family = 2 then (firstBytes 4 (data.drop 4)).map fun b => (.ipAddr (.v4 b), 8)
    else if family = 23 then (firstBytes 16 (data.drop 8)).map fun b => (.ipAddr (.v6 b), 24)
    else none

def isTextOutType (outType : ℕ) : Bool :=
  outType == tdhOutTypeUtf8 || outType == tdhOutTypeString || outType == tdhOutTypeJson ||
    outType == tdhOutTypeXml || outType == tdhOutTypeReducedString

def parseOutTypeOverride (prop : PropertyMeta) (data : Bytes) : Parsed :=
  let sizeHint := prop.length.toNat
  let outType := prop.outType
  if outType = tdhOutTypeHexInt8 then parseHex 1 data
  else if outType = tdhOutTypeHexInt16 then parseHex 2 data
  else if outType = tdhOutTypeHexInt32 then parseHex 4 data
  else if outType = tdhOutTypeHexInt64 then parseHex 8 data
  else if outType = tdhOutTypeHResult ∨ outType = tdhOutTypeNtStatus ∨
      outType = tdhOutTypeWin32Error then parseHex 4 data
  -- a port is in network byte order
  else if outType = tdhOutTypePort then
    (firstBytes 2 data).map fun b => (.u16 (UInt16.ofNat (ofBe b)), 2)
  else if outType = tdhOutTypePid ∨ outType = tdhOutTypeTid then
    (leNumber 4 data).map fun v => (.u32 (UInt32.ofNat v), 4)
  else if outType = tdhOutTypeIpv4 then (firstBytes 4 data).map fun b => (.ipAddr (.v4 b), 4)
  else if outType = tdhOutTypeIpv6 then (firstBytes 16 data).map fun b => (.ipAddr (.v6 b), 16)
  else if outType = tdhOutTypeSocketAddress then parseSocketAddress data
  else if outType = tdhOutTypeBoolean then
    if 4 ≤ sizeHint ∧ sizeHint ≤ data.length then
      (leNumber 4 data).map fun v => (.bool (v != 0), 4)
    else data.head?.map fun b => (.bool (b != 0), 1)
  else if isTextOutType outType ∧ 0 < sizeHint ∧ sizeHint ≤ data.length then
    (parseUtf8Sized data sizeHint).map fun (s, consumed) => (.string s, consumed)
  else none

def parseScalar (scalarSize : ℕ) (make : ℕ → EventFieldValue) (prop : PropertyMeta)
    (data : Bytes) : Parsed :=
  let sizeHint := prop.length.toNat
  if scalarSize < sizeHint ∧ sizeHint ≤ data.length then
    some (.binary (data.take sizeHint), sizeHint)
  else (leNumber scalarSize data).map fun v => (make v, scalarSize)

def parseInType (prop : PropertyMeta) (data : Bytes) : Parsed :=
  let sizeHint := prop.length.toNat
  let inType := prop.inType
  if inType = tdhInTypeUInt8 then parseScalar 1 (fun v => .u8 (UInt8.ofNat v)) prop data
  else if inType = tdhInTypeUInt16 then parseScalar 2 (fun v => .u16 (UInt16.ofNat v)) prop data
  else if inType = tdhInTypeUInt32 then parseScalar 4 (fun v => .u32 (UInt32.ofNat v)) prop data
  else if inType = tdhInTypeUInt64 then parseScalar 8 (fun v => .u64 (UInt64.ofNat v)) prop data
  else if inType = tdhInTypeInt32 then
    parseScalar 4 (fun v => .i32 (UInt32.ofNat v).toInt32) prop data
  else if inType = tdhInTypeInt64 then
    parseScalar 8 (fun v => .i64 (UInt64.ofNat v).toInt64) prop data
  else if inType = tdhInTypeBoolean then (leNumber 4 data).map fun v => (.bool (v != 0), 4)
  else if inType = tdhInTypeGuid then (parseGuid data).map fun g => (.guid g, 16)
  else if inType = tdhInTypePointer then
    if sizeHint = 4 then (leNumber 4 data).map fun v => (.pointer (UInt64.ofNat v), 4)
    else (leNumber 8 data).map fun v => (.pointer (UInt64.ofNat v), 8)
  else if inType = tdhInTypeFileTime then
    (leNumber 8 data).map fun v => (.u64 (UInt64.ofNat v), 8)
  else if inType = tdhInTypeSid then
    (parseSid data).map fun (sid, consumed) => (.string sid, consumed)
  else if inType = tdhInTypeHexInt32 then parseHex 4 data
  else if inType = tdhInTypeHexInt64 then parseHex 8 data
  else if inType = tdhInTypeUnicodeString then
    (if 2 ≤ sizeHint ∧ sizeHint ≤ data.length then parseUtf16Sized data sizeHint
      else parseUtf16Cstr data).map fun (s, consumed) => (.string s, consumed)
  else if inType = tdhInTypeAnsiString then
    (if 0 < sizeHint ∧ sizeHint ≤ data.length then parseAsciiSized data sizeHint
      else parseAsciiCstr data).map fun (s, consumed) => (.string s, consumed)
  else
    let take := if 0 < sizeHint then min sizeHint data.length else data.length
    some (.binary (data.take take), take)

theorem parseInType_uInt32 (prop : PropertyMeta) (data : Bytes)
    (h : prop.inType = tdhInTypeUInt32) :
    parseInType prop data = parseScalar 4 (fun v => .u32 (UInt32.ofNat v)) prop data := by
  simp [parseInType, h, tdhInTypeUInt8, tdhInTypeUInt16, tdhInTypeUInt32]

theorem parseInType_uInt64 (prop : PropertyMeta) (data : Bytes)
    (h : prop.inType = tdhInTypeUInt64) :
    parseInType prop data = parseScalar 8 (fun v => .u64 (UInt64.ofNat v)) prop data := by
  simp [parseInType, h, tdhInTypeUInt8, tdhInTypeUInt16, tdhInTypeUInt32, tdhInTypeUInt64]

theorem parseInType_unicodeString (prop : PropertyMeta) (data : Bytes)
    (h : prop.inType = tdhInTypeUnicodeString) :
    parseInType prop data =
      (if 2 ≤ prop.length.toNat ∧ prop.length.toNat ≤ data.length
        then parseUtf16Sized data prop.length.toNat else parseUtf16Cstr data).map
          fun (s, consumed) => (.string s, consumed) := by
  simp [parseInType, h, tdhInTypeUInt8, tdhInTypeUInt16, tdhInTypeUInt32, tdhInTypeUInt64,
    tdhInTypeInt32, tdhInTypeInt64, tdhInTypeBoolean, tdhInTypeGuid, tdhInTypePointer,
    tdhInTypeFileTime, tdhInTypeSid, tdhInTypeHexInt32, tdhInTypeHexInt64,
    tdhInTypeUnicodeString]

def parseOneValue (prop : PropertyMeta) (data : Bytes) : Parsed :=
  (parseOutTypeOverride prop data).or (parseInType prop data)

def extractNumericValue : EventFieldValue → Option UInt64
  | .u8 v => some v.toUInt64
  | .u16 v => some v.toUInt64
  | .u32 v => some v.toUInt64
  | .u64 v => some v
  | .i32 v => if 0 ≤ v.toInt then some (UInt64.ofNat v.toInt.toNat) else none
  | .i64 v => if 0 ≤ v.toInt then some (UInt64.ofNat v.toInt.toNat) else none
  | .pointer v => some v
  | .bool v => some (if v then 1 else 0)
  | _ => none

def extractTextValue : EventFieldValue → Option Text
  | .string v => some v
  | _ => none

def elementSizeHint (prop : PropertyMeta) : Option ℕ :=
  if prop.outType = tdhOutTypeIpv4 then some 4
  else if prop.outType = tdhOutTypeIpv6 then some 16
  else if prop.inType = tdhInTypeUInt8 then some 1
  else if prop.inType = tdhInTypeUInt16 then some 2
  else if prop.inType = tdhInTypeUInt32 then some 4
  else if prop.inType = tdhInTypeUInt64 then some 8
  else if prop.inType = tdhInTypeInt32 then some 4
  else if prop.inType = tdhInTypeInt64 then some 8
  else if prop.inType = tdhInTypeBoolean then some 4
  else if prop.inType = tdhInTypeGuid then some 16
  else if prop.inType = tdhInTypePointer then some 8
  else if prop.inType = tdhInTypeFileTime then some 8
  else if prop.inType = tdhInTypeHexInt32 then some 4
  else if prop.inType = tdhInTypeHexInt64 then some 8
  else none

def parseCountedValue (prop : PropertyMeta) (count : ℕ) (data : Bytes) : Parsed :=
  let declaredLen := prop.length.toNat
  let bytesToTake := if count ≤ declaredLen then declaredLen else declaredLen*count
  if count = 0 then some (.binary [], 0)
  else if 0 < declaredLen ∧ 0 < bytesToTake ∧ bytesToTake ≤ data.length then
    some (.binary (data.take bytesToTake), bytesToTake)
  else do
    let elementSize ← elementSizeHint prop
    if data.length < elementSize*count then none
    else some (.binary (data.take (elementSize*count)), elementSize*count)

def referencedU16 (parsedNumeric : List (Option UInt64)) (index : ℕ) : Option UInt16 :=
  (parsedNumeric[index]?.join).bind fun v =>
    if v.toNat < 2^16 then some (UInt16.ofNat v.toNat) else none

def resolveCount (prop : PropertyMeta) (parsedNumeric : List (Option UInt64)) : UInt16 :=
  match prop.countPropertyIndex with
  | some index => max ((referencedU16 parsedNumeric index).getD 1) 1
  | none => max prop.count 1

def resolveLength (prop : PropertyMeta) (parsedNumeric : List (Option UInt64)) : UInt16 :=
  match prop.lengthPropertyIndex with
  | some index => (referencedU16 parsedNumeric index).getD prop.length
  | none => prop.length

def parseProperty (prop : PropertyMeta) (parsedNumeric : List (Option UInt64)) (data : Bytes) :
    Parsed :=
  let resolvedCount := resolveCount prop parsedNumeric
  let runtimeProp := { prop with length := resolveLength prop parsedNumeric }
  if 1 < resolvedCount then parseCountedValue runtimeProp resolvedCount.toNat data
  else parseOneValue runtimeProp data

/-- The loop of `parse_values`: its fields and the offset it stops at. `parsedNumeric` has an
entry for each property before the current one. -/
def parseLoop (data : Bytes) :
    List PropertyMeta → ℕ → List (Option UInt64) → List EventField × ℕ
  | [], offset, _ => ([], offset)
  | prop :: props, offset, parsedNumeric =>
    if data.length ≤ offset then ([], offset)
    else
      match parseProperty prop parsedNumeric (data.drop offset) with
      | none => ([], offset)
      | some (value, consumed) =>
        let rest := parseLoop data props (offset+consumed)
          (parsedNumeric ++ [extractNumericValue value])
        (⟨prop.name, value⟩ :: rest.1, rest.2)

def parseValues (schema : CachedSchema) (data : Bytes) : List EventField :=
  (parseLoop data schema.props 0 []).1

def parsedLength (schema : CachedSchema) (data : Bytes) : ℕ :=
  (parseLoop data schema.props 0 []).2

end WindowsErg.Etw
