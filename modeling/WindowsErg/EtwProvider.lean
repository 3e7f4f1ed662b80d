import WindowsErg.EtwSchema

/-! The payloads that a provider writes, `src/etw/provider.rs`, read back by the schema decoder. -/
namespace WindowsErg.Etw
open List TextScan ByteCodec UnicodeText

/-- One field of an event; a float is given by its bits. -/
inductive EventData where
  | u32 (v : UInt32)
  | u64 (v : UInt64)
  | f32 (bits : UInt32)
  | str (s : Text)
  deriving DecidableEq, Repr

def EventData.encode : EventData → Bytes
  | .u32 v => leBytes 4 v.toNat
  | .u64 v => leBytes 8 v.toNat
  | .f32 bits => leBytes 4 bits.toNat
  | .str s => utf16LeBytes (encodeUtf16 s ++ [0])

def encodePayload (fields : List EventData) : Bytes := fields.flatMap EventData.encode

inductive PlainData where
  | u32 (v : UInt32)
  | u64 (v : UInt64)
  | str (s : Text) (no_nul : Char.ofNat 0 ∉ s)

namespace PlainData

def data : PlainData → EventData
  | u32 v => .u32 v
  | u64 v => .u64 v
  | str s _ => .str s

def value : PlainData → EventFieldValue
  | u32 v => .u32 v
  | u64 v => .u64 v
  | str s _ => .string s

def inType : PlainData → ℕ
  | u32 _ => tdhInTypeUInt32
  | u64 _ => tdhInTypeUInt64
  | str _ _ => tdhInTypeUnicodeString

def length : PlainData → UInt16
  | u32 _ => 4
  | u64 _ => 8
  | str _ _ => 0

end PlainData

def isRenderingOutType (outType : ℕ) : Bool :=
  outType ∈ [tdhOutTypeHexInt8, tdhOutTypeHexInt16, tdhOutTypeHexInt32, tdhOutTypeHexInt64,
    tdhOutTypeHResult, tdhOutTypeNtStatus, tdhOutTypeWin32Error, tdhOutTypePort, tdhOutTypePid,
    tdhOutTypeTid, tdhOutTypeIpv4, tdhOutTypeIpv6, tdhOutTypeSocketAddress, tdhOutTypeBoolean]

structure PropertyMeta.Describes (prop : PropertyMeta) (item : PlainData) : Prop where
  inType : prop.inType = item.inType
  length : prop.length = item.length
  count : prop.count = 1
  countPropertyIndex : prop.countPropertyIndex = none
  lengthPropertyIndex : prop.lengthPropertyIndex = none
  outType : isRenderingOutType prop.outType = false
  textOutType : isTextOutType prop.outType = true → item.length = 0

theorem leNumber_append (k v : ℕ) (hv : v < 256^k) (rest : Bytes) :
    leNumber k (leBytes k v ++ rest) = some v := by
  have hlen : k ≤ (leBytes k v ++ rest).length := by
    rw [length_append, leBytes_length]
    omega
  rw [leNumber, firstBytes, if_pos hlen, take_left' (leBytes_length k v), Option.map_some,
    ofLe_leBytes k v hv]

theorem parseOutTypeOverride_text (prop : PropertyMeta) (data : Bytes)
    (hrender : isRenderingOutType prop.outType = false) :
    parseOutTypeOverride prop data =
      if isTextOutType prop.outType ∧ 0 < prop.length.toNat ∧ prop.length.toNat ≤ data.length then
        (parseUtf8Sized data prop.length.toNat).map
          fun (s, consumed) => (.string s, consumed)
      else none := by
  simp only [isRenderingOutType, decide_eq_false_iff_not, mem_cons, not_mem_nil,
    or_false, not_or] at hrender
  obtain ⟨h1, h2, h3, h4, h5, h6, h7, h8, h9, h10, h11, h12, h13, h14⟩ := hrender
  unfold parseOutTypeOverride
  simp only [if_neg h1, if_neg h2, if_neg h3, if_neg h4, h5, h6, h7, if_neg h8, h9, h10, or_self,
    if_neg h11, if_neg h12, if_neg h13, if_neg h14, if_false]

theorem parseOutTypeOverride_eq_none (prop : PropertyMeta) (data : Bytes)
    (hrender : isRenderingOutType prop.outType = false)
    (htext : isTextOutType prop.outType = true → prop.length = 0) :
    parseOutTypeOverride prop data = none := by
  rw [parseOutTypeOverride_text prop data hrender, if_neg]
  rintro ⟨ht, hpos, -⟩
  rw [htext ht] at hpos
  exact Nat.lt_irrefl 0 hpos

theorem parseScalar_encode (k v : ℕ) (make : ℕ → EventFieldValue) (prop : PropertyMeta)
    (hlen : prop.length.toNat = k) (hv : v < 256^k) (rest : Bytes) :
    parseScalar k make prop (leBytes k v ++ rest) = some (make v, k) := by
  unfold parseScalar
  rw [hlen, if_neg (fun h => Nat.lt_irrefl k h.1), leNumber_append k v hv, Option.map_some]

theorem parseUtf16Cstr_encode (s : Text) (hs : Char.ofNat 0 ∉ s) (rest : Bytes) :
    parseUtf16Cstr (utf16LeBytes (encodeUtf16 s ++ [0]) ++ rest) =
      some (s, (utf16LeBytes (encodeUtf16 s ++ [0])).length) := by
  have hlength : (utf16LeBytes (encodeUtf16 s ++ [0])).length = 2*(encodeUtf16 s).length+2 := by
    rw [length_utf16LeBytes, length_append, length_singleton]
    omega
  have htake := takeUtf16_terminated (encodeUtf16 s) (ne_zero_of_mem_encodeUtf16 s hs) rest
  rw [parseUtf16Cstr, htake, if_neg, decodeUtf16Lossy_encodeUtf16, hlength]
  rw [length_append, hlength]
  omega

theorem parseInType_encode (item : PlainData) (prop : PropertyMeta) (h : prop.Describes item)
    (rest : Bytes) :
    parseInType prop (item.data.encode ++ rest) =
      some (item.value, item.data.encode.length) := by
  have hlen := h.length
  cases item with
  | u32 v =>
    rw [parseInType_uInt32 prop _ h.inType]
    have hread := parseScalar_encode 4 v.toNat (fun v => .u32 (UInt32.ofNat v)) prop
      (congrArg UInt16.toNat hlen) v.toNat_lt rest
    rw [UInt32.ofNat_toNat] at hread
    exact hread
  | u64 v =>
    rw [parseInType_uInt64 prop _ h.inType]
    have hread := parseScalar_encode 8 v.toNat (fun v => .u64 (UInt64.ofNat v)) prop
      (congrArg UInt16.toNat hlen) v.toNat_lt rest
    rw [UInt64.ofNat_toNat] at hread
    exact hread
  | str s hs =>
    have hzero : prop.length.toNat = 0 := congrArg UInt16.toNat hlen
    rw [parseInType_unicodeString prop _ h.inType, hzero,
      if_neg (fun hsized => absurd hsized.1 (by decide))]
    change (parseUtf16Cstr (utf16LeBytes (encodeUtf16 s ++ [0]) ++ rest)).map _ = _
    rw [parseUtf16Cstr_encode s hs rest]
    rfl

theorem parseProperty_encode (item : PlainData) (prop : PropertyMeta) (h : prop.Describes item)
    (parsedNumeric : List (Option UInt64)) (rest : Bytes) :
    parseProperty prop parsedNumeric (item.data.encode ++ rest) =
      some (item.value, item.data.encode.length) := by
  have hcount : resolveCount prop parsedNumeric = 1 := by
    rw [resolveCount, h.countPropertyIndex, h.count]
    rfl
  have hlength : resolveLength prop parsedNumeric = prop.length := by
    rw [resolveLength, h.lengthPropertyIndex]
  have hnone := parseOutTypeOverride_eq_none prop (item.data.encode ++ rest) h.outType
    (fun ht => h.length.trans (h.textOutType ht))
  rw [parseProperty, hcount, hlength, if_neg (by decide)]
  change (parseOutTypeOverride prop _).or (parseInType prop _) = _
  rw [hnone, Option.none_or, parseInType_encode item prop h rest]

theorem encode_ne_nil (item : PlainData) : item.data.encode ≠ [] := by
  apply ne_nil_of_length_pos
  cases item with
  | u32 v => exact Nat.lt_of_lt_of_eq (by decide) (leBytes_length 4 v.toNat).symm
  | u64 v => exact Nat.lt_of_lt_of_eq (by decide) (leBytes_length 8 v.toNat).symm
  | str s hs =>
    change 0 < (utf16LeBytes (encodeUtf16 s ++ [0])).length
    rw [length_utf16LeBytes, length_append]
    exact Nat.mul_pos (by decide) (Nat.succ_pos _)

def fieldsOf (props : List PropertyMeta) (items : List PlainData) : List EventField :=
  (props.zip items).map fun (prop, item) => ⟨prop.name, item.value⟩

theorem fieldsOf_names_values (props : List PropertyMeta) (items : List PlainData)
    (h : props.length = items.length) :
    (fieldsOf props items).map EventField.name = props.map PropertyMeta.name ∧
      (fieldsOf props items).map EventField.value = items.map PlainData.value := by
  have hnames : (props.zip items).map Prod.fst = props := map_fst_zip h.le
  have hvalues : (props.zip items).map Prod.snd = items := map_snd_zip h.ge
  constructor
  · calc
      (fieldsOf props items).map EventField.name
        = ((props.zip items).map Prod.fst).map PropertyMeta.name := by
          rw [fieldsOf, map_map, map_map]
          rfl
      _ = props.map PropertyMeta.name := by rw [hnames]
  · calc
      (fieldsOf props items).map EventField.value
        = ((props.zip items).map Prod.snd).map PlainData.value := by
          rw [fieldsOf, map_map, map_map]
          rfl
      _ = items.map PlainData.value := by rw [hvalues]

theorem parseLoop_encode (props : List PropertyMeta) (items : List PlainData)
    (h : List.Forall₂ PropertyMeta.Describes props items) (before : Bytes)
    (parsedNumeric : List (Option UInt64)) :
    parseLoop (before ++ encodePayload (items.map PlainData.data)) props before.length
        parsedNumeric =
      (fieldsOf props items,
        before.length+(encodePayload (items.map PlainData.data)).length) := by
  -- by the items: each one is decoded at the end of the encodings before it
  induction h generalizing before parsedNumeric with
  | nil => rfl
  | @cons prop item props items hprop _ ih =>
    have hpayload : encodePayload ((item :: items).map PlainData.data) =
        item.data.encode ++ encodePayload (items.map PlainData.data) := rfl
    have hpos : 0 < item.data.encode.length := length_pos_of_ne_nil (encode_ne_nil item)
    -- the offset stands in front of the item, behind it stands the rest of the payload
    have hdrop : (before ++ encodePayload ((item :: items).map PlainData.data)).drop before.length =
        item.data.encode ++ encodePayload (items.map PlainData.data) := by
      rw [hpayload, drop_left]
    have hmore : ¬ (before ++ encodePayload ((item :: items).map PlainData.data)).length ≤
        before.length := by
      rw [hpayload, length_append, length_append]
      omega
    have hnext := ih (before ++ item.data.encode) (parsedNumeric ++ [extractNumericValue item.value])
    rw [append_assoc, ← hpayload, length_append] at hnext
    rw [parseLoop, if_neg hmore, hdrop, parseProperty_encode item prop hprop]
    dsimp only
    rw [hnext, hpayload, length_append, Nat.add_assoc]
    rfl

/-- The schema decoder gives back every list of integers and NUL-free strings that a provider
writes: one field for each, in order, up to the end of the payload. -/
theorem provider_payload_decodes (props : List PropertyMeta) (items : List PlainData)
    (h : List.Forall₂ PropertyMeta.Describes props items) :
    let payload := encodePayload (items.map PlainData.data)
    (parseValues ⟨props⟩ payload).map EventField.value = items.map PlainData.value ∧
      (parseValues ⟨props⟩ payload).map EventField.name = props.map PropertyMeta.name ∧
      parsedLength ⟨props⟩ payload = payload.length := by
  have hloop := parseLoop_encode props items h [] []
  rw [nil_append, length_nil, Nat.zero_add] at hloop
  obtain ⟨hnames, hvalues⟩ := fieldsOf_names_values props items h.length_eq
  have hfields : parseValues ⟨props⟩ (encodePayload (items.map PlainData.data)) =
      fieldsOf props items := congrArg Prod.fst hloop
  intro payload
  rw [hfields]
  exact ⟨hvalues, hnames, congrArg Prod.snd hloop⟩

def PlainData.property (item : PlainData) (name : Text) : PropertyMeta :=
  ⟨name, item.inType, 0, item.length, 1, none, none, none⟩

theorem PlainData.property_describes (item : PlainData) (name : Text) :
    (item.property name).Describes item :=
  ⟨rfl, rfl, rfl, rfl, rfl, rfl, fun h => absurd h (show ¬ isTextOutType 0 = true by decide)⟩

theorem provider_payload_decodes_three_items :
    (parseValues ⟨[(PlainData.u64 42).property "Count".toList,
          (PlainData.str "ok€".toList (by decide)).property "Status".toList,
          (PlainData.u32 7).property "Code".toList]⟩
        (encodePayload [.u64 42, .str "ok€".toList, .u32 7])).map EventField.value =
      [.u64 42, .string "ok€".toList, .u32 7] := by
  have hdescribes : List.Forall₂ PropertyMeta.Describes
      [(PlainData.u64 42).property "Count".toList,
        (PlainData.str "ok€".toList (by decide)).property "Status".toList,
        (PlainData.u32 7).property "Code".toList]
      [.u64 42, .str "ok€".toList (by decide), .u32 7] :=
    .cons (PlainData.property_describes _ _) (.cons (PlainData.property_describes _ _)
      (.cons (PlainData.property_describes _ _) .nil))
  exact (provider_payload_decodes _ _ hdescribes).1

end WindowsErg.Etw
