import WindowsErg.EtwSchemaCache
import WindowsErg.EtwSchemaChecked

/-! Where the fields of a payload lie: the number of bytes that a value takes by its types. -/
namespace WindowsErg.Etw
open List TextScan ByteCodec UnicodeText GuardedRun Guarded Checked

def sized (k : ℕ) (data : Bytes) : Option ℕ := if k ≤ data.length then some k else none

def outTypeSize (outType : ℕ) : Option ℕ :=
  if outType = tdhOutTypeHexInt8 then some 1
  else if outType = tdhOutTypeHexInt16 then some 2
  else if outType = tdhOutTypeHexInt32 then some 4
  else if outType = tdhOutTypeHexInt64 then some 8
  else if outType = tdhOutTypeHResult ∨ outType = tdhOutTypeNtStatus ∨
      outType = tdhOutTypeWin32Error then some 4
  else if outType = tdhOutTypePort then some 2
  else if outType = tdhOutTypePid ∨ outType = tdhOutTypeTid then some 4
  else if outType = tdhOutTypeIpv4 then some 4
  else if outType = tdhOutTypeIpv6 then some 16
  else none

def socketBytes (data : Bytes) : Option ℕ :=
  if data.length < 8 then none
  else if ofLe (data.take 2) = 2 then some 8
  else if ofLe (data.take 2) = 23 then sized 24 data
  else none

def ValidText (area : Bytes) : Prop := (decodeUtf8 (area.takeWhile (· != 0))).isSome = true

instance (area : Bytes) : Decidable (ValidText area) := inferInstanceAs (Decidable (_ = true))

def unsizedOverrideBytes (prop : PropertyMeta) (data : Bytes) : Option ℕ :=
  if prop.outType = tdhOutTypeSocketAddress then socketBytes data
  else if prop.outType = tdhOutTypeBoolean then
    if 4 ≤ prop.length.toNat ∧ prop.length.toNat ≤ data.length then sized 4 data else sized 1 data
  else if isTextOutType prop.outType ∧ 0 < prop.length.toNat ∧
      prop.length.toNat ≤ data.length ∧ ValidText (data.take prop.length.toNat) then
    some prop.length.toNat
  else none

def overrideBytes (prop : PropertyMeta) (data : Bytes) : Option ℕ :=
  (outTypeSize prop.outType).elim (unsizedOverrideBytes prop data) (sized · data)

def scalarBytes (scalarSize : ℕ) (prop : PropertyMeta) (data : Bytes) : Option ℕ :=
  if scalarSize < prop.length.toNat ∧ prop.length.toNat ≤ data.length then some prop.length.toNat
  else sized scalarSize data

def unicodeBytes (prop : PropertyMeta) (data : Bytes) : Option ℕ :=
  if 2 ≤ prop.length.toNat ∧ prop.length.toNat ≤ data.length then
    if prop.length.toNat%2 = 0 then some prop.length.toNat else none
  else if data.length < 2 then none
  else some (takeUtf16 data).2

def ansiBytes (prop : PropertyMeta) (data : Bytes) : Option ℕ :=
  if 0 < prop.length.toNat ∧ prop.length.toNat ≤ data.length then
    if ValidText (data.take prop.length.toNat) then some prop.length.toNat else none
  else (Etw.parseAsciiCstr data).map Prod.snd

def inTypeBytes (prop : PropertyMeta) (data : Bytes) : Option ℕ :=
  if prop.inType = tdhInTypeUInt8 then scalarBytes 1 prop data
  else if prop.inType = tdhInTypeUInt16 then scalarBytes 2 prop data
  else if prop.inType = tdhInTypeUInt32 then scalarBytes 4 prop data
  else if prop.inType = tdhInTypeUInt64 then scalarBytes 8 prop data
  else if prop.inType = tdhInTypeInt32 then scalarBytes 4 prop data
  else if prop.inType = tdhInTypeInt64 then scalarBytes 8 prop data
  else if prop.inType = tdhInTypeBoolean then sized 4 data
  else if prop.inType = tdhInTypeGuid then sized 16 data
  else if prop.inType = tdhInTypePointer then
    if prop.length.toNat = 4 then sized 4 data else sized 8 data
  else if prop.inType = tdhInTypeFileTime then sized 8 data
  else if prop.inType = tdhInTypeSid then (Etw.parseSid data).map Prod.snd
  else if prop.inType = tdhInTypeHexInt32 then sized 4 data
  else if prop.inType = tdhInTypeHexInt64 then sized 8 data
  else if prop.inType = tdhInTypeUnicodeString then unicodeBytes prop data
  else if prop.inType = tdhInTypeAnsiString then ansiBytes prop data
  else some (if 0 < prop.length.toNat then min prop.length.toNat data.length else data.length)

theorem map_snd_firstBytes (k : ℕ) (data : Bytes) (make : Bytes → EventFieldValue) :
    ((firstBytes k data).map fun b => (make b, k)).map Prod.snd = sized k data := by
  unfold firstBytes sized
  split <;> rfl

theorem map_snd_leNumber (k : ℕ) (data : Bytes) (make : ℕ → EventFieldValue) :
    ((leNumber k data).map fun v => (make v, k)).map Prod.snd = sized k data := by
  unfold leNumber firstBytes sized
  split <;> rfl

theorem map_snd_parseHex (k : ℕ) (data : Bytes) : (parseHex k data).map Prod.snd = sized k data :=
  map_snd_leNumber k data _

theorem map_snd_socketAddress (data : Bytes) :
    (Etw.parseSocketAddress data).map Prod.snd = socketBytes data := by
  unfold Etw.parseSocketAddress socketBytes
  by_cases hshort : data.length < 8
  · rw [if_pos hshort, if_pos hshort]
    rfl
  · have h4 : 4 ≤ (data.drop 4).length := by
      rw [length_drop]
      omega
    rw [if_neg hshort, if_neg hshort]
    dsimp only
    split
    · rw [firstBytes, if_pos h4]
      rfl
    · split
      · have h16 : 16 ≤ (data.drop 8).length ↔ 24 ≤ data.length := by
          rw [length_drop]
          omega
        simp only [firstBytes, sized, h16]
        split <;> rfl
      · rfl

theorem map_snd_bytesSized {data : Bytes} {byteLen : ℕ} (hpos : 0 < byteLen)
    (hlen : byteLen ≤ data.length) (make : Text × ℕ → EventFieldValue) :
    ((Etw.parseBytesSized data byteLen).map fun p => (make p, p.2)).map Prod.snd =
      if ValidText (data.take byteLen) then some byteLen else none := by
  rw [Etw.parseBytesSized, if_neg (by omega)]
  by_cases hvalid : ValidText (data.take byteLen)
  · obtain ⟨text, htext⟩ := Option.isSome_iff_exists.mp hvalid
    rw [if_pos hvalid, htext]
    rfl
  · rw [if_neg hvalid, Option.not_isSome_iff_eq_none.mp hvalid]
    rfl

variable (prop : PropertyMeta)

theorem map_snd_textOverride (data : Bytes) :
    (if isTextOutType prop.outType ∧ 0 < prop.length.toNat ∧ prop.length.toNat ≤ data.length then
        (parseUtf8Sized data prop.length.toNat).map
          fun (s, consumed) => (EventFieldValue.string s, consumed)
      else none).map Prod.snd =
      if isTextOutType prop.outType ∧ 0 < prop.length.toNat ∧ prop.length.toNat ≤ data.length ∧
        ValidText (data.take prop.length.toNat) then some prop.length.toNat else none := by
  by_cases h : isTextOutType prop.outType ∧ 0 < prop.length.toNat ∧ prop.length.toNat ≤ data.length
  · rw [if_pos h]
    refine (map_snd_bytesSized h.2.1 h.2.2 _).trans ?_
    simp only [h, true_and]
  · have hnot : ¬ (isTextOutType prop.outType ∧ 0 < prop.length.toNat ∧
        prop.length.toNat ≤ data.length ∧ ValidText (data.take prop.length.toNat)) := by
      rintro ⟨h₁, h₂, h₃, -⟩
      exact h ⟨h₁, h₂, h₃⟩
    rw [if_neg h, if_neg hnot]
    rfl

theorem map_snd_ite {c : Prop} [Decidable c] {first second : Parsed} {k l : Option ℕ}
    (hfirst : first.map Prod.snd = k) (hsecond : second.map Prod.snd = l) :
    (if c then first else second).map Prod.snd = if c then k else l := by
  split
  · exact hfirst
  · exact hsecond

theorem map_snd_ite_sized {c : Prop} [Decidable c] {first second : Parsed} {k : ℕ}
    {size other : Option ℕ} {data : Bytes} (hfirst : first.map Prod.snd = sized k data)
    (hsecond : second.map Prod.snd = size.elim other (sized · data)) :
    (if c then first else second).map Prod.snd =
      (if c then some k else size).elim other (sized · data) := by
  split
  · exact hfirst
  · exact hsecond

theorem parseOutTypeOverride_bytes (data : Bytes) :
    (Etw.parseOutTypeOverride prop data).map Prod.snd = overrideBytes prop data := by
  refine map_snd_ite_sized (map_snd_parseHex 1 data) ?_
  refine map_snd_ite_sized (map_snd_parseHex 2 data) ?_
  refine map_snd_ite_sized (map_snd_parseHex 4 data) ?_
  refine map_snd_ite_sized (map_snd_parseHex 8 data) ?_
  refine map_snd_ite_sized (map_snd_parseHex 4 data) ?_
  refine map_snd_ite_sized (map_snd_firstBytes 2 data _) ?_
  refine map_snd_ite_sized (map_snd_leNumber 4 data _) ?_
  refine map_snd_ite_sized (map_snd_firstBytes 4 data _) ?_
  refine map_snd_ite_sized (map_snd_firstBytes 16 data _) ?_
  refine map_snd_ite (map_snd_socketAddress data) ?_
  refine map_snd_ite ?_ (map_snd_textOverride prop data)
  refine map_snd_ite (map_snd_leNumber 4 data _) ?_
  cases data <;> rfl

theorem map_snd_parseScalar (scalarSize : ℕ) (make : ℕ → EventFieldValue) (prop : PropertyMeta)
    (data : Bytes) :
    (Etw.parseScalar scalarSize make prop data).map Prod.snd = scalarBytes scalarSize prop data :=
  map_snd_ite rfl (map_snd_leNumber scalarSize data make)

theorem map_snd_parseGuid (data : Bytes) :
    ((parseGuid data).map fun g => (EventFieldValue.guid g, 16)).map Prod.snd = sized 16 data := by
  unfold sized
  by_cases hlong : 16 ≤ data.length
  · have h (i k : ℕ) (hik : i+k ≤ 16) : firstBytes k (data.drop i) = some ((data.drop i).take k) := by
      rw [firstBytes, if_pos (by rw [length_drop]; omega)]
    have h0 : firstBytes 4 data = some (data.take 4) := h 0 4 (by omega)
    rw [if_pos hlong]
    simp [parseGuid, leNumber, h0, h 4 2 (by omega), h 6 2 (by omega), h 8 8 (by omega)]
  · have h8 : firstBytes 8 (data.drop 8) = none := by
      rw [firstBytes, if_neg (by rw [length_drop]; omega)]
    rw [if_neg hlong]
    simp [parseGuid, h8]

theorem map_snd_string (parsed : Option (Text × ℕ)) :
    (parsed.map fun (s, consumed) => (EventFieldValue.string s, consumed)).map Prod.snd =
      parsed.map Prod.snd := by
  rw [Option.map_map]
  rfl

theorem map_snd_unicode (data : Bytes) :
    (if 2 ≤ prop.length.toNat ∧ prop.length.toNat ≤ data.length
      then Etw.parseUtf16Sized data prop.length.toNat
      else Etw.parseUtf16Cstr data).map Prod.snd = unicodeBytes prop data := by
  unfold unicodeBytes Etw.parseUtf16Sized Etw.parseUtf16Cstr
  split
  · rename_i hsized
    by_cases heven : prop.length.toNat%2 = 0
    · rw [if_pos heven, if_neg (by omega)]
      rfl
    · rw [if_neg heven, if_pos (by omega)]
      rfl
  · split <;> rfl

theorem map_snd_ansi (data : Bytes) :
    (if 0 < prop.length.toNat ∧ prop.length.toNat ≤ data.length
      then parseAsciiSized data prop.length.toNat
      else Etw.parseAsciiCstr data).map Prod.snd = ansiBytes prop data := by
  unfold ansiBytes
  split
  · rename_i hsized
    rw [← map_snd_bytesSized hsized.1 hsized.2 fun p => .string p.1, map_snd_string]
    rfl
  · rfl

theorem parseInType_bytes (data : Bytes) :
    (Etw.parseInType prop data).map Prod.snd = inTypeBytes prop data := by
  iterate 6 refine map_snd_ite (map_snd_parseScalar _ _ prop data) ?_
  refine map_snd_ite (map_snd_leNumber 4 data _) ?_
  refine map_snd_ite (map_snd_parseGuid data) ?_
  refine map_snd_ite (map_snd_ite (map_snd_leNumber 4 data _) (map_snd_leNumber 8 data _)) ?_
  refine map_snd_ite (map_snd_leNumber 8 data _) ?_
  refine map_snd_ite (map_snd_string _) ?_
  refine map_snd_ite (map_snd_parseHex 4 data) ?_
  refine map_snd_ite (map_snd_parseHex 8 data) ?_
  refine map_snd_ite ((map_snd_string _).trans (map_snd_unicode prop data)) ?_
  exact map_snd_ite ((map_snd_string _).trans (map_snd_ansi prop data)) rfl

theorem parseOneValue_bytes (data : Bytes) :
    (Etw.parseOneValue prop data).map Prod.snd =
      (overrideBytes prop data).or (inTypeBytes prop data) := by
  rw [Etw.parseOneValue, ← parseOutTypeOverride_bytes, ← parseInType_bytes]
  cases Etw.parseOutTypeOverride prop data <;> rfl

def Positive (bytes : Option ℕ) : Prop := ∀ k, bytes = some k → 0 < k

theorem positive_none : Positive none := by
  rintro k ⟨⟩

theorem positive_some {k : ℕ} (h : 0 < k) : Positive (some k) := by
  rintro _ ⟨⟩
  exact h

theorem positive_ite {c : Prop} [Decidable c] {k l : Option ℕ} (hthen : c → Positive k)
    (helse : ¬ c → Positive l) : Positive (if c then k else l) := by
  split
  · exact hthen ‹_›
  · exact helse ‹_›

theorem positive_sized {k : ℕ} (h : 0 < k) (data : Bytes) : Positive (sized k data) :=
  positive_ite (fun _ => positive_some h) fun _ => positive_none

theorem outTypeSize_pos (outType : ℕ) : Positive (outTypeSize outType) := by
  unfold outTypeSize
  iterate 9 refine positive_ite (fun _ => positive_some (by decide)) fun _ => ?_
  exact positive_none

theorem overrideBytes_pos (data : Bytes) : Positive (overrideBytes prop data) := by
  unfold overrideBytes
  cases hsize : outTypeSize prop.outType with
  | some k => exact positive_sized (outTypeSize_pos _ k hsize) data
  | none =>
    refine positive_ite (fun _ => ?_) fun _ => positive_ite (fun _ => ?_) fun _ => ?_
    · refine positive_ite (fun _ => positive_none) fun _ => ?_
      refine positive_ite (fun _ => positive_some (by decide)) fun _ => ?_
      exact positive_ite (fun _ => positive_sized (by decide) data) fun _ => positive_none
    · exact positive_ite (fun _ => positive_sized (by decide) data) fun _ =>
        positive_sized (by decide) data
    · exact positive_ite (fun h => positive_some h.2.1) fun _ => positive_none

theorem scalarBytes_pos {k : ℕ} (hk : 0 < k) (prop : PropertyMeta) (data : Bytes) :
    Positive (scalarBytes k prop data) :=
  positive_ite (fun h => positive_some (by omega)) fun _ => positive_sized hk data

theorem unicodeBytes_pos (data : Bytes) : Positive (unicodeBytes prop data) := by
  refine positive_ite (fun h => ?_) fun _ => positive_ite (fun _ => positive_none) fun hlong => ?_
  · exact positive_ite (fun _ => positive_some (by omega)) fun _ => positive_none
  · match data with
    | [] => exact absurd Nat.zero_lt_two hlong
    | [_] => exact absurd Nat.one_lt_two hlong
    | a :: b :: rest =>
      apply positive_some
      rw [takeUtf16]
      split <;> exact Nat.succ_pos _

theorem ansiBytes_pos {data : Bytes} (hdata : 0 < data.length) :
    Positive (ansiBytes prop data) := by
  refine positive_ite (fun h => ?_) fun _ => ?_
  · exact positive_ite (fun _ => positive_some h.1) fun _ => positive_none
  · intro k hk
    obtain ⟨parsed, hparsed, rfl⟩ := Option.map_eq_some_iff.mp hk
    obtain ⟨text, -, rfl⟩ := Option.map_eq_some_iff.mp hparsed
    dsimp only
    split <;> omega

theorem parseSid_pos (data : Bytes) : Positive ((Etw.parseSid data).map Prod.snd) := by
  intro k hk
  obtain ⟨parsed, hparsed, rfl⟩ := Option.map_eq_some_iff.mp hk
  simp only [Etw.parseSid, Option.bind_eq_bind, Option.bind_eq_some_iff] at hparsed
  obtain ⟨header, -, subs, -, htext⟩ := hparsed
  cases htext
  exact Nat.add_pos_left (by decide) _

theorem inTypeBytes_pos {data : Bytes} (hdata : 0 < data.length) :
    Positive (inTypeBytes prop data) := by
  iterate 6 refine positive_ite (fun _ => scalarBytes_pos (by decide) prop data) fun _ => ?_
  iterate 2 refine positive_ite (fun _ => positive_sized (by decide) data) fun _ => ?_
  refine positive_ite (fun _ => ?_) fun _ => ?_
  · exact positive_ite (fun _ => positive_sized (by decide) data) fun _ =>
      positive_sized (by decide) data
  refine positive_ite (fun _ => positive_sized (by decide) data) fun _ => ?_
  refine positive_ite (fun _ => parseSid_pos data) fun _ => ?_
  iterate 2 refine positive_ite (fun _ => positive_sized (by decide) data) fun _ => ?_
  refine positive_ite (fun _ => unicodeBytes_pos prop data) fun _ => ?_
  refine positive_ite (fun _ => ansiBytes_pos prop hdata) fun _ => positive_some ?_
  split <;> omega

theorem parseOneValue_pos {prop : PropertyMeta} {data : Bytes} (hdata : 0 < data.length)
    {value : EventFieldValue} {consumed : ℕ}
    (h : Etw.parseOneValue prop data = some (value, consumed)) : 0 < consumed := by
  have hbytes := parseOneValue_bytes prop data
  rw [h] at hbytes
  rcases Option.or_eq_some_iff.mp hbytes.symm with hover | ⟨-, hin⟩
  · exact overrideBytes_pos prop data consumed hover
  · exact inTypeBytes_pos prop hdata consumed hin

def countedBytes (prop : PropertyMeta) (count : ℕ) (data : Bytes) : Option ℕ :=
  let bytesToTake :=
    if count ≤ prop.length.toNat then prop.length.toNat else prop.length.toNat*count
  if 0 < prop.length.toNat ∧ bytesToTake ≤ data.length then some bytesToTake
  else (elementSizeHint prop).bind fun size => sized (size*count) data

theorem parseCountedValue_bytes {count : ℕ} (hcount : 0 < count) (data : Bytes) :
    (Etw.parseCountedValue prop count data).map Prod.snd = countedBytes prop count data := by
  unfold Etw.parseCountedValue countedBytes
  dsimp only
  generalize hbytes : (if count ≤ prop.length.toNat then prop.length.toNat
    else prop.length.toNat*count) = bytesToTake
  have hpos : 0 < prop.length.toNat → 0 < bytesToTake := by
    intro hdeclared
    rw [← hbytes]
    split
    · exact hdeclared
    · exact Nat.mul_pos hdeclared hcount
  have hcondition : (0 < prop.length.toNat ∧ 0 < bytesToTake ∧ bytesToTake ≤ data.length) ↔
      0 < prop.length.toNat ∧ bytesToTake ≤ data.length := by
    constructor
    · intro h
      exact ⟨h.1, h.2.2⟩
    · intro h
      exact ⟨h.1, hpos h.1, h.2⟩
  rw [if_neg (by omega)]
  simp only [hcondition]
  refine map_snd_ite rfl ?_
  cases elementSizeHint prop with
  | none => rfl
  | some size =>
    simp only [Option.bind_eq_bind, Option.bind_some, sized, ← not_lt]
    split <;> rfl

/-- The sizes of the in-types that have one; that of a pointer is in its declared length. -/
def inTypeSize (inType : ℕ) : Option ℕ :=
  if inType = tdhInTypeUInt8 then some 1
  else if inType = tdhInTypeUInt16 then some 2
  else if inType = tdhInTypeUInt32 then some 4
  else if inType = tdhInTypeUInt64 then some 8
  else if inType = tdhInTypeInt32 then some 4
  else if inType = tdhInTypeInt64 then some 8
  else if inType = tdhInTypeBoolean then some 4
  else if inType = tdhInTypeGuid then some 16
  else if inType = tdhInTypePointer then none
  else if inType = tdhInTypeFileTime then some 8
  else if inType = tdhInTypeSid then none
  else if inType = tdhInTypeHexInt32 then some 4
  else if inType = tdhInTypeHexInt64 then some 8
  else none

theorem sized_of_le {k : ℕ} {data : Bytes} (h : k ≤ data.length) : sized k data = some k := if_pos h

theorem ite_imp_ite {c : Prop} [Decidable c] {a b k l entry bytes : Option ℕ}
    (hthen : c → a = entry → k = bytes) (helse : b = entry → l = bytes) :
    (if c then a else b) = entry → (if c then k else l) = bytes := by
  split
  · exact hthen ‹_›
  · exact helse

theorem inTypeBytes_of_size {prop : PropertyMeta} {k : ℕ} (h : inTypeSize prop.inType = some k)
    (hlength : prop.length.toNat ≤ k) (data : Bytes) : inTypeBytes prop data = sized k data := by
  have hsized (j : ℕ) (hj : some j = some k) : sized j data = sized k data := by
    rw [Option.some.inj hj]
  have hscalar (j : ℕ) (hj : some j = some k) : scalarBytes j prop data = sized k data := by
    rw [Option.some.inj hj]
    exact if_neg (by omega)
  revert h
  refine ite_imp_ite (fun _ => hscalar 1) ?_
  refine ite_imp_ite (fun _ => hscalar 2) ?_
  refine ite_imp_ite (fun _ => hscalar 4) ?_
  refine ite_imp_ite (fun _ => hscalar 8) ?_
  refine ite_imp_ite (fun _ => hscalar 4) ?_
  refine ite_imp_ite (fun _ => hscalar 8) ?_
  refine ite_imp_ite (fun _ => hsized 4) ?_
  refine ite_imp_ite (fun _ => hsized 16) ?_
  refine ite_imp_ite (fun _ h => nomatch h) ?_
  refine ite_imp_ite (fun _ => hsized 8) ?_
  refine ite_imp_ite (fun _ h => nomatch h) ?_
  refine ite_imp_ite (fun _ => hsized 4) ?_
  exact ite_imp_ite (fun _ => hsized 8) fun h => nomatch h

theorem inTypeBytes_of_none {prop : PropertyMeta} (h : inTypeSize prop.inType = none)
    (hpointer : prop.inType ≠ tdhInTypePointer) (hsid : prop.inType ≠ tdhInTypeSid) (data : Bytes) :
    inTypeBytes prop data =
      if prop.inType = tdhInTypeUnicodeString then unicodeBytes prop data
      else if prop.inType = tdhInTypeAnsiString then ansiBytes prop data
      else some (if 0 < prop.length.toNat then min prop.length.toNat data.length
        else data.length) := by
  revert h
  iterate 8 refine ite_imp_ite (fun _ h => nomatch h) ?_
  refine ite_imp_ite (fun h => absurd h hpointer) ?_
  refine ite_imp_ite (fun _ h => nomatch h) ?_
  refine ite_imp_ite (fun h => absurd h hsid) ?_
  iterate 2 refine ite_imp_ite (fun _ h => nomatch h) ?_
  exact fun _ => rfl

theorem inTypeBytes_pointer {prop : PropertyMeta} (h : prop.inType = tdhInTypePointer) (data : Bytes) :
    inTypeBytes prop data = if prop.length.toNat = 4 then sized 4 data else sized 8 data := by
  simp [inTypeBytes, h, tdhInTypeUInt8, tdhInTypeUInt16, tdhInTypeUInt32, tdhInTypeUInt64,
    tdhInTypeInt32, tdhInTypeInt64, tdhInTypeBoolean, tdhInTypeGuid, tdhInTypePointer]

def arriveAfter (data : Bytes) :
    List PropertyMeta → ℕ → List (Option UInt64) → Option (ℕ × List (Option UInt64))
  | [], offset, known => some (offset, known)
  | prop :: props, offset, known =>
    if data.length ≤ offset then none
    else (Etw.parseProperty prop known (data.drop offset)).bind fun (value, consumed) =>
      arriveAfter data props (offset+consumed) (known ++ [extractNumericValue value])

theorem spansFrom_append (data : Bytes) (before after : List PropertyMeta) (offset : ℕ)
    (known : List (Option UInt64)) :
    spansFrom data (before ++ after) offset known = spansFrom data before offset known ++
      (arriveAfter data before offset known).elim [] fun p => spansFrom data after p.1 p.2 := by
  induction before generalizing offset known with
  | nil => rfl
  | cons prop before ih =>
    rw [cons_append, spansFrom, spansFrom, arriveAfter]
    by_cases hend : data.length ≤ offset
    · rw [if_pos hend, if_pos hend, if_pos hend]
      rfl
    · rw [if_neg hend, if_neg hend, if_neg hend]
      cases Etw.parseProperty prop known (data.drop offset) with
      | none => rfl
      | some parsed =>
        dsimp only [Option.bind_some]
        rw [ih, cons_append]

variable {offset : ℕ} {known : List (Option UInt64)}

theorem arriveAfter_eq_some {data : Bytes} {before : List PropertyMeta}
    {p : ℕ × List (Option UInt64)} (h : arriveAfter data before offset known = some p) :
    (spansFrom data before offset known).length = before.length ∧
      p.2 = known ++ (spansFrom data before offset known).map
        fun span => extractNumericValue span.field.value := by
  induction before generalizing offset known with
  | nil =>
    cases h
    exact ⟨rfl, (append_nil _).symm⟩
  | cons prop before ih =>
    rw [arriveAfter] at h
    rw [spansFrom]
    split_ifs at h with hend
    rw [if_neg hend]
    obtain ⟨parsed, hparsed, hrest⟩ := Option.bind_eq_some_iff.mp h
    obtain ⟨hlength, hknown⟩ := ih hrest
    rw [hparsed]
    dsimp only
    refine ⟨by rw [length_cons, hlength, length_cons], ?_⟩
    rw [hknown, append_assoc]
    rfl

theorem length_spansFrom_of_arriveAfter_eq_none {data : Bytes} {before : List PropertyMeta}
    (h : arriveAfter data before offset known = none) :
    (spansFrom data before offset known).length < before.length := by
  induction before generalizing offset known with
  | nil => cases h
  | cons prop before ih =>
    rw [arriveAfter] at h
    rw [spansFrom, length_cons]
    split_ifs at h with hend
    · rw [if_pos hend]
      exact Nat.succ_pos _
    · rw [if_neg hend]
      cases hparsed : Etw.parseProperty prop known (data.drop offset) with
      | none => exact Nat.succ_pos _
      | some parsed =>
        rw [hparsed] at h
        exact Nat.succ_lt_succ (ih h)

def ArrivesAt (schema : CachedSchema) (data : Slice UInt8) (k offset : ℕ)
    (known : List (Option UInt64)) : Prop :=
  arriveAfter data.toList (schema.props.take k) 0 [] = some (offset, known)

section At
variable {schema : CachedSchema} {data : Slice UInt8} {k : ℕ}

theorem value_parseSpans : (parseSpans schema data).value = spansFrom data.toList schema.props 0 [] := by
  rw [parseSpans_eq]
  rfl

theorem drop_parseSpans (hk : k ≤ schema.props.length) (h : ArrivesAt schema data k offset known) :
    (parseSpans schema data).value.drop k =
      spansFrom data.toList (schema.props.drop k) offset known := by
  have hlength := (arriveAfter_eq_some h).1
  rw [length_take_of_le hk] at hlength
  have hsplit := spansFrom_append data.toList (schema.props.take k) (schema.props.drop k) 0 []
  rw [take_append_drop] at hsplit
  rw [value_parseSpans, hsplit, h]
  exact drop_left' hlength

theorem getElem?_parseSpans_of_not_arrives (hk : k ≤ schema.props.length)
    (h : ∀ offset known, ¬ ArrivesAt schema data k offset known) :
    (parseSpans schema data).value[k]? = none := by
  have hnone : arriveAfter data.toList (schema.props.take k) 0 [] = none := by
    rw [Option.eq_none_iff_forall_ne_some]
    intro p
    exact h p.1 p.2
  have hlength := length_spansFrom_of_arriveAfter_eq_none hnone
  rw [length_take_of_le hk] at hlength
  have hsplit := spansFrom_append data.toList (schema.props.take k) (schema.props.drop k) 0 []
  rw [take_append_drop, hnone, Option.elim_none, append_nil] at hsplit
  rw [value_parseSpans, hsplit]
  exact List.getElem?_eq_none hlength.le

theorem arrives_or_never (hk : k ≤ schema.props.length) :
    (∃ offset known, ArrivesAt schema data k offset known) ∨
      ((parseSpans schema data).value[k]? = none ∧
        ∀ offset known, ¬ ArrivesAt schema data k offset known) := by
  by_cases harrive : ∃ offset known, ArrivesAt schema data k offset known
  · exact Or.inl harrive
  · have hnever : ∀ offset known, ¬ ArrivesAt schema data k offset known := by
      intro offset known h
      exact harrive ⟨offset, known, h⟩
    exact Or.inr ⟨getElem?_parseSpans_of_not_arrives hk hnever, hnever⟩

theorem ArrivesAt.unique {offset' : ℕ} {known' : List (Option UInt64)}
    (h : ArrivesAt schema data k offset known) (h' : ArrivesAt schema data k offset' known') :
    offset' = offset ∧ known' = known := by
  have heq := h'.symm.trans h
  cases heq
  exact ⟨rfl, rfl⟩

theorem ArrivesAt.forall_iff (h : ArrivesAt schema data k offset known)
    {P : ℕ → List (Option UInt64) → Prop} :
    (∀ offset known, ArrivesAt schema data k offset known → P offset known) ↔ P offset known := by
  constructor
  · intro hall
    exact hall offset known h
  · intro hP offset' known' h'
    obtain ⟨rfl, rfl⟩ := h.unique h'
    exact hP

end At

theorem tiles_drop {start stop k : ℕ} {spans : List FieldSpan} (h : Tiles start spans stop)
    {span : FieldSpan} (hspan : spans[k]? = some span) : Tiles span.stop (spans.drop (k+1)) stop := by
  induction h generalizing k with
  | nil n => cases hspan
  | cons hle hrest ih =>
    cases k with
    | zero =>
      cases hspan
      exact hrest
    | succ k => exact ih hspan

theorem field_aligned_iff {schema : CachedSchema} {data : Slice UInt8} {k : ℕ}
    (hk : k < schema.props.length) (harrive : ArrivesAt schema data k offset known)
    (hmore : offset < data.toList.length) (size : ℕ) :
    (∀ span, (parseSpans schema data).value[k]? = some span → span.stop = span.start+size ∧
      ∃ total, Tiles (span.start+size) ((parseSpans schema data).value.drop (k+1)) total) ↔
      ∀ consumed, (Etw.parseProperty schema.props[k] known (data.toList.drop offset)).map Prod.snd =
        some consumed → consumed = size := by
  have htiles := spansFrom_tiles data.toList schema.props 0 [] (Nat.zero_le _)
  rw [← value_parseSpans] at htiles
  obtain ⟨total, -, htotal⟩ := htiles
  -- the fields behind follow the field wherever it ends
  have hbehind : (∀ span, (parseSpans schema data).value[k]? = some span →
      span.stop = span.start+size ∧
        ∃ total, Tiles (span.start+size) ((parseSpans schema data).value.drop (k+1)) total) ↔
      ∀ span, (parseSpans schema data).value[k]? = some span → span.stop = span.start+size := by
    apply forall₂_congr
    intro span hspan
    refine and_iff_left_of_imp fun hstop => ⟨total, ?_⟩
    rw [← hstop]
    exact tiles_drop htotal hspan
  have hdrop := drop_parseSpans hk.le harrive
  rw [drop_eq_getElem_cons hk, spansFrom, if_neg (Nat.not_le.mpr hmore)] at hdrop
  rw [hbehind, ← List.head?_drop, hdrop]
  cases Etw.parseProperty schema.props[k] known (data.toList.drop offset) with
  | none => simp
  | some parsed =>
    simp only [List.head?_cons, Option.some.injEq, forall_eq', Option.map_some]
    omega

end WindowsErg.Etw
