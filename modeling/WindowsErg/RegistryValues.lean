import WindowsErg.RegistryKey
import WindowsErg.UnicodeText

/-! Registry values, `src/registry/values.rs`: a value is read into a buffer of a fixed size. -/
namespace WindowsErg.Registry
open List TextScan ByteCodec UnicodeText

structure StoredValue where
  type : UInt32
  data : Bytes
  deriving DecidableEq

abbrev ValueStore (κ : Type) := κ → Text → Option StoredValue

variable {κ α : Type}

def valueName (name : Text) : Text := (cText name).map Char.toLower

def errorMoreData : UInt32 := 234

/-- `RegQueryValueExW` with a buffer of `capacity` bytes. -/
def regQueryValueExW (store : ValueStore κ) (handle : κ) (name : Text) (capacity : ℕ) :
    Except UInt32 StoredValue :=
  match store handle (valueName name) with
  | none => .error errorFileNotFound
  | some value => if value.data.length ≤ capacity then .ok value else .error errorMoreData

def regSetValueExW [DecidableEq κ] (store : ValueStore κ) (status : UInt32) (handle : κ)
    (name : Text) (value : StoredValue) : Except UInt32 (ValueStore κ) :=
  if status ≠ 0 then .error status
  else .ok fun handle' name' =>
    if handle' = handle ∧ name' = valueName name then some value else store handle' name'

variable {store store' : ValueStore κ} {status : UInt32} {name : Text}

theorem regQueryValueExW_of_set [DecidableEq κ] {handle : κ} {value : StoredValue}
    (h : regSetValueExW store status handle name value = .ok store') (capacity : ℕ) :
    regQueryValueExW store' handle name capacity =
      if value.data.length ≤ capacity then .ok value else .error errorMoreData := by
  rw [regSetValueExW] at h
  split at h
  · cases h
  · cases h
    rw [regQueryValueExW, if_pos ⟨rfl, rfl⟩]

inductive ValueError where
  | valueNotFound (name : Text)
  | invalidType (expected actual name : Text)
  | windowsApi (errorCode : UInt32)
  -- a length that does not fit the system's 32-bit count
  | panic
  deriving DecidableEq

/-- What tells one implementation of `RegistryValue` from another. `decode` gets the buffer after the
call, filled up with zeros, and the length that the call reports. -/
structure ValueFormat (α : Type) where
  capacity : ℕ
  readTypes : List UInt32
  expected : Text
  decode : Bytes → ℕ → α
  writeType : UInt32
  encode : α → Bytes

def fillBuffer (capacity : ℕ) (data : Bytes) : Bytes :=
  data ++ List.replicate (capacity-data.length) 0

def ValueFormat.readFromKey (format : ValueFormat α) (store : ValueStore κ) (key : RegistryKey κ)
    (name : Text) : Except ValueError α :=
  match regQueryValueExW store key.handle name format.capacity with
  | .error code =>
    if code = errorFileNotFound then .error (.valueNotFound name) else .error (.windowsApi code)
  | .ok value =>
    if value.type ∈ format.readTypes then
      .ok (format.decode (fillBuffer format.capacity value.data) value.data.length)
    else
      .error (.invalidType format.expected ("REG type ".toList ++ decimal value.type.toNat) name)

def ValueFormat.writeToKey [DecidableEq κ] (format : ValueFormat α) (store : ValueStore κ)
    (status : UInt32) (key : RegistryKey κ) (name : Text) (value : α) :
    Except ValueError (ValueStore κ) :=
  if 2^32 ≤ (format.encode value).length then .error .panic
  else
    match regSetValueExW store status key.handle name ⟨format.writeType, format.encode value⟩ with
    | .error code => .error (.windowsApi code)
    | .ok store' => .ok store'

def unitsOf : Bytes → List UInt16
  | a :: b :: rest => UInt16.ofNat (ofLe [a, b]) :: unitsOf rest
  | _ => []

def stringFormat : ValueFormat Text where
  capacity := 1024*2
  readTypes := [1, 2]
  expected := "String (REG_SZ or REG_EXPAND_SZ)".toList
  decode buf len := decodeUtf16Lossy ((unitsOf buf).take (len/2-1))
  writeType := 1
  encode value := utf16LeBytes (encodeUtf16 value ++ [0])

def u32Format : ValueFormat UInt32 where
  capacity := 4
  readTypes := [4]
  expected := "u32 (REG_DWORD)".toList
  decode buf _ := UInt32.ofNat (ofLe buf)
  writeType := 4
  encode value := leBytes 4 value.toNat

def u64Format : ValueFormat UInt64 where
  capacity := 8
  readTypes := [11]
  expected := "u64 (REG_QWORD)".toList
  decode buf _ := UInt64.ofNat (ofLe buf)
  writeType := 11
  encode value := leBytes 8 value.toNat

def bytesFormat : ValueFormat Bytes where
  capacity := 4096
  readTypes := [3]
  expected := "Vec<u8> (REG_BINARY)".toList
  decode buf len := buf.take len
  writeType := 3
  encode value := value

def boolFormat : ValueFormat Bool where
  capacity := u32Format.capacity
  readTypes := u32Format.readTypes
  expected := u32Format.expected
  decode buf len := u32Format.decode buf len ≠ 0
  writeType := u32Format.writeType
  encode value := u32Format.encode (if value then 1 else 0)

structure ValueFormat.Inverse (format : ValueFormat α) : Prop where
  type_mem : format.writeType ∈ format.readTypes
  decode_encode : ∀ value, (format.encode value).length ≤ format.capacity →
    format.decode (fillBuffer format.capacity (format.encode value))
      (format.encode value).length = value

variable {format : ValueFormat α} {key : RegistryKey κ} {value : α}

theorem ValueFormat.writeToKey_ok [DecidableEq κ]
    (h : format.writeToKey store status key name value = .ok store') :
    regSetValueExW store status key.handle name ⟨format.writeType, format.encode value⟩ =
      .ok store' := by
  rw [writeToKey] at h
  split at h
  · cases h
  · split at h
    · cases h
    · next hset =>
      cases h
      exact hset

theorem ValueFormat.readFromKey_of_stored [DecidableEq κ]
    (htype : format.writeType ∈ format.readTypes)
    (h : format.writeToKey store status key name value = .ok store') :
    format.readFromKey store' key name =
      if (format.encode value).length ≤ format.capacity then
        .ok (format.decode (fillBuffer format.capacity (format.encode value))
          (format.encode value).length)
      else .error (.windowsApi errorMoreData) := by
  have hquery := regQueryValueExW_of_set (writeToKey_ok h) format.capacity
  rw [readFromKey, hquery]
  by_cases hfits : (format.encode value).length ≤ format.capacity
  · simp only [if_pos hfits, if_pos htype]
  · have hcode : errorMoreData ≠ errorFileNotFound := by decide
    simp only [if_neg hfits, if_neg hcode]

section
variable [DecidableEq κ] (hf : format.Inverse)
    (h : format.writeToKey store status key name value = .ok store')
include hf h

theorem ValueFormat.readFromKey_of_write :
    format.readFromKey store' key name =
      if (format.encode value).length ≤ format.capacity then .ok value
      else .error (.windowsApi errorMoreData) := by
  rw [readFromKey_of_stored hf.type_mem h]
  split
  · next hfits => rw [hf.decode_encode value hfits]
  · rfl

theorem ValueFormat.reads_back_iff :
    format.readFromKey store' key name = .ok value ↔
      (format.encode value).length ≤ format.capacity := by
  rw [readFromKey_of_write hf h]
  split <;> simp_all

end

theorem unitsOf_utf16LeBytes (units : List UInt16) (rest : Bytes) :
    unitsOf (utf16LeBytes units ++ rest) = units ++ unitsOf rest := by
  induction units with
  | nil => rfl
  | cons u units ih =>
    obtain ⟨a, b, hbytes, hunit⟩ := utf16LeBytes_cons u units
    rw [hbytes, cons_append, cons_append, unitsOf, hunit, ih, cons_append]

theorem length_stringFormat_encode (value : Text) :
    (stringFormat.encode value).length = 2*(encodeUtf16 value).length+2 := by
  have hlen := length_utf16LeBytes (encodeUtf16 value ++ [0])
  rw [length_append, length_singleton] at hlen
  change (utf16LeBytes (encodeUtf16 value ++ [0])).length = _
  omega

theorem stringFormat_inverse : stringFormat.Inverse := by
  refine ⟨by decide, fun value _ => ?_⟩
  -- the units of the text come first in the buffer, and the count leaves the terminator out
  have hcount : (stringFormat.encode value).length/2-1 = (encodeUtf16 value).length := by
    rw [length_stringFormat_encode]
    omega
  have hunits : unitsOf (fillBuffer stringFormat.capacity (stringFormat.encode value)) =
      encodeUtf16 value ++ ([0] ++ unitsOf (List.replicate
        (stringFormat.capacity-(stringFormat.encode value).length) 0)) := by
    rw [fillBuffer, ← append_assoc, ← unitsOf_utf16LeBytes]
    rfl
  change decodeUtf16Lossy ((unitsOf _).take (_/2-1)) = value
  rw [hcount, hunits, take_left, decodeUtf16Lossy_encodeUtf16]

theorem bytesFormat_inverse : bytesFormat.Inverse := by
  refine ⟨by decide, fun value _ => ?_⟩
  change (value ++ List.replicate _ 0).take value.length = value
  rw [take_left]

theorem fillBuffer_leBytes (k v : ℕ) : fillBuffer k (leBytes k v) = leBytes k v := by
  rw [fillBuffer, leBytes_length, Nat.sub_self, replicate_zero, append_nil]

theorem u32Format_inverse : u32Format.Inverse := by
  refine ⟨by decide, fun value _ => ?_⟩
  change UInt32.ofNat (ofLe (fillBuffer 4 (leBytes 4 value.toNat))) = value
  rw [fillBuffer_leBytes, ofLe_leBytes 4 _ value.toNat_lt, UInt32.ofNat_toNat]

theorem u64Format_inverse : u64Format.Inverse := by
  refine ⟨by decide, fun value _ => ?_⟩
  change UInt64.ofNat (ofLe (fillBuffer 8 (leBytes 8 value.toNat))) = value
  rw [fillBuffer_leBytes, ofLe_leBytes 8 _ value.toNat_lt, UInt64.ofNat_toNat]

theorem boolFormat_inverse : boolFormat.Inverse := by
  refine ⟨by decide, fun value h => ?_⟩
  simp only [boolFormat] at h ⊢
  rw [u32Format_inverse.decode_encode _ h]
  cases value <;> simp

/-- A text is read back exactly when it has at most 1023 units, a byte vector exactly when it has at
most 4096 bytes. -/
theorem registry_value_reads_back_iff [DecidableEq κ] (store store' : ValueStore κ)
    (status : UInt32) (key : RegistryKey κ) (name : Text) :
    (∀ value : Text, stringFormat.writeToKey store status key name value = .ok store' →
      (stringFormat.readFromKey store' key name = .ok value ↔
        (encodeUtf16 value).length ≤ 1023)) ∧
    (∀ value : Bytes, bytesFormat.writeToKey store status key name value = .ok store' →
      (bytesFormat.readFromKey store' key name = .ok value ↔ value.length ≤ 4096)) := by
  refine ⟨fun value h => ?_, fun value h => ValueFormat.reads_back_iff bytesFormat_inverse h⟩
  rw [ValueFormat.reads_back_iff stringFormat_inverse h, length_stringFormat_encode]
  change _ ≤ 2048 ↔ _
  omega

def emptyStore : ValueStore Unit := fun _ _ => none

def scratchKey : RegistryKey Unit := ⟨(), some .currentUser, some "Scratch".toList⟩

theorem ValueFormat.writeToKey_eq [DecidableEq κ] (format : ValueFormat α) (store : ValueStore κ)
    (key : RegistryKey κ) (name : Text) (value : α) (h : (format.encode value).length < 2^32) :
    ∃ store', format.writeToKey store 0 key name value = .ok store' := by
  rw [writeToKey, if_neg (by omega)]
  exact ⟨_, rfl⟩

theorem registry_value_reads_back_path :
    ∃ store', stringFormat.writeToKey emptyStore 0 scratchKey "Path".toList "C:".toList = .ok store' ∧
      stringFormat.readFromKey store' scratchKey "Path".toList = .ok "C:".toList := by
  obtain ⟨store', h⟩ := stringFormat.writeToKey_eq emptyStore scratchKey "Path".toList "C:".toList
    (by decide)
  refine ⟨store', h, ?_⟩
  exact ((registry_value_reads_back_iff emptyStore store' 0 scratchKey "Path".toList).1 _ h).mpr
    (by decide)

theorem length_encodeUtf16_replicate (n : ℕ) :
    (encodeUtf16 (List.replicate n 'a')).length = n := by
  induction n with
  | zero => rfl
  | succ n ih =>
    have hcons : encodeUtf16 (List.replicate (n+1) 'a') = 97 :: encodeUtf16 (List.replicate n 'a') :=
      rfl
    rw [hcons, length_cons, ih]

/-- A text of 1024 letters and a vector of 4097 bytes are stored and cannot be read again. -/
theorem registry_value_too_long_to_read :
    (∃ store', stringFormat.writeToKey emptyStore 0 scratchKey "Path".toList
        (List.replicate 1024 'a') = .ok store' ∧
      stringFormat.readFromKey store' scratchKey "Path".toList = .error (.windowsApi 234)) ∧
    (∃ store', bytesFormat.writeToKey emptyStore 0 scratchKey "Path".toList
        (List.replicate 4097 0) = .ok store' ∧
      bytesFormat.readFromKey store' scratchKey "Path".toList = .error (.windowsApi 234)) := by
  have htext : (stringFormat.encode (List.replicate 1024 'a')).length = 2050 := by
    rw [length_stringFormat_encode, length_encodeUtf16_replicate]
  have hbytes : (bytesFormat.encode (List.replicate 4097 0)).length = 4097 :=
    length_replicate
  constructor
  · obtain ⟨store', h⟩ := stringFormat.writeToKey_eq emptyStore scratchKey "Path".toList
      _ (by rw [htext]; decide)
    refine ⟨store', h, ?_⟩
    rw [ValueFormat.readFromKey_of_write stringFormat_inverse h, htext]
    rfl
  · obtain ⟨store', h⟩ := bytesFormat.writeToKey_eq emptyStore scratchKey "Path".toList
      _ (by rw [hbytes]; decide)
    refine ⟨store', h, ?_⟩
    rw [ValueFormat.readFromKey_of_write bytesFormat_inverse h, hbytes]
    rfl

end WindowsErg.Registry
