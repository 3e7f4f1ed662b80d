import WindowsErg.EtwDecodeHelpers
import WindowsErg.EtwSchemaChecked
import WindowsErg.EtwSession

/-! The decoders of kernel process and image events, `src/etw/decode`, with every slice, index and
sum checked. -/
namespace WindowsErg.Etw.Decode
open List TextScan ByteCodec UnicodeText GuardedRun Guarded

abbrev Attempt := OptionT Guarded

def attempt {α : Type} (x : Option α) : Attempt α := OptionT.mk (pure x)

class FromBytes (T : Type) where
  size : ℕ
  ofNat : ℕ → T
  toNat : T → ℕ
  toNat_lt : ∀ v, toNat v < 256^size
  ofNat_toNat : ∀ v, ofNat (toNat v) = v

instance : FromBytes UInt32 where
  size := 4
  ofNat := UInt32.ofNat
  toNat := UInt32.toNat
  toNat_lt := UInt32.toNat_lt
  ofNat_toNat _ := UInt32.ofNat_toNat

instance : FromBytes UInt64 where
  size := 8
  ofNat := UInt64.ofNat
  toNat := UInt64.toNat
  toNat_lt := UInt64.toNat_lt
  ofNat_toNat _ := UInt64.ofNat_toNat

def fromLeBytes (T : Type) [FromBytes T] (data : Bytes) : Option T :=
  if data.length = FromBytes.size T then some (FromBytes.ofNat (ofLe data)) else none

def extractValueFromBuffer (T : Type) [FromBytes T] (data : Bytes) : Attempt (T × Bytes) :=
  if data.length < FromBytes.size T then failure
  else do
    let front ← sliceTo data (FromBytes.size T)
    let value ← attempt (fromLeBytes T front)
    let rest ← sliceFrom data (FromBytes.size T)
    pure (value, rest)

def extractPointerFromBuffer (data : Bytes) (pointerSize : ℕ) : Attempt (UInt64 × Bytes) :=
  if pointerSize = 4 then (fun (v, rest) => (v.toUInt64, rest)) <$> extractValueFromBuffer UInt32 data
  else if pointerSize = 8 then extractValueFromBuffer UInt64 data
  else failure

/-- The text before the first NUL and the number of bytes with the NUL, which is counted whether or
not it is there. -/
def asciiStringUntilNull (data : Bytes) : Attempt (Text × ℕ) := do
  let endPos := data.findIdx (· == 0)
  let bytes ← sliceTo data endPos
  let value ← attempt (decodeUtf8 bytes)
  pure (value, Checked.saturatingAdd endPos 1)

/-- Its loop is the one of `parse_utf16_cstr`; the units are decoded strictly. -/
def utf16UntilNull (data : Bytes) : Attempt (Text × ℕ) := do
  let (units, offset) ← Checked.utf16CstrLoop data 0 []
  let value ← attempt (decodeUtf16 units)
  pure (value, offset)

def subAuthoritiesLoop (sid : Bytes) : ℕ → ℕ → Text → Guarded (Text × ℕ)
  | 0, start, id => pure (id, start)
  | k+1, start, id => do
    let stop ← addIn usizeLimit start 4
    if stop > sid.length then pure (id, start)
    else
      let b0 ← index sid start
      let b1 ← index sid (start+1)
      let b2 ← index sid (start+2)
      let b3 ← index sid (start+3)
      subAuthoritiesLoop sid k stop (id ++ '-' :: decimal (ofLe [b0, b1, b2, b3]))

def sidToStringWithSizeChecked (sid : Bytes) : Guarded (Option (Text × ℕ)) :=
  if sid.length < 8 then pure none
  else do
    let subauthorityCount ← index sid 1
    let b2 ← index sid 2
    let b3 ← index sid 3
    let b4 ← index sid 4
    let b5 ← index sid 5
    let b6 ← index sid 6
    let b7 ← index sid 7
    let revision ← index sid 0
    let identifierAuthority := ofBe [b2, b3] <<< 32 ||| ofBe [b4, b5, b6, b7]
    let id := "S-".toList ++ decimal revision.toNat ++ '-' :: decimal identifierAuthority
    some <$> subAuthoritiesLoop sid subauthorityCount.toNat 8 id

def processStart : UInt8 := 1
def processEnd : UInt8 := 2

def requiredSizeV0 (pointerSize : ℕ) : Guarded ℕ := do
  let pointers ← mulIn usizeLimit 2 pointerSize
  addIn usizeLimit 10 pointers

def requiredSizeV1ToV4 (pointerSize : ℕ) : Guarded ℕ := do
  let pointers ← mulIn usizeLimit 4 pointerSize
  addIn usizeLimit 44 pointers

structure ProcessCommon where
  processId : UInt32
  parentProcessId : UInt32
  sessionId : Option UInt32
  exitStatus : Option UInt32
  uniqueProcessKey : Option UInt64
  directoryTableBase : Option UInt64
  imageFileName : Text
  commandLine : Option Text
  userSid : Option Text
  deriving DecidableEq

structure ProcessEvent extends ProcessCommon where
  version : UInt8
  deriving DecidableEq

structure ProcessNumbers where
  processId : UInt32
  parentProcessId : UInt32
  sessionId : UInt32
  exitStatus : UInt32
  deriving DecidableEq

def extractNumbers (data : Bytes) : Attempt (ProcessNumbers × Bytes) := do
  let (processId, data) ← extractValueFromBuffer UInt32 data
  let (parentProcessId, data) ← extractValueFromBuffer UInt32 data
  let (sessionId, data) ← extractValueFromBuffer UInt32 data
  let (exitStatus, data) ← extractValueFromBuffer UInt32 data
  pure (⟨processId, parentProcessId, sessionId, exitStatus⟩, data)

def skipBeforeSid (data : Bytes) (pointerSize : ℕ) : Attempt Bytes := do
  let (_, data) ← extractPointerFromBuffer data pointerSize
  let (_, data) ← extractPointerFromBuffer data pointerSize
  let (_, data) ← extractValueFromBuffer UInt32 data
  pure data

def extractSid (data : Bytes) : Attempt (Text × Bytes) := do
  let (userSid, sidSize) ← OptionT.mk (sidToStringWithSizeChecked data)
  let data ← sliceFrom data sidSize
  pure (userSid, data)

structure ProcessTexts where
  userSid : Text
  imageFileName : Text
  commandLine : Text
  deriving DecidableEq

def extractNameAndLine (data : Bytes) : Attempt (Text × Text) := do
  let (imageFileName, nameSize) ← asciiStringUntilNull data
  let data ← sliceFrom data nameSize
  let (commandLine, _) ← utf16UntilNull data
  pure (imageFileName, commandLine)

def extractTexts (data : Bytes) : Attempt ProcessTexts := do
  let (userSid, data) ← extractSid data
  let (imageFileName, commandLine) ← extractNameAndLine data
  pure ⟨userSid, imageFileName, commandLine⟩

def processCommon (numbers : ProcessNumbers) (uniqueProcessKey directoryTableBase : Option UInt64)
    (texts : ProcessTexts) : ProcessCommon :=
  { processId := numbers.processId, parentProcessId := numbers.parentProcessId,
    sessionId := some numbers.sessionId, exitStatus := some numbers.exitStatus,
    uniqueProcessKey, directoryTableBase, imageFileName := texts.imageFileName,
    commandLine := some texts.commandLine, userSid := some texts.userSid }

def parseV0 (data : Bytes) (pointerSize : ℕ) : Attempt ProcessCommon := do
  let required ← requiredSizeV0 pointerSize
  if data.length < required then failure
  else
    let (processId, data) ← extractValueFromBuffer UInt32 data
    let (parentProcessId, data) ← extractValueFromBuffer UInt32 data
    let data ← skipBeforeSid data pointerSize
    let (userSid, data) ← extractSid data
    let (imageFileName, _) ← asciiStringUntilNull data
    pure { processId, parentProcessId, sessionId := none, exitStatus := none,
           uniqueProcessKey := none, directoryTableBase := none, imageFileName,
           commandLine := none, userSid := some userSid }

def parseV1OrV2 (make : UInt64 → ProcessNumbers → ProcessTexts → ProcessCommon) (data : Bytes)
    (pointerSize : ℕ) : Attempt ProcessCommon := do
  let required ← requiredSizeV1ToV4 pointerSize
  if data.length < required then failure
  else
    let (first, data) ← extractPointerFromBuffer data pointerSize
    let (numbers, data) ← extractNumbers data
    let data ← skipBeforeSid data pointerSize
    let texts ← extractTexts data
    pure (make first numbers texts)

def parseV1 : Bytes → ℕ → Attempt ProcessCommon :=
  parseV1OrV2 fun directoryTableBase numbers texts =>
    processCommon numbers none (some directoryTableBase) texts

def parseV2 : Bytes → ℕ → Attempt ProcessCommon :=
  parseV1OrV2 fun uniqueProcessKey numbers texts =>
    processCommon numbers (some uniqueProcessKey) none texts

def parseV3V4 (data : Bytes) (pointerSize : ℕ) : Attempt ProcessCommon := do
  let required ← requiredSizeV1ToV4 pointerSize
  if data.length < required then failure
  else
    let (uniqueProcessKey, data) ← extractPointerFromBuffer data pointerSize
    let (numbers, data) ← extractNumbers data
    let (directoryTableBase, data) ← extractPointerFromBuffer data pointerSize
    let data ← skipBeforeSid data pointerSize
    let texts ← extractTexts data
    pure (processCommon numbers (some uniqueProcessKey) (some directoryTableBase) texts)

def imageLoad : UInt8 := 10
def imageUnload : UInt8 := 2

def requiredSizeV3 (pointerSize : ℕ) : Guarded ℕ := do
  let pointers ← mulIn usizeLimit 4 pointerSize
  addIn usizeLimit 48 pointers

structure ImageCommon where
  processId : UInt32
  imageBase : UInt64
  imageSize : UInt64
  checksum : UInt32
  timestamp : UInt32
  defaultBase : UInt64
  fileName : Text
  deriving DecidableEq

structure ImageEvent extends ImageCommon where
  version : UInt8
  deriving DecidableEq

def parseV3 (data : Bytes) (pointerSize : ℕ) : Attempt ImageCommon := do
  let required ← requiredSizeV3 pointerSize
  if data.length < required then failure
  else
    let (imageBase, data) ← extractPointerFromBuffer data pointerSize
    let (imageSize, data) ← extractPointerFromBuffer data pointerSize
    let (processId, data) ← extractValueFromBuffer UInt32 data
    let (checksum, data) ← extractValueFromBuffer UInt32 data
    let (timestamp, data) ← extractValueFromBuffer UInt32 data
    let (_, data) ← extractValueFromBuffer UInt32 data
    let (defaultBase, data) ← extractPointerFromBuffer data pointerSize
    let (_, data) ← extractValueFromBuffer UInt32 data
    let (_, data) ← extractValueFromBuffer UInt32 data
    let (_, data) ← extractValueFromBuffer UInt32 data
    let (_, data) ← extractValueFromBuffer UInt32 data
    let (fileName, _) ← utf16UntilNull data
    pure { processId, imageBase, imageSize, checksum, timestamp, defaultBase, fileName }

/-- The events that are mapped from the fields of a schema are of type `M`. -/
inductive DecodedEvent (M : Type) where
  | processStart (event : ProcessEvent)
  | processEnd (event : ProcessEvent)
  | imageLoad (event : ImageEvent)
  | imageUnload (event : ImageEvent)
  | mapped (event : M)
  | generic (fields : List EventField)
  | unknown
  deriving DecidableEq

variable {M : Type}

def parseProcess (version : UInt8) (pointerSize : ℕ) (data : Bytes) : Attempt ProcessCommon :=
  if version = 0 then parseV0 data pointerSize
  else if version = 1 then parseV1 data pointerSize
  else if version = 2 then parseV2 data pointerSize
  else if version = 3 ∨ version = 4 then parseV3V4 data pointerSize
  else failure

def decodeProcessParts (version opcode : UInt8) (pointerSize : ℕ) (data : Bytes) :
    Attempt (DecodedEvent M) :=
  if opcode ≠ processStart ∧ opcode ≠ processEnd then failure
  else do
    let parsed ← parseProcess version pointerSize data
    if opcode = processStart then pure (.processStart { parsed with version })
    else pure (.processEnd { parsed with version })

def parseImage (version : UInt8) (pointerSize : ℕ) (data : Bytes) : Attempt ImageCommon :=
  if 2 ≤ version ∧ version ≤ 4 then parseV3 data pointerSize else failure

def decodeImageParts (version opcode : UInt8) (pointerSize : ℕ) (data : Bytes) :
    Attempt (DecodedEvent M) := do
  let parsed ← parseImage version pointerSize data
  if opcode = imageLoad then pure (.imageLoad { parsed with version })
  else if opcode = imageUnload then pure (.imageUnload { parsed with version })
  else failure

def processGuid : Guid := ⟨0x3d6fa8d0, 0xfe05, 0x11d0, [0x9d, 0xda, 0x00, 0xc0, 0x4f, 0xd7, 0xba, 0x7c]⟩

def imageLoadGuid : Guid :=
  ⟨0x2cb15d1d, 0x5fc1, 0x11d2, [0xab, 0xe1, 0x00, 0xa0, 0xc9, 0x11, 0xf5, 0x18]⟩

def eventOfFields (decodeFromGeneric : Guid → UInt8 → List EventField → Option M)
    (providerGuid : Guid) (opcode : UInt8) : Option (List EventField) → DecodedEvent M
  | none => .unknown
  | some fields => (decodeFromGeneric providerGuid opcode fields).elim (.generic fields) .mapped

def decodeFromRecordParts (decodeFromGeneric : Guid → UInt8 → List EventField → Option M)
    (providerGuid : Guid) (version opcode : UInt8) (pointerSize : ℕ) (data : Bytes)
    (fields : Option (List EventField)) : Guarded (DecodedEvent M) :=
  if providerGuid = processGuid then do
    let decoded ← (decodeProcessParts version opcode pointerSize data).run
    pure (decoded.getD (eventOfFields decodeFromGeneric providerGuid opcode fields))
  else if providerGuid = imageLoadGuid then do
    let decoded ← (decodeImageParts version opcode pointerSize data).run
    pure (decoded.getD (eventOfFields decodeFromGeneric providerGuid opcode fields))
  else pure (eventOfFields decodeFromGeneric providerGuid opcode fields)

variable {data : Bytes}

section Helpers
variable {T : Type} [FromBytes T]

theorem extractValueFromBuffer_of_le (h : FromBytes.size T ≤ data.length) :
    extractValueFromBuffer T data =
      pure (FromBytes.ofNat (ofLe (data.take (FromBytes.size T))), data.drop (FromBytes.size T)) := by
  have hfront : (data.take (FromBytes.size T)).length = FromBytes.size T := length_take_of_le h
  have hvalue : fromLeBytes T (data.take (FromBytes.size T)) =
      some (FromBytes.ofNat (ofLe (data.take (FromBytes.size T)))) := if_pos hfront
  unfold extractValueFromBuffer
  rw [if_neg (by omega), sliceTo_eq h, sliceFrom_eq h]
  simp only [liftM_pure, pure_bind, hvalue]
  rfl

theorem extractValueFromBuffer_append (v : T) (rest : Bytes) :
    extractValueFromBuffer T (leBytes (FromBytes.size T) (FromBytes.toNat v) ++ rest) =
      pure (v, rest) := by
  rw [extractValueFromBuffer_of_le (by simp), take_left' (by simp), drop_left' (by simp),
    ofLe_leBytes _ _ (FromBytes.toNat_lt v), FromBytes.ofNat_toNat]

end Helpers

theorem extractUInt32_of_le (data : Bytes) (h : 4 ≤ data.length) :
    ∃ v, extractValueFromBuffer UInt32 data = pure (v, data.drop 4) :=
  ⟨_, extractValueFromBuffer_of_le h⟩

variable {pointerSize : ℕ}

theorem extractPointerFromBuffer_of_le (data : Bytes) (hsize : pointerSize = 4 ∨ pointerSize = 8)
    (h : pointerSize ≤ data.length) :
    ∃ v, extractPointerFromBuffer data pointerSize = pure (v, data.drop pointerSize) := by
  rcases hsize with rfl | rfl
  · obtain ⟨v, hv⟩ := extractUInt32_of_le data h
    exact ⟨v.toUInt64, by rw [extractPointerFromBuffer, if_pos rfl, hv]; rfl⟩
  · exact ⟨_, extractValueFromBuffer_of_le h⟩

theorem extractPointerFromBuffer_of_other (data : Bytes)
    (hsize : ¬ (pointerSize = 4 ∨ pointerSize = 8)) :
    extractPointerFromBuffer data pointerSize = failure := by
  rw [not_or] at hsize
  rw [extractPointerFromBuffer, if_neg hsize.1, if_neg hsize.2]

theorem asciiStringUntilNull_eq (data : Bytes) (hlimit : data.length < 2^63) :
    asciiStringUntilNull data =
      attempt ((decodeUtf8 (data.takeWhile (· != 0))).map (·, data.findIdx (· == 0)+1)) := by
  have hend : data.findIdx (· == 0) ≤ data.length := findIdx_le_length
  have hsize : Checked.saturatingAdd (data.findIdx (· == 0)) 1 = data.findIdx (· == 0)+1 := by
    unfold Checked.saturatingAdd usizeLimit
    omega
  unfold asciiStringUntilNull
  dsimp only
  rw [sliceTo_eq hend, liftM_pure, pure_bind, Checked.take_findIdx_zero, hsize]
  cases decodeUtf8 (data.takeWhile (· != 0)) <;> rfl

theorem utf16UntilNull_eq (data : Bytes) (hlimit : data.length < 2^63) :
    utf16UntilNull data =
      attempt ((decodeUtf16 (takeUtf16 data).1).map (·, (takeUtf16 data).2)) := by
  unfold utf16UntilNull
  rw [Checked.utf16CstrLoop_eq data hlimit 0 (Nat.zero_le _) [], liftM_pure, pure_bind]
  simp only [nil_append, drop_zero, Nat.zero_add]
  cases decodeUtf16 (takeUtf16 data).1 <;> rfl

variable (sid : Bytes)

theorem take_four_drop (i : ℕ) (h : i+4 ≤ sid.length) :
    (sid.drop i).take 4 = [sid.getD i default, sid.getD (i+1) default, sid.getD (i+2) default,
      sid.getD (i+3) default] := by
  rw [Checked.drop_eq_cons_cons sid i (by omega), Checked.drop_eq_cons_cons sid (i+2) (by omega)]
  rfl

theorem subAuthoritiesLoop_eq (hlimit : sid.length < 2^63) (k start : ℕ) (id : Text)
    (hstart : start ≤ sid.length) :
    subAuthoritiesLoop sid k start id = pure (appendSubAuthorities sid k start id) := by
  induction k generalizing start id with
  | zero => rfl
  | succ k ih =>
    have hbound : start+4 < usizeLimit := by
      unfold usizeLimit
      omega
    rw [subAuthoritiesLoop, appendSubAuthorities, addIn_eq hbound, pure_bind]
    by_cases hend : start+4 > sid.length
    · rw [if_pos hend, if_pos hend]
    · rw [if_neg hend, if_neg hend, index_eq (by omega), index_eq (by omega), index_eq (by omega),
        index_eq (by omega), pure_bind, pure_bind, pure_bind, pure_bind, ih _ _ (by omega),
        take_four_drop sid start (by omega)]

theorem sidToStringWithSizeChecked_eq (hlimit : sid.length < 2^63) :
    sidToStringWithSizeChecked sid = pure (sidToStringWithSize sid) := by
  unfold sidToStringWithSizeChecked sidToStringWithSize
  by_cases h8 : sid.length < 8
  · rw [if_pos h8, if_pos h8]
  · have hlow : (sid.drop 2).take 2 = [sid.getD 2 default, sid.getD 3 default] := by
      rw [Checked.drop_eq_cons_cons sid 2 (by omega)]
      rfl
    rw [if_neg h8, if_neg h8]
    iterate 8 rw [index_eq (by omega), pure_bind]
    dsimp only
    rw [subAuthoritiesLoop_eq sid hlimit _ _ _ (by omega), map_pure, hlow,
      take_four_drop sid 4 (by omega)]
    rfl

theorem appendSubAuthorities_le (k start : ℕ) (id : Text) (hstart : start ≤ sid.length) :
    (appendSubAuthorities sid k start id).2 ≤ sid.length := by
  induction k generalizing start id with
  | zero => exact hstart
  | succ k ih =>
    rw [appendSubAuthorities]
    split
    · exact hstart
    · exact ih _ _ (by omega)

theorem sidToStringWithSize_le {sid : Bytes} {text : Text} {size : ℕ}
    (h : sidToStringWithSize sid = some (text, size)) : size ≤ sid.length := by
  unfold sidToStringWithSize at h
  split_ifs at h with h8
  have hle := appendSubAuthorities_le sid (sid.getD 1 0).toNat 8
    ("S-".toList ++ decimal (sid.getD 0 0).toNat ++ '-' ::
      decimal (ofBe ((sid.drop 2).take 2) <<< 32 ||| ofBe ((sid.drop 4).take 4))) (by omega)
  rw [Option.some.inj h] at hle
  exact hle

theorem extractSid_eq (data : Bytes) (hlimit : data.length < 2^63) :
    extractSid data =
      attempt ((sidToStringWithSize data).map fun (text, size) => (text, data.drop size)) := by
  unfold extractSid
  rw [sidToStringWithSizeChecked_eq data hlimit]
  cases hsid : sidToStringWithSize data with
  | none => rfl
  | some found =>
    change (do
      let data ← (sliceFrom data found.2 : Guarded Bytes)
      pure (found.1, data) : Attempt (Text × Bytes)) = _
    rw [sliceFrom_eq (sidToStringWithSize_le hsid), liftM_pure, pure_bind]
    rfl

theorem extractNumbers_of_le (data : Bytes) (h : 16 ≤ data.length) :
    ∃ numbers, extractNumbers data = pure (numbers, data.drop 16) := by
  obtain ⟨processId, h₁⟩ := extractUInt32_of_le data (by omega)
  obtain ⟨parentProcessId, h₂⟩ := extractUInt32_of_le (data.drop 4) (by simp; omega)
  obtain ⟨sessionId, h₃⟩ := extractUInt32_of_le (data.drop 8) (by simp; omega)
  obtain ⟨exitStatus, h₄⟩ := extractUInt32_of_le (data.drop 12) (by simp; omega)
  refine ⟨⟨processId, parentProcessId, sessionId, exitStatus⟩, ?_⟩
  simp only [extractNumbers, h₁, h₂, h₃, h₄, pure_bind, drop_drop, Nat.reduceAdd]

theorem skipBeforeSid_of_le (data : Bytes) (hsize : pointerSize = 4 ∨ pointerSize = 8)
    (h : 2*pointerSize+4 ≤ data.length) :
    skipBeforeSid data pointerSize = pure (data.drop (2*pointerSize+4)) := by
  obtain ⟨first, h₁⟩ := extractPointerFromBuffer_of_le data hsize (by omega)
  obtain ⟨second, h₂⟩ := extractPointerFromBuffer_of_le (data.drop pointerSize) hsize
    (by rw [length_drop]; omega)
  obtain ⟨third, h₃⟩ := extractUInt32_of_le (data.drop (pointerSize+pointerSize))
    (by rw [length_drop]; omega)
  have hsum : pointerSize+pointerSize+4 = 2*pointerSize+4 := by omega
  simp only [skipBeforeSid, h₁, h₂, h₃, pure_bind, drop_drop, hsum]

variable {α : Type}

theorem safe_attempt (x : Option α) : (attempt x).run.Safe := safe_pure _

theorem safe_failure : (failure : Attempt α).run.Safe := safe_pure _

theorem safe_failure_bind {β : Type} (f : α → Attempt β) :
    ((failure : Attempt α) >>= f).run.Safe := by
  rw [safe_option_bind]
  refine ⟨safe_failure, ?_⟩
  rintro a ⟨⟩

theorem safe_bind_pure {β : Type} (x : Attempt α) (f : α → β) :
    (x >>= fun a => pure (f a)).run.Safe ↔ x.run.Safe := by
  rw [safe_option_bind]
  exact and_iff_left fun _ _ => safe_pure _

theorem safe_gate (required : Guarded ℕ) (data : Bytes) (body : Attempt α) :
    (do let r ← required
        if data.length < r then failure else body : Attempt α).run.Safe ↔
      required.Safe ∧ (required.value ≤ data.length → body.run.Safe) := by
  rw [safe_option_lift_bind]
  apply and_congr_right'
  by_cases hshort : data.length < required.value
  · rw [if_pos hshort]
    exact iff_of_true safe_failure fun hlong => absurd hlong (Nat.not_le.mpr hshort)
  · rw [if_neg hshort]
    constructor
    · intro hbody _
      exact hbody
    · intro hbody
      exact hbody (Nat.not_lt.mp hshort)

theorem safe_required {k c : ℕ} :
    (do let pointers ← mulIn usizeLimit k pointerSize
        addIn usizeLimit c pointers).Safe ↔ c+k*pointerSize < usizeLimit := by
  rw [safe_bind, safe_mulIn, safe_addIn]
  change k*pointerSize < usizeLimit ∧ c+k*pointerSize < usizeLimit ↔ _
  omega

theorem takeWhile_of_zero_notMem (h : 0 ∉ data) : data.takeWhile (· != 0) = data := by
  rw [takeWhile_eq_self_iff]
  intro b hb
  rw [bne_iff_ne]
  rintro rfl
  exact h hb

theorem findIdx_zero_lt : data.findIdx (· == 0) < data.length ↔ 0 ∈ data := by
  rw [findIdx_lt_length]
  simp

theorem safe_extractNameAndLine (data : Bytes) (hlimit : data.length < 2^63) :
    (extractNameAndLine data).run.Safe ↔ 0 ∈ data ∨ decodeUtf8 data = none := by
  unfold extractNameAndLine
  rw [asciiStringUntilNull_eq data hlimit]
  cases hname : decodeUtf8 (data.takeWhile (· != 0)) with
  | none =>
    refine iff_of_true (safe_failure_bind _) ?_
    by_cases hzero : 0 ∈ data
    · exact Or.inl hzero
    · rw [takeWhile_of_zero_notMem hzero] at hname
      exact Or.inr hname
  | some name =>
    have hend : (sliceFrom data (data.findIdx (· == 0)+1)).Safe ↔ 0 ∈ data := by
      rw [safe_sliceFrom, ← findIdx_zero_lt]
      rfl
    have hline (rest : Bytes) (hrest : rest.length < 2^63) :
        (do let (commandLine, _) ← utf16UntilNull rest
            pure (name, commandLine) : Attempt (Text × Text)).run.Safe := by
      rw [utf16UntilNull_eq rest hrest]
      exact (safe_bind_pure _ _).mpr (safe_attempt _)
    change (do
      let data ← (sliceFrom data (data.findIdx (· == 0)+1) : Guarded Bytes)
      let (commandLine, _) ← utf16UntilNull data
      pure (name, commandLine) : Attempt (Text × Text)).run.Safe ↔ _
    rw [safe_option_lift_bind, hend]
    constructor
    · intro h
      exact Or.inl h.1
    · intro h
      have hzero : 0 ∈ data := by
        by_contra hzero
        rw [takeWhile_of_zero_notMem hzero] at hname
        rcases h with h | h
        · exact hzero h
        · cases h.symm.trans hname
      refine ⟨hzero, hline _ ?_⟩
      change (data.drop (data.findIdx (· == 0)+1)).length < 2^63
      rw [length_drop]
      omega

theorem safe_extractTexts (data : Bytes) (hlimit : data.length < 2^63) :
    (extractTexts data).run.Safe ↔ ∀ text size, sidToStringWithSize data = some (text, size) →
      0 ∈ data.drop size ∨ decodeUtf8 (data.drop size) = none := by
  unfold extractTexts
  rw [extractSid_eq data hlimit]
  cases hsid : sidToStringWithSize data with
  | none =>
    refine iff_of_true (safe_failure_bind _) ?_
    rintro text size ⟨⟩
  | some found =>
    have hrest : (data.drop found.2).length < 2^63 := by
      rw [length_drop]
      omega
    change (do
      let (imageFileName, commandLine) ← extractNameAndLine (data.drop found.2)
      pure ⟨found.1, imageFileName, commandLine⟩ : Attempt ProcessTexts).run.Safe ↔ _
    refine (safe_bind_pure _ _).trans ((safe_extractNameAndLine _ hrest).trans ?_)
    constructor
    · rintro h text size ⟨⟩
      exact h
    · intro h
      exact h found.1 found.2 rfl

def beforeSid (version : UInt8) (pointerSize : ℕ) : ℕ :=
  if version ≤ 2 then 20+3*pointerSize else 20+4*pointerSize

def UnterminatedName (version : UInt8) (pointerSize : ℕ) (data : Bytes) : Prop :=
  ∃ text size name, sidToStringWithSize (data.drop (beforeSid version pointerSize)) =
      some (text, size) ∧
    0 ∉ data.drop (beforeSid version pointerSize+size) ∧
    decodeUtf8 (data.drop (beforeSid version pointerSize+size)) = some name

variable (version : UInt8)

theorem safe_extractTexts_drop (pointerSize : ℕ) (data : Bytes) (hlimit : data.length < 2^63) :
    (extractTexts (data.drop (beforeSid version pointerSize))).run.Safe ↔
      ¬ UnterminatedName version pointerSize data := by
  have hrest : (data.drop (beforeSid version pointerSize)).length < 2^63 := by
    rw [length_drop]
    omega
  rw [safe_extractTexts _ hrest]
  simp only [UnterminatedName, drop_drop, not_exists, not_and, Option.eq_none_iff_forall_ne_some,
    or_iff_not_imp_left]
  constructor
  · intro h text size name hsid hzero
    exact h text size hsid hzero name
  · intro h text size hsid hzero name
    exact h text size name hsid hzero

def TextsSafe (version : UInt8) (pointerSize : ℕ) (data : Bytes) : Prop :=
  44+4*pointerSize < usizeLimit ∧ ((pointerSize = 4 ∨ pointerSize = 8) →
    44+4*pointerSize ≤ data.length → ¬ UnterminatedName version pointerSize data)

theorem safe_requiredSizeV1ToV4_gate {version : UInt8} (hlimit : data.length < 2^63)
    {body : Attempt ProcessCommon}
    (hbody : (pointerSize = 4 ∨ pointerSize = 8) → 44+4*pointerSize ≤ data.length →
      (body.run.Safe ↔ (extractTexts (data.drop (beforeSid version pointerSize))).run.Safe))
    (hother : ¬ (pointerSize = 4 ∨ pointerSize = 8) → body.run.Safe) :
    (do let required ← requiredSizeV1ToV4 pointerSize
        if data.length < required then failure else body : Attempt ProcessCommon).run.Safe ↔
      TextsSafe version pointerSize data := by
  unfold TextsSafe
  rw [safe_gate, requiredSizeV1ToV4, safe_required]
  apply and_congr_right'
  change (44+4*pointerSize ≤ data.length → _) ↔ _
  by_cases hsize : pointerSize = 4 ∨ pointerSize = 8
  · constructor
    · intro h _ hlong
      rw [← safe_extractTexts_drop version pointerSize data hlimit, ← hbody hsize hlong]
      exact h hlong
    · intro h hlong
      rw [hbody hsize hlong, safe_extractTexts_drop version pointerSize data hlimit]
      exact h hsize hlong
  · exact iff_of_true (fun _ => hother hsize) fun h => absurd h hsize

theorem safe_parseV1OrV2 (make : UInt64 → ProcessNumbers → ProcessTexts → ProcessCommon)
    {version : UInt8} (hversion : version ≤ 2) (hlimit : data.length < 2^63) (pointerSize : ℕ) :
    (parseV1OrV2 make data pointerSize).run.Safe ↔ TextsSafe version pointerSize data := by
  apply safe_requiredSizeV1ToV4_gate hlimit
  · intro hsize hlong
    obtain ⟨first, hfirst⟩ := extractPointerFromBuffer_of_le data hsize (by omega)
    obtain ⟨numbers, hnumbers⟩ := extractNumbers_of_le (data.drop pointerSize)
      (by rw [length_drop]; omega)
    have hskip := skipBeforeSid_of_le (data.drop (pointerSize+16)) hsize
      (by rw [length_drop]; omega)
    have hbefore : pointerSize+16+(2*pointerSize+4) = beforeSid version pointerSize := by
      rw [beforeSid, if_pos hversion]
      omega
    simp only [hfirst, hnumbers, hskip, pure_bind, drop_drop, hbefore]
    rw [safe_bind_pure]
  · intro hsize
    rw [extractPointerFromBuffer_of_other data hsize]
    exact safe_failure_bind _

theorem safe_parseV3V4 {version : UInt8} (hversion : ¬ version ≤ 2) (hlimit : data.length < 2^63)
    (pointerSize : ℕ) :
    (parseV3V4 data pointerSize).run.Safe ↔ TextsSafe version pointerSize data := by
  apply safe_requiredSizeV1ToV4_gate hlimit
  · intro hsize hlong
    obtain ⟨key, hkey⟩ := extractPointerFromBuffer_of_le data hsize (by omega)
    obtain ⟨numbers, hnumbers⟩ := extractNumbers_of_le (data.drop pointerSize)
      (by rw [length_drop]; omega)
    obtain ⟨base, hbase⟩ := extractPointerFromBuffer_of_le (data.drop (pointerSize+16))
      hsize (by rw [length_drop]; omega)
    have hskip := skipBeforeSid_of_le (data.drop (pointerSize+16+pointerSize)) hsize
      (by rw [length_drop]; omega)
    have hbefore : pointerSize+16+pointerSize+(2*pointerSize+4) = beforeSid version pointerSize := by
      rw [beforeSid, if_neg hversion]
      omega
    simp only [hkey, hnumbers, hbase, hskip, pure_bind, drop_drop, hbefore]
    rw [safe_bind_pure]
  · intro hsize
    rw [extractPointerFromBuffer_of_other data hsize]
    exact safe_failure_bind _

theorem safe_extractUInt32_bind {f : UInt32 × Bytes → Attempt α}
    (h : ∀ v, (f (v, data.drop 4)).run.Safe) :
    (extractValueFromBuffer UInt32 data >>= f).run.Safe := by
  by_cases hlong : 4 ≤ data.length
  · obtain ⟨v, hv⟩ := extractUInt32_of_le data hlong
    rw [hv, pure_bind]
    exact h v
  · have hshort : data.length < FromBytes.size UInt32 := Nat.not_le.mp hlong
    rw [extractValueFromBuffer, if_pos hshort]
    exact safe_failure_bind _

theorem safe_extractPointer_bind {f : UInt64 × Bytes → Attempt α}
    (h : ∀ v, (f (v, data.drop pointerSize)).run.Safe) :
    (extractPointerFromBuffer data pointerSize >>= f).run.Safe := by
  by_cases hsize : pointerSize = 4 ∨ pointerSize = 8
  · by_cases hlong : pointerSize ≤ data.length
    · obtain ⟨v, hv⟩ := extractPointerFromBuffer_of_le data hsize hlong
      rw [hv, pure_bind]
      exact h v
    · have hnone : extractPointerFromBuffer data pointerSize = failure := by
        rcases hsize with rfl | rfl
        · have hshort : data.length < FromBytes.size UInt32 := Nat.not_le.mp hlong
          rw [extractPointerFromBuffer, if_pos rfl, extractValueFromBuffer, if_pos hshort]
          rfl
        · have hshort : data.length < FromBytes.size UInt64 := Nat.not_le.mp hlong
          rw [extractPointerFromBuffer, if_neg (by decide), if_pos rfl, extractValueFromBuffer,
            if_pos hshort]
      rw [hnone]
      exact safe_failure_bind _
  · rw [extractPointerFromBuffer_of_other data hsize]
    exact safe_failure_bind _

theorem safe_skipBeforeSid_bind {f : Bytes → Attempt α}
    (h : (f (data.drop (2*pointerSize+4))).run.Safe) :
    (skipBeforeSid data pointerSize >>= f).run.Safe := by
  have hsum : pointerSize+pointerSize+4 = 2*pointerSize+4 := by omega
  unfold skipBeforeSid
  simp only [bind_assoc]
  refine safe_extractPointer_bind fun _ => safe_extractPointer_bind fun _ =>
    safe_extractUInt32_bind fun _ => ?_
  simp only [pure_bind, drop_drop, hsum]
  exact h

theorem safe_extractSid_bind (hlimit : data.length < 2^63) {f : Text × Bytes → Attempt α}
    (h : ∀ text size, (f (text, data.drop size)).run.Safe) : (extractSid data >>= f).run.Safe := by
  rw [extractSid_eq data hlimit]
  cases sidToStringWithSize data with
  | none => exact safe_failure_bind _
  | some found => exact h found.1 found.2

theorem safe_parseV0 (hlimit : data.length < 2^63) (pointerSize : ℕ) :
    (parseV0 data pointerSize).run.Safe ↔ 10+2*pointerSize < usizeLimit := by
  unfold parseV0
  rw [safe_gate, requiredSizeV0, safe_required]
  refine and_iff_left fun _ => ?_
  refine safe_extractUInt32_bind fun _ => safe_extractUInt32_bind fun _ => ?_
  refine safe_skipBeforeSid_bind (safe_extractSid_bind ?_ fun text size => ?_)
  · simp only [length_drop]
    omega
  · dsimp only
    rw [asciiStringUntilNull_eq]
    · exact (safe_bind_pure _ _).mpr (safe_attempt _)
    · simp only [length_drop]
      omega

theorem safe_parseV3 (hlimit : data.length < 2^63) (pointerSize : ℕ) :
    (parseV3 data pointerSize).run.Safe ↔ 48+4*pointerSize < usizeLimit := by
  unfold parseV3
  rw [safe_gate, requiredSizeV3, safe_required]
  refine and_iff_left fun _ => ?_
  refine safe_extractPointer_bind fun _ => safe_extractPointer_bind fun _ => ?_
  refine safe_extractUInt32_bind fun _ => safe_extractUInt32_bind fun _ => ?_
  refine safe_extractUInt32_bind fun _ => safe_extractUInt32_bind fun _ => ?_
  refine safe_extractPointer_bind fun _ => ?_
  refine safe_extractUInt32_bind fun _ => safe_extractUInt32_bind fun _ => ?_
  refine safe_extractUInt32_bind fun _ => safe_extractUInt32_bind fun _ => ?_
  dsimp only
  rw [utf16UntilNull_eq]
  · exact (safe_bind_pure _ _).mpr (safe_attempt _)
  · simp only [length_drop]
    omega

def ProcessSafe (version : UInt8) (pointerSize : ℕ) (data : Bytes) : Prop :=
  if version = 0 then 10+2*pointerSize < usizeLimit
  else version ≤ 4 → TextsSafe version pointerSize data

theorem version_cases {version : UInt8} (h : version ≤ 4) :
    version = 0 ∨ version = 1 ∨ version = 2 ∨ version = 3 ∨ version = 4 := by
  simp only [← UInt8.toNat_inj]
  have hle : version.toNat ≤ 4 := h
  change version.toNat = 0 ∨ version.toNat = 1 ∨ version.toNat = 2 ∨ version.toNat = 3 ∨
    version.toNat = 4
  omega

theorem safe_parseProcess (pointerSize : ℕ) (hlimit : data.length < 2^63) :
    (parseProcess version pointerSize data).run.Safe ↔ ProcessSafe version pointerSize data := by
  unfold parseProcess ProcessSafe
  by_cases h0 : version = 0
  · rw [if_pos h0, if_pos h0, safe_parseV0 hlimit]
  rw [if_neg h0, if_neg h0]
  by_cases h1 : version = 1
  · subst h1
    rw [if_pos rfl, forall_prop_of_true (by decide)]
    exact safe_parseV1OrV2 _ (by decide) hlimit pointerSize
  rw [if_neg h1]
  by_cases h2 : version = 2
  · subst h2
    rw [if_pos rfl, forall_prop_of_true (by decide)]
    exact safe_parseV1OrV2 _ (by decide) hlimit pointerSize
  rw [if_neg h2]
  by_cases h3 : version = 3 ∨ version = 4
  · rw [if_pos h3, forall_prop_of_true (by rcases h3 with rfl | rfl <;> decide)]
    exact safe_parseV3V4 (by rcases h3 with rfl | rfl <;> decide) hlimit pointerSize
  · rw [if_neg h3]
    refine iff_of_true safe_failure fun h4 => ?_
    rcases version_cases h4 with h | h | h | h
    · exact absurd h h0
    · exact absurd h h1
    · exact absurd h h2
    · exact absurd h h3

theorem safe_decodeProcessParts (opcode : UInt8) (pointerSize : ℕ) (hlimit : data.length < 2^63) :
    (decodeProcessParts (M := M) version opcode pointerSize data).run.Safe ↔
      ((opcode = processStart ∨ opcode = processEnd) → ProcessSafe version pointerSize data) := by
  unfold decodeProcessParts
  by_cases hother : opcode ≠ processStart ∧ opcode ≠ processEnd
  · rw [if_pos hother]
    refine iff_of_true safe_failure fun h => ?_
    rcases h with h | h
    · exact absurd h hother.1
    · exact absurd h hother.2
  · have hknown : opcode = processStart ∨ opcode = processEnd := by
      by_contra h
      exact hother (not_or.mp h)
    rw [if_neg hother, safe_option_bind, safe_parseProcess version pointerSize hlimit,
      forall_prop_of_true hknown]
    refine and_iff_left fun parsed _ => ?_
    split <;> exact safe_pure _

theorem safe_decodeImageParts (opcode : UInt8) (pointerSize : ℕ) (hlimit : data.length < 2^63) :
    (decodeImageParts (M := M) version opcode pointerSize data).run.Safe ↔
      (2 ≤ version ∧ version ≤ 4 → 48+4*pointerSize < usizeLimit) := by
  unfold decodeImageParts parseImage
  by_cases hversion : 2 ≤ version ∧ version ≤ 4
  · rw [if_pos hversion, safe_option_bind, safe_parseV3 hlimit, forall_prop_of_true hversion]
    refine and_iff_left fun parsed _ => ?_
    split
    · exact safe_pure _
    · split <;> exact safe_pure _
  · rw [if_neg hversion]
    exact iff_of_true (safe_failure_bind _) fun h => absurd h hversion

/-- The decoders stop the program only when the size of a pointer is too large for the sum in their
gate, or at an image name that is a text and goes on to the end of the payload. -/
theorem kernel_decoders_return_iff (version opcode : UInt8) (pointerSize : ℕ) (data : Slice UInt8) :
    ((∃ decoded, (decodeProcessParts (M := M) version opcode pointerSize data.toList).run.outcome =
        .ok decoded) ∧
      ∃ decoded, (decodeImageParts (M := M) version opcode pointerSize data.toList).run.outcome =
        .ok decoded) ↔
      ((opcode = processStart ∨ opcode = processEnd) → ProcessSafe version pointerSize data.toList) ∧
      (2 ≤ version ∧ version ≤ 4 → 48+4*pointerSize < usizeLimit) := by
  rw [exists_outcome_iff, exists_outcome_iff,
    safe_decodeProcessParts version opcode pointerSize data.length_lt,
    safe_decodeImageParts version opcode pointerSize data.length_lt]

/-- A record of version 3 with the SID of the system account and twelve letters at its end, and the
same bytes as the payload of a record of the process provider. -/
theorem kernel_decoders_stop_at_name :
    let payload : Bytes := List.replicate 52 0 ++ [1, 1, 0, 0, 0, 0, 0, 5, 18, 0, 0, 0] ++
      List.replicate 12 0x61
    (decodeProcessParts (M := Unit) 3 processStart 8 payload).run.outcome = .error .outOfRange ∧
      (decodeFromRecordParts (fun _ _ _ => (none : Option Unit)) processGuid 3 processStart
        (pointerSizeFromHeaderFlags 0x40) payload none).outcome = .error .outOfRange := by
  exact ⟨rfl, rfl⟩

end WindowsErg.Etw.Decode
