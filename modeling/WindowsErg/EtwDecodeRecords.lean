import WindowsErg.EtwDecode

/-! The records behind kernel process and image events, and what the decoders make of them and of a
part of them. -/
namespace WindowsErg.Etw.Decode
open List TextScan ByteCodec UnicodeText GuardedRun Guarded Security
variable {M : Type}

inductive Pointer : ℕ → Type where
  | narrow (v : UInt32) : Pointer 4
  | wide (v : UInt64) : Pointer 8

namespace Pointer
variable {n : ℕ}

def value : Pointer n → UInt64
  | narrow v => v.toUInt64
  | wide v => v

def bytes : Pointer n → Bytes
  | narrow v => leBytes 4 v.toNat
  | wide v => leBytes 8 v.toNat

theorem size_cases (p : Pointer n) : n = 4 ∨ n = 8 := by
  cases p with
  | narrow v => exact Or.inl rfl
  | wide v => exact Or.inr rfl

theorem extract_bytes (p : Pointer n) (rest : Bytes) :
    extractPointerFromBuffer (p.bytes ++ rest) n = pure (p.value, rest) := by
  cases p with
  | narrow v =>
    have hv : extractValueFromBuffer UInt32 (leBytes 4 v.toNat ++ rest) = pure (v, rest) :=
      extractValueFromBuffer_append v rest
    rw [extractPointerFromBuffer, if_pos rfl, bytes, hv]
    rfl
  | wide v => exact extractValueFromBuffer_append v rest

end Pointer

theorem extractUInt32_append (v : UInt32) (rest : Bytes) :
    extractValueFromBuffer UInt32 (leBytes 4 v.toNat ++ rest) = pure (v, rest) :=
  extractValueFromBuffer_append v rest

def ProcessNumbers.bytes (numbers : ProcessNumbers) : Bytes :=
  leBytes 4 numbers.processId.toNat ++ (leBytes 4 numbers.parentProcessId.toNat ++
    (leBytes 4 numbers.sessionId.toNat ++ leBytes 4 numbers.exitStatus.toNat))

theorem ProcessNumbers.extract_bytes (numbers : ProcessNumbers) (rest : Bytes) :
    extractNumbers (numbers.bytes ++ rest) = pure (numbers, rest) := by
  simp only [extractNumbers, bytes, append_assoc, extractUInt32_append, pure_bind]

structure Skipped (n : ℕ) where
  first : Pointer n
  second : Pointer n
  third : UInt32

def Skipped.bytes {n : ℕ} (skipped : Skipped n) : Bytes :=
  skipped.first.bytes ++ (skipped.second.bytes ++ leBytes 4 skipped.third.toNat)

theorem Skipped.extract_bytes {n : ℕ} (skipped : Skipped n) (rest : Bytes) :
    skipBeforeSid (skipped.bytes ++ rest) n = pure rest := by
  simp only [skipBeforeSid, bytes, append_assoc, Pointer.extract_bytes, extractUInt32_append,
    pure_bind]

structure PlainText where
  chars : Text
  nul_notMem : Char.ofNat 0 ∉ chars

variable {ending : Bytes}

namespace PlainText

def utf8 (text : PlainText) : Bytes := encodeUtf8 text.chars

def utf16 (text : PlainText) : Bytes := utf16LeBytes (encodeUtf16 text.chars)

variable (text : PlainText)

theorem takeWhile_utf8 (hending : ending.head?.all (· == 0)) :
    (text.utf8 ++ ending).takeWhile (· != 0) = text.utf8 := by
  rw [takeWhile_append_of_pos]
  · cases ending with
    | nil => simp
    | cons b ending =>
      have hb : b = 0 := by simpa using hending
      simp [hb]
  · intro b hb
    rw [bne_iff_ne]
    rintro rfl
    exact zero_notMem_encodeUtf8 text.nul_notMem hb

theorem extract_utf8 (hending : ending.head?.all (· == 0))
    (hlimit : (text.utf8 ++ ending).length < 2^63) :
    asciiStringUntilNull (text.utf8 ++ ending) = pure (text.chars, text.utf8.length+1) := by
  rw [asciiStringUntilNull_eq _ hlimit, ← Checked.length_takeWhile_nonzero,
    text.takeWhile_utf8 hending, utf8, decodeUtf8_encodeUtf8]
  rfl

theorem extract_utf16 (hending : (takeUtf16 ending).1 = [])
    (hlimit : (text.utf16 ++ ending).length < 2^63) :
    utf16UntilNull (text.utf16 ++ ending) =
      pure (text.chars, text.utf16.length+(takeUtf16 ending).2) := by
  have hunits := takeUtf16_append (encodeUtf16 text.chars)
    (ne_zero_of_mem_encodeUtf16 text.chars text.nul_notMem) hending
  rw [utf16UntilNull_eq _ hlimit, utf16, hunits, decodeUtf16_encodeUtf16, length_utf16LeBytes]
  rfl

end PlainText

theorem extractSid_bytes (sid : SidValue) {rest : Bytes} (hlimit : (sid.bytes ++ rest).length < 2^63) :
    extractSid (sid.bytes ++ rest) = pure (sid.text, rest) := by
  rw [extractSid_eq _ hlimit, sidToStringWithSize_bytes]
  change (pure (sid.text, (sid.bytes ++ rest).drop sid.bytes.length) : Attempt (Text × Bytes)) = _
  rw [drop_left]

def textsBytes (sid : SidValue) (name line : PlainText) (ending : Bytes) : Bytes :=
  sid.bytes ++ (name.utf8 ++ 0 :: (line.utf16 ++ ending))

theorem extractTexts_bytes (sid : SidValue) (name line : PlainText)
    (hending : (takeUtf16 ending).1 = [])
    (hlimit : (textsBytes sid name line ending).length < 2^63) :
    extractTexts (textsBytes sid name line ending) = pure ⟨sid.text, name.chars, line.chars⟩ := by
  have hname : (name.utf8 ++ 0 :: (line.utf16 ++ ending)).length < 2^63 := by
    rw [textsBytes, length_append] at hlimit
    omega
  have hline : (line.utf16 ++ ending).length < 2^63 := by
    rw [length_append, length_cons] at hname
    omega
  have hslice : (sliceFrom (name.utf8 ++ 0 :: (line.utf16 ++ ending)) (name.utf8.length+1) :
      Guarded Bytes) = pure (line.utf16 ++ ending) := by
    rw [sliceFrom_eq (by rw [length_append, length_cons]; omega), ← drop_drop,
      drop_left]
    rfl
  have hnames : extractNameAndLine (name.utf8 ++ 0 :: (line.utf16 ++ ending)) =
      pure (name.chars, line.chars) := by
    unfold extractNameAndLine
    rw [name.extract_utf8 (by rfl) hname, pure_bind]
    dsimp only
    rw [hslice, liftM_pure, pure_bind, line.extract_utf16 hending hline, pure_bind]
  unfold extractTexts
  rw [textsBytes, extractSid_bytes sid hlimit, pure_bind]
  dsimp only
  rw [hnames, pure_bind]

inductive ProcessBody (n : ℕ) where
  | v0 (processId parentProcessId : UInt32)
  | v1 (directoryTableBase : Pointer n) (numbers : ProcessNumbers) (commandLine : PlainText)
  | v2 (uniqueProcessKey : Pointer n) (numbers : ProcessNumbers) (commandLine : PlainText)
  | v3 (uniqueProcessKey : Pointer n) (numbers : ProcessNumbers) (directoryTableBase : Pointer n)
      (commandLine : PlainText)
  | v4 (uniqueProcessKey : Pointer n) (numbers : ProcessNumbers) (directoryTableBase : Pointer n)
      (commandLine : PlainText)

structure ProcessRecord (n : ℕ) where
  body : ProcessBody n
  skipped : Skipped n
  userSid : SidValue
  imageFileName : PlainText

namespace ProcessRecord
variable {n : ℕ}

def version (r : ProcessRecord n) : UInt8 :=
  match r.body with
  | .v0 .. => 0
  | .v1 .. => 1
  | .v2 .. => 2
  | .v3 .. => 3
  | .v4 .. => 4

def common (r : ProcessRecord n) : ProcessCommon :=
  let later (numbers : ProcessNumbers) (key base : Option (Pointer n)) (line : PlainText) :=
    { processId := numbers.processId, parentProcessId := numbers.parentProcessId,
      sessionId := some numbers.sessionId, exitStatus := some numbers.exitStatus,
      uniqueProcessKey := key.map Pointer.value, directoryTableBase := base.map Pointer.value,
      imageFileName := r.imageFileName.chars, commandLine := some line.chars,
      userSid := some r.userSid.text : ProcessCommon }
  match r.body with
  | .v0 processId parentProcessId =>
    { processId, parentProcessId, sessionId := none, exitStatus := none, uniqueProcessKey := none,
      directoryTableBase := none, imageFileName := r.imageFileName.chars, commandLine := none,
      userSid := some r.userSid.text }
  | .v1 base numbers line => later numbers none (some base) line
  | .v2 key numbers line => later numbers (some key) none line
  | .v3 key numbers base line | .v4 key numbers base line => later numbers (some key) (some base) line

def encodeWith (r : ProcessRecord n) (ending : Bytes) : Bytes :=
  match r.body with
  | .v0 processId parentProcessId => leBytes 4 processId.toNat ++ (leBytes 4 parentProcessId.toNat ++
      (r.skipped.bytes ++ (r.userSid.bytes ++ (r.imageFileName.utf8 ++ ending))))
  | .v1 first numbers line | .v2 first numbers line => first.bytes ++ (numbers.bytes ++
      (r.skipped.bytes ++ textsBytes r.userSid r.imageFileName line ending))
  | .v3 key numbers base line | .v4 key numbers base line => key.bytes ++ (numbers.bytes ++
      (base.bytes ++ (r.skipped.bytes ++ textsBytes r.userSid r.imageFileName line ending)))

def terminator (r : ProcessRecord n) : Bytes :=
  match r.body with
  | .v0 .. => [0]
  | _ => [0, 0]

def requiredSize (r : ProcessRecord n) : ℕ :=
  match r.body with
  | .v0 .. => 10+2*n
  | _ => 44+4*n

end ProcessRecord

theorem requiredSizeV0_eq {n : ℕ} (h : n = 4 ∨ n = 8) : requiredSizeV0 n = pure (10+2*n) := by
  rcases h with rfl | rfl <;> rfl

theorem requiredSizeV1ToV4_eq {n : ℕ} (h : n = 4 ∨ n = 8) :
    requiredSizeV1ToV4 n = pure (44+4*n) := by
  rcases h with rfl | rfl <;> rfl

theorem requiredSizeV3_eq {n : ℕ} (h : n = 4 ∨ n = 8) : requiredSizeV3 n = pure (48+4*n) := by
  rcases h with rfl | rfl <;> rfl

theorem gate_eq {α : Type} {required : Guarded ℕ} {k : ℕ} (hrequired : required = pure k)
    (data : Bytes) {body : Attempt α} {result : α} (hbody : body = pure result) :
    (do let r ← required
        if data.length < r then failure else body : Attempt α) =
      if data.length < k then failure else pure result := by
  rw [hrequired, hbody, liftM_pure, pure_bind]

variable {data : Bytes}

theorem gate_of_short {α : Type} {required : Guarded ℕ} {k : ℕ} (hrequired : required = pure k)
    (hshort : data.length < k) (body : Attempt α) :
    (do let r ← required
        if data.length < r then failure else body : Attempt α) = failure := by
  rw [hrequired, liftM_pure, pure_bind, if_pos hshort]

theorem ProcessRecord.parse_encodeWith {n : ℕ} (r : ProcessRecord n)
    (hzero : ending.head?.all (· == 0)) (hunits : (takeUtf16 ending).1 = [])
    (hlimit : (r.encodeWith ending).length < 2^63) :
    parseProcess r.version n (r.encodeWith ending) =
      if (r.encodeWith ending).length < r.requiredSize then failure else pure r.common := by
  have hsize := r.skipped.first.size_cases
  obtain ⟨body, skipped, sid, name⟩ := r
  cases body with
  | v0 processId parentProcessId =>
    apply gate_eq (requiredSizeV0_eq hsize)
    simp only [encodeWith, extractUInt32_append, Skipped.extract_bytes, pure_bind]
    simp only [encodeWith, length_append] at hlimit
    rw [extractSid_bytes sid (by simp only [length_append]; omega), pure_bind]
    dsimp only
    rw [name.extract_utf8 hzero (by simp only [length_append]; omega), pure_bind]
    rfl
  -- the later versions differ in which of their pointers is which
  | _ =>
    apply gate_eq (requiredSizeV1ToV4_eq hsize)
    simp only [encodeWith, length_append] at hlimit
    simp only [encodeWith, Pointer.extract_bytes, ProcessNumbers.extract_bytes, Skipped.extract_bytes,
      pure_bind]
    rw [extractTexts_bytes sid name _ hunits, pure_bind]
    · rfl
    · omega

theorem ProcessRecord.parse_of_short {n : ℕ} (r : ProcessRecord n)
    (hshort : data.length < r.requiredSize) : parseProcess r.version n data = failure := by
  have hsize := r.skipped.first.size_cases
  obtain ⟨body, skipped, sid, name⟩ := r
  cases body with
  | v0 processId parentProcessId => exact gate_of_short (requiredSizeV0_eq hsize) hshort _
  | _ => exact gate_of_short (requiredSizeV1ToV4_eq hsize) hshort _

inductive ImageVersion where
  | v2
  | v3
  | v4

def ImageVersion.code : ImageVersion → UInt8
  | v2 => 2
  | v3 => 3
  | v4 => 4

structure ImageRecord (n : ℕ) where
  imageVersion : ImageVersion
  imageBase : Pointer n
  imageSize : Pointer n
  processId : UInt32
  checksum : UInt32
  timestamp : UInt32
  skipped : UInt32
  defaultBase : Pointer n
  skippedAfter : UInt32 × UInt32 × UInt32 × UInt32
  fileName : PlainText

namespace ImageRecord
variable {n : ℕ}

def common (r : ImageRecord n) : ImageCommon :=
  { processId := r.processId, imageBase := r.imageBase.value, imageSize := r.imageSize.value,
    checksum := r.checksum, timestamp := r.timestamp, defaultBase := r.defaultBase.value,
    fileName := r.fileName.chars }

def encodeWith (r : ImageRecord n) (ending : Bytes) : Bytes :=
  r.imageBase.bytes ++ (r.imageSize.bytes ++ (leBytes 4 r.processId.toNat ++
    (leBytes 4 r.checksum.toNat ++ (leBytes 4 r.timestamp.toNat ++ (leBytes 4 r.skipped.toNat ++
    (r.defaultBase.bytes ++ (leBytes 4 r.skippedAfter.1.toNat ++
    (leBytes 4 r.skippedAfter.2.1.toNat ++ (leBytes 4 r.skippedAfter.2.2.1.toNat ++
    (leBytes 4 r.skippedAfter.2.2.2.toNat ++ (r.fileName.utf16 ++ ending)))))))))))

theorem version_range (r : ImageRecord n) :
    2 ≤ r.imageVersion.code ∧ r.imageVersion.code ≤ 4 := by
  cases r.imageVersion <;> decide

theorem parse_encodeWith (r : ImageRecord n) (hunits : (takeUtf16 ending).1 = [])
    (hlimit : (r.encodeWith ending).length < 2^63) :
    parseImage r.imageVersion.code n (r.encodeWith ending) =
      if (r.encodeWith ending).length < 48+4*n then failure else pure r.common := by
  rw [parseImage, if_pos r.version_range]
  apply gate_eq (requiredSizeV3_eq r.imageBase.size_cases)
  simp only [encodeWith, length_append] at hlimit
  simp only [encodeWith, Pointer.extract_bytes, extractUInt32_append, pure_bind,
    r.fileName.extract_utf16 hunits (by rw [length_append]; omega)]
  rfl

theorem parse_of_short (r : ImageRecord n) (hshort : data.length < 48+4*n) :
    parseImage r.imageVersion.code n data = failure := by
  rw [parseImage, if_pos r.version_range]
  exact gate_of_short (requiredSizeV3_eq r.imageBase.size_cases) hshort _

end ImageRecord

inductive KernelRecord (n : ℕ) where
  | processStart (r : ProcessRecord n)
  | processEnd (r : ProcessRecord n)
  | imageLoad (r : ImageRecord n)
  | imageUnload (r : ImageRecord n)

namespace KernelRecord
variable {n : ℕ}

def encodeWith (r : KernelRecord n) (ending : Bytes) : Bytes :=
  match r with
  | .processStart r | .processEnd r => r.encodeWith ending
  | .imageLoad r | .imageUnload r => r.encodeWith ending

def terminator : KernelRecord n → Bytes
  | .processStart r | .processEnd r => r.terminator
  | .imageLoad _ | .imageUnload _ => [0, 0]

def encode (r : KernelRecord n) : Bytes := r.encodeWith r.terminator

def requiredSize : KernelRecord n → ℕ
  | .processStart r | .processEnd r => r.requiredSize
  | .imageLoad _ | .imageUnload _ => 48+4*n

def decode (r : KernelRecord n) (data : Bytes) : Attempt (DecodedEvent M) :=
  match r with
  | .processStart r => decodeProcessParts r.version Decode.processStart n data
  | .processEnd r => decodeProcessParts r.version Decode.processEnd n data
  | .imageLoad r => decodeImageParts r.imageVersion.code Decode.imageLoad n data
  | .imageUnload r => decodeImageParts r.imageVersion.code Decode.imageUnload n data

def event : KernelRecord n → DecodedEvent M
  | .processStart r => .processStart { r.common with version := r.version }
  | .processEnd r => .processEnd { r.common with version := r.version }
  | .imageLoad r => .imageLoad { r.common with version := r.imageVersion.code }
  | .imageUnload r => .imageUnload { r.common with version := r.imageVersion.code }

variable (r : KernelRecord n)

theorem decode_encodeWith (hzero : ending.head?.all (· == 0)) (hunits : (takeUtf16 ending).1 = [])
    (hlimit : (r.encodeWith ending).length < 2^63) :
    (r.decode (r.encodeWith ending) : Attempt (DecodedEvent M)) =
      if (r.encodeWith ending).length < r.requiredSize then failure else pure r.event := by
  cases r with
  | processStart r =>
    rw [decode, decodeProcessParts, if_neg (by decide), encodeWith,
      r.parse_encodeWith hzero hunits hlimit, requiredSize]
    split <;> rfl
  | processEnd r =>
    rw [decode, decodeProcessParts, if_neg (by decide), encodeWith,
      r.parse_encodeWith hzero hunits hlimit, requiredSize]
    split <;> rfl
  | imageLoad r =>
    rw [decode, decodeImageParts, encodeWith, r.parse_encodeWith hunits hlimit, requiredSize]
    split <;> rfl
  | imageUnload r =>
    rw [decode, decodeImageParts, encodeWith, r.parse_encodeWith hunits hlimit, requiredSize]
    split <;> rfl

theorem decode_of_short (hshort : data.length < r.requiredSize) :
    (r.decode data : Attempt (DecodedEvent M)) = failure := by
  cases r with
  | processStart r =>
    rw [decode, decodeProcessParts, if_neg (by decide), r.parse_of_short hshort]
    rfl
  | processEnd r =>
    rw [decode, decodeProcessParts, if_neg (by decide), r.parse_of_short hshort]
    rfl
  | imageLoad r =>
    rw [decode, decodeImageParts, r.parse_of_short hshort]
    rfl
  | imageUnload r =>
    rw [decode, decodeImageParts, r.parse_of_short hshort]
    rfl

theorem terminator_cases : r.terminator = [0] ∨ r.terminator = [0, 0] := by
  have hprocess (r : ProcessRecord n) : r.terminator = [0] ∨ r.terminator = [0, 0] := by
    obtain ⟨body, skipped, sid, name⟩ := r
    cases body with
    | v0 processId parentProcessId => exact Or.inl rfl
    | _ => exact Or.inr rfl
  cases r with
  | processStart r => exact hprocess r
  | processEnd r => exact hprocess r
  | imageLoad r => exact Or.inr rfl
  | imageUnload r => exact Or.inr rfl

theorem decode_encode (hfits : r.encode.length < 2^63) :
    (r.decode r.encode : Attempt (DecodedEvent M)) =
      if r.encode.length < r.requiredSize then failure else pure r.event := by
  rcases r.terminator_cases with h | h
  · exact r.decode_encodeWith (by rw [h]; rfl) (by rw [h]; rfl) hfits
  · exact r.decode_encodeWith (by rw [h]; rfl) (by rw [h]; rfl) hfits

theorem encodeWith_eq_append (ending : Bytes) :
    r.encodeWith ending = r.encodeWith [] ++ ending := by
  have hprocess (r : ProcessRecord n) : r.encodeWith ending = r.encodeWith [] ++ ending := by
    obtain ⟨body, skipped, sid, name⟩ := r
    cases body <;> simp [ProcessRecord.encodeWith, textsBytes]
  have himage (r : ImageRecord n) : r.encodeWith ending = r.encodeWith [] ++ ending := by
    simp [ImageRecord.encodeWith]
  cases r with
  | processStart r => exact hprocess r
  | processEnd r => exact hprocess r
  | imageLoad r => exact himage r
  | imageUnload r => exact himage r

theorem decode_cut (hfits : r.encode.length < 2^63) (hlong : r.requiredSize < r.encode.length) :
    r.encodeWith r.terminator.dropLast <+: r.encode ∧
      r.encodeWith r.terminator.dropLast ≠ r.encode ∧
      (r.decode (r.encodeWith r.terminator.dropLast) : Attempt (DecodedEvent M)) = pure r.event := by
  have hcut := r.encodeWith_eq_append r.terminator.dropLast
  have hwhole : r.encode = r.encodeWith [] ++ r.terminator := r.encodeWith_eq_append r.terminator
  have hpart : (r.encodeWith r.terminator.dropLast).length+1 = r.encode.length := by
    rw [hcut, hwhole, length_append, length_append, length_dropLast]
    rcases r.terminator_cases with h | h <;> rw [h] <;> rfl
  refine ⟨?_, ?_, ?_⟩
  · rw [hcut, hwhole, prefix_append_right_inj]
    exact dropLast_prefix _
  · intro h
    rw [h] at hpart
    omega
  · have hnot : ¬ (r.encodeWith r.terminator.dropLast).length < r.requiredSize := by omega
    rcases r.terminator_cases with h | h
    · rw [r.decode_encodeWith (by rw [h]; rfl) (by rw [h]; rfl) (by omega), if_neg hnot]
    · rw [r.decode_encodeWith (by rw [h]; rfl) (by rw [h]; rfl) (by omega), if_neg hnot]

def systemProcess (imageFileName commandLine : PlainText) : KernelRecord 8 :=
  .processStart { body := .v3 (.wide 0xFFFF8001) ⟨812, 620, 0, 259⟩ (.wide 0x1AA000) commandLine
                  skipped := ⟨.wide 0, .wide 0, 0⟩
                  userSid := ⟨1, 5, [18], by decide, by decide, by decide, by decide⟩
                  imageFileName }

/-- What is decoded from a complete record is what the record says, with the fields that its version
has and no other. -/
theorem kernel_record_decoded (r : KernelRecord n) (hfits : r.encode.length < 2^63)
    (event : DecodedEvent M) (h : (r.decode r.encode).run.outcome = .ok (some event)) :
    event = r.event := by
  rw [r.decode_encode hfits] at h
  split at h
  · cases h
  · cases h
    rfl

theorem kernel_record_decoded_system :
    let r := systemProcess ⟨"lsass.exe".toList, by decide⟩ ⟨"lsass.exe -s".toList, by decide⟩
    let event : DecodedEvent Unit := .processStart
      { processId := 812, parentProcessId := 620, sessionId := some 0, exitStatus := some 259,
        uniqueProcessKey := some 0xFFFF8001, directoryTableBase := some 0x1AA000,
        imageFileName := "lsass.exe".toList, commandLine := some "lsass.exe -s".toList,
        userSid := some "S-1-5-18".toList, version := 3 }
    (r.decode r.encode).run.outcome = .ok (some event) ∧ event = r.event := by
  intro r event
  have hfits : r.encode.length < 2^63 := by decide
  have h : (r.decode r.encode).run.outcome = .ok (some event) := by
    rw [r.decode_encode hfits, if_neg (by decide)]
    rfl
  exact ⟨h, kernel_record_decoded r hfits event h⟩

/-- A complete record is decoded exactly when it is as long as the gate asks. -/
theorem kernel_record_accepted_iff (r : KernelRecord n) (hfits : r.encode.length < 2^63) :
    (∃ event : DecodedEvent M, (r.decode r.encode).run.outcome = .ok (some event)) ↔
      r.requiredSize ≤ r.encode.length := by
  rw [r.decode_encode hfits]
  by_cases hshort : r.encode.length < r.requiredSize
  · rw [if_pos hshort]
    refine iff_of_false ?_ (Nat.not_le.mpr hshort)
    rintro ⟨event, ⟨⟩⟩
  · rw [if_neg hshort]
    exact iff_of_true ⟨r.event, rfl⟩ (Nat.not_lt.mp hshort)

theorem kernel_record_accepted_system :
    let r := systemProcess ⟨"lsass.exe".toList, by decide⟩ ⟨"lsass.exe -s".toList, by decide⟩
    r.requiredSize ≤ r.encode.length ∧
      ∃ event : DecodedEvent Unit, (r.decode r.encode).run.outcome = .ok (some event) := by
  intro r
  have hlong : r.requiredSize ≤ r.encode.length := by decide
  exact ⟨hlong, (kernel_record_accepted_iff r (by decide)).mpr hlong⟩

theorem kernel_record_refused_short :
    let r := systemProcess ⟨"a.exe".toList, by decide⟩ ⟨[], by decide⟩
    r.encode.length < r.requiredSize ∧
      (r.decode r.encode : Attempt (DecodedEvent Unit)).run.outcome = .ok none := by
  intro r
  have hshort : r.encode.length < r.requiredSize := by decide
  refine ⟨hshort, ?_⟩
  rw [r.decode_of_short hshort]
  rfl

/-- No part of a record is decoded exactly when the whole record is no longer than the gate asks: the
record without its last byte is decoded otherwise. -/
theorem kernel_record_prefix_refused_iff (r : KernelRecord n) (hfits : r.encode.length < 2^63) :
    (∀ part, part <+: r.encode → part ≠ r.encode →
      ∀ event : DecodedEvent M, (r.decode part).run.outcome ≠ .ok (some event)) ↔
      r.encode.length ≤ r.requiredSize := by
  constructor
  · intro h
    by_contra hlong
    obtain ⟨hpart, hne, hdecode⟩ := r.decode_cut (M := M) hfits (Nat.not_le.mp hlong)
    apply h _ hpart hne r.event
    rw [hdecode]
    rfl
  · intro hshort part hpart hne event
    have hlt : part.length < r.encode.length := by
      refine lt_of_le_of_ne hpart.length_le fun hlen => hne ?_
      exact hpart.eq_of_length hlen
    rw [r.decode_of_short (by omega)]
    rintro ⟨⟩

theorem kernel_record_prefix_refused_short :
    let r := systemProcess ⟨"a.exe".toList, by decide⟩ ⟨[], by decide⟩
    r.encode.length ≤ r.requiredSize ∧ ∀ part, part <+: r.encode → part ≠ r.encode →
      ∀ event : DecodedEvent Unit, (r.decode part).run.outcome ≠ .ok (some event) := by
  intro r
  have hshort : r.encode.length ≤ r.requiredSize := by decide
  exact ⟨hshort, (kernel_record_prefix_refused_iff r (by decide)).mpr hshort⟩

/-- A record that is cut within its command line is decoded with the part of the line that is left. -/
theorem kernel_record_prefix_decoded :
    let r := systemProcess ⟨"lsass.exe".toList, by decide⟩ ⟨"lsass.exe -s".toList, by decide⟩
    let cut := systemProcess ⟨"lsass.exe".toList, by decide⟩ ⟨"lsass.exe".toList, by decide⟩
    cut.encodeWith [] <+: r.encode ∧ cut.encodeWith [] ≠ r.encode ∧
      (r.decode (cut.encodeWith []) : Attempt (DecodedEvent Unit)).run.outcome =
        .ok (some cut.event) ∧
      (cut.event : DecodedEvent Unit) ≠ r.event := by
  intro r cut
  refine ⟨by decide, by decide, ?_, by decide⟩
  change (cut.decode (cut.encodeWith []) : Attempt (DecodedEvent Unit)).run.outcome = _
  rw [cut.decode_encodeWith rfl rfl (by decide), if_neg (by decide)]
  rfl

end KernelRecord

end WindowsErg.Etw.Decode
