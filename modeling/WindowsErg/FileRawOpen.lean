import WindowsErg.FileRaw
import WindowsErg.FileSafe

/-! Opening a raw file, `src/file/raw.rs` and `src/file/win.rs`, and the handles that it opens and
closes on the way. -/
namespace WindowsErg.File
open TextScan ByteCodec UnicodeText CallProgram

def genericRead : UInt32 := 0x80000000

inductive RawCall where
  | createFile (name : List UInt16) (access share : UInt32)
  | getDiskFreeSpace (root : List UInt16)
  | getFileSize (handle : Handle)
  | getRetrievalPointers (handle : Handle) (outBufferSize : ℕ)
  | closeHandle (handle : Handle)

/-- `GetDiskFreeSpaceW` answers with the sectors of a cluster and the bytes of a sector,
`GetFileSize` with the low and the high half. -/
abbrev RawCall.Answer : RawCall → Type
  | .createFile _ _ _ => Except Int32 Handle
  | .getDiskFreeSpace _ => Except Int32 (UInt32 × UInt32)
  | .getFileSize _ => UInt32 × UInt32
  | .getRetrievalPointers _ _ => Except Int32 Bytes
  | .closeHandle _ => Unit

abbrev RawProgram (α : Type) := Program RawCall RawCall.Answer α

structure RawPath where
  units : List UInt16

def RawPath.display (path : RawPath) : Text := decodeUtf16Lossy path.units

def rawError (path : Text) (operation : String) (code : Option Int32) : SafeError :=
  .fileOperation path operation.toList code

def encodePcwstr (text : Text) : List UInt16 := encodeUtf16 text ++ [0]

def getDriveAndDisk (path : Text) : Except SafeError (Text × Text) :=
  match path with
  | [] => .error (invalid "path" "Path cannot be empty")
  | [_] => .error (invalid "path" "Path must include a drive separator")
  | drive :: separator :: _ =>
    if separator ≠ ':' ∨ ¬drive.isAlpha then
      .error (invalid "path" "Path must start with a drive letter (for example C:\\...)")
    else .ok ("\\\\.\\".toList ++ [drive.toUpper, ':'], [drive.toUpper, ':', '\\'])

section Functions
open Program

def dropOwnedHandle (handle : Handle) : RawProgram Unit :=
  if handle.isInvalid then pure () else request (RawCall.closeHandle handle)

/-- The volume's handle is a plain number here: nothing closes it when the query fails. -/
def getDriveMetadata (path : RawPath) : RawProgram (Except SafeError (Handle × ℕ × ℕ)) :=
  match getDriveAndDisk path.display with
  | .error e => pure (.error e)
  | .ok (drivePath, diskLetter) => do
    match ← request (RawCall.createFile (encodePcwstr drivePath) genericRead
      (fileShareRead ||| fileShareWrite)) with
    | .error code => pure (.error (rawError path.display "open source volume" (some code)))
    | .ok diskHandle =>
      match ← request (RawCall.getDiskFreeSpace (encodePcwstr diskLetter)) with
      | .error code =>
        pure (.error (rawError path.display "query source volume metadata" (some code)))
      | .ok (sectorsInCluster, bytesPerSector) =>
        pure (.ok (diskHandle, sectorsInCluster.toNat, bytesPerSector.toNat))

def getFilePointerAndSize (path : RawPath) : RawProgram (Except SafeError (Handle × ℕ)) := do
  match ← request (RawCall.createFile (encodePcwstr ("\\\\.\\".toList ++ path.display))
    fileReadAttributes fileShareRead) with
  | .error code =>
    pure (.error (rawError path.display "open source file metadata handle" (some code)))
  | .ok fileHandle =>
    let (fileSizeLow, fileSizeHigh) ← request (RawCall.getFileSize fileHandle)
    pure (.ok (fileHandle, fileSizeHigh.toNat*2^32+fileSizeLow.toNat))

def getRetrievalPointers (fileHandle : Handle) (outBufferLength : ℕ) :
    RawProgram (Except SafeError RetrievalPointersBuffer) := do
  match ← request (RawCall.getRetrievalPointers fileHandle (outBufferLength%2^32)) with
  | .error code =>
    pure (.error (rawError "source file".toList "query file retrieval pointers" (some code)))
  | .ok outBuffer =>
    match bufferToRetrievalPointers outBuffer with
    | .error e => pure (.error (.fileOperation e.path e.operation none))
    | .ok pointers => pure (.ok pointers)

structure OwnedRawFile where
  sourcePath : RawPath
  diskHandle : Handle
  file : RawFile

inductive OpenFailure where
  | err (e : SafeError)
  | overflow

def openWithTuning (path : RawPath) (clustersPerRead metadataBufferCapacity : ℕ) :
    RawProgram (Except OpenFailure OwnedRawFile) :=
  if path.units = [] then
    pure (.error (.err (invalid "path" "Raw file path cannot be empty")))
  else do
    match ← getDriveMetadata path with
    | .error e => pure (.error (.err e))
    | .ok (diskHandle, sectorsInCluster, bytesPerSector) =>
      match ← getFilePointerAndSize path with
      | .error e => pure (.error (.err e))
      | .ok (metadataHandle, fileSize) =>
        -- from here on the file's handle is closed by its owner, however the function ends
        match ← getRetrievalPointers metadataHandle (max metadataBufferCapacity 4096) with
        | .error e =>
          dropOwnedHandle metadataHandle
          pure (.error (.err e))
        | .ok retrievalPointers =>
          if 2^32 ≤ bytesPerSector*sectorsInCluster then
            -- the volume has its owner by now, and unwinding drops both
            dropOwnedHandle diskHandle
            dropOwnedHandle metadataHandle
            pure (.error .overflow)
          else
            dropOwnedHandle metadataHandle
            pure (.ok ⟨path, diskHandle, RawFile.opened fileSize retrievalPointers
              (bytesPerSector*sectorsInCluster) clustersPerRead⟩)

def OwnedRawFile.drop (file : OwnedRawFile) : RawProgram Unit := dropOwnedHandle file.diskHandle

end Functions

structure HandleRecord where
  opened : List Handle
  closed : List Handle
  deriving DecidableEq

def HandleRecord.start : HandleRecord := ⟨[], []⟩

def HandleRecord.stillOpen (record : HandleRecord) : List Handle := record.opened.diff record.closed

def HandleRecord.grant (record : HandleRecord) (handle : Handle) : HandleRecord :=
  { record with opened := record.opened ++ [handle] }

def HandleRecord.close (record : HandleRecord) (handle : Handle) : HandleRecord :=
  { record with closed := record.closed ++ [handle] }

def HandleRecord.Released (record : HandleRecord) : Prop := record.closed.Perm record.opened

/-- Every call but the last one can fail. A handle that is handed out is valid and not in use. -/
def rawStep : (c : RawCall) → HandleRecord → c.Answer → HandleRecord → Prop
  | .createFile _ _ _, record, answer, record' =>
    (∃ code, answer = .error code ∧ record' = record) ∨
      ∃ handle, answer = .ok handle ∧ handle.isInvalid = false ∧ handle ∉ record.stillOpen ∧
        record' = record.grant handle
  | .getRetrievalPointers _ outBufferSize, record, answer, record' =>
    (∀ bytes, answer = .ok bytes → bytes.length ≤ outBufferSize) ∧ record' = record
  | .closeHandle handle, record, _, record' => record' = record.close handle
  | _, record, _, record' => record' = record

def rawSystem : System RawCall RawCall.Answer HandleRecord where
  step := rawStep
  interfere _ _ := False

def VolumeUnopened : SafeError → Prop
  | .invalidParameter _ _ => True
  | .fileOperation _ operation _ => operation = "open source volume".toList

theorem stable_rawSystem (P : HandleRecord → Prop) : Stable rawSystem P :=
  fun _ _ hmove => hmove.elim

section Specs
variable {P : HandleRecord → Prop} {record : HandleRecord}

def AfterCreate (record : HandleRecord) : Except Int32 Handle → HandleRecord → Prop
  | .error _, after => after = record
  | .ok handle, after => handle.isInvalid = false ∧ after = record.grant handle

theorem createFile_spec (name : List UInt16) (access share : UInt32) :
    Triple rawSystem (· = record) (Program.request (RawCall.createFile name access share))
      (AfterCreate record) := by
  apply Triple.request (stable_rawSystem _) fun _ => stable_rawSystem _
  rintro before answer after rfl (⟨code, rfl, hafter⟩ | ⟨handle, rfl, hvalid, -, hafter⟩)
  · exact hafter
  · exact ⟨hvalid, hafter⟩

theorem query_spec {c : RawCall} (hquery : ∀ before answer after,
    rawStep c before answer after → after = before) :
    Triple rawSystem P (Program.request c) fun _ => P := by
  apply Triple.request (stable_rawSystem _) fun _ => stable_rawSystem _
  intro before answer after hbefore hstep
  exact hquery before answer after hstep ▸ hbefore

theorem dropOwnedHandle_spec {handle : Handle} (hvalid : handle.isInvalid = false) :
    Triple rawSystem (· = record) (dropOwnedHandle handle)
      fun _ after => after = record.close handle := by
  rw [dropOwnedHandle, hvalid]
  apply Triple.request (stable_rawSystem _) fun _ => stable_rawSystem _
  rintro before answer after rfl hafter
  exact hafter

theorem done_spec {α : Type} {a : α} {Q : α → HandleRecord → Prop} (h : ∀ w, P w → Q a w) :
    Triple rawSystem P (pure a) Q := Triple.done (stable_rawSystem _) h

def AfterFailure (e : SafeError) (after : HandleRecord) : Prop :=
  VolumeUnopened e ∧ after = .start ∨
    ¬VolumeUnopened e ∧ ∃ disk rest, after = ⟨disk :: rest, rest⟩

theorem opened_rawError {path : Text} {operation : String} {code : Option Int32}
    (h : operation.toList ≠ "open source volume".toList) :
    ¬VolumeUnopened (rawError path operation code) := h

theorem unopened_getDriveAndDisk {path : Text} {e : SafeError} (h : getDriveAndDisk path = .error e) :
    VolumeUnopened e := by
  unfold getDriveAndDisk at h
  split at h
  · cases h
    trivial
  · cases h
    trivial
  · split at h
    · cases h
      trivial
    · cases h

def AfterDrive : Except SafeError (Handle × ℕ × ℕ) → HandleRecord → Prop
  | .error e, after => AfterFailure e after
  | .ok (disk, _, _), after => disk.isInvalid = false ∧ after = ⟨[disk], []⟩

theorem getDriveMetadata_spec (path : RawPath) :
    Triple rawSystem (· = .start) (getDriveMetadata path) AfterDrive := by
  unfold getDriveMetadata
  cases hdrive : getDriveAndDisk path.display with
  | error e => exact done_spec fun w hw => Or.inl ⟨unopened_getDriveAndDisk hdrive, hw⟩
  | ok names =>
    apply Triple.bind _ (createFile_spec _ _ _)
    intro answer
    cases answer with
    | error code => exact done_spec fun w hw => Or.inl ⟨rfl, hw⟩
    | ok disk =>
      apply Triple.of_and
      intro hvalid
      apply Triple.bind _ (query_spec (c := .getDiskFreeSpace _) fun _ _ _ hstep => hstep)
      intro space
      cases space with
      | error code => exact done_spec fun w hw => Or.inr ⟨opened_rawError (by decide), disk, [], hw⟩
      | ok sizes => exact done_spec fun w hw => ⟨hvalid, hw⟩

def AfterFile (disk : Handle) : Except SafeError (Handle × ℕ) → HandleRecord → Prop
  | .error e, after => AfterFailure e after
  | .ok (metadata, _), after => metadata.isInvalid = false ∧ after = ⟨[disk, metadata], []⟩

theorem getFilePointerAndSize_spec (path : RawPath) (disk : Handle) :
    Triple rawSystem (· = ⟨[disk], []⟩) (getFilePointerAndSize path) (AfterFile disk) := by
  unfold getFilePointerAndSize
  apply Triple.bind _ (createFile_spec _ _ _)
  intro answer
  cases answer with
  | error code => exact done_spec fun w hw => Or.inr ⟨opened_rawError (by decide), disk, [], hw⟩
  | ok metadata =>
    apply Triple.of_and
    intro hvalid
    apply Triple.bind _ (query_spec (c := .getFileSize _) fun _ _ _ hstep => hstep)
    exact fun size => done_spec fun w hw => ⟨hvalid, hw⟩

theorem operation_parseExtents {n : ℕ} {buffer : Bytes} {e : FileOperationError}
    (h : parseExtents n buffer = .error e) :
    e.operation = "parse retrieval pointer extents".toList := by
  induction n generalizing buffer with
  | zero => cases h
  | succ n ih =>
    rw [parseExtents] at h
    split at h
    · cases h
      rfl
    · cases hrest : parseExtents n (buffer.drop 16) with
      | error e' =>
        rw [hrest] at h
        cases h
        exact ih hrest
      | ok extents =>
        rw [hrest] at h
        cases h

theorem opened_retrievalPointers {outBuffer : Bytes} {e : FileOperationError}
    (h : bufferToRetrievalPointers outBuffer = .error e) :
    ¬VolumeUnopened (.fileOperation e.path e.operation none) := by
  rw [bufferToRetrievalPointers] at h
  split at h
  · cases h
    change "parse retrieval pointers".toList ≠ "open source volume".toList
    decide
  · cases hextents : parseExtents (ofLe (outBuffer.take 4)) (outBuffer.drop 16) with
    | error e' =>
      simp only [hextents, bind, Except.bind] at h
      cases h
      rw [operation_parseExtents hextents]
      change "parse retrieval pointer extents".toList ≠ "open source volume".toList
      decide
    | ok extents =>
      simp only [hextents, bind, Except.bind] at h
      cases h

def AfterPointers (disk metadata : Handle) :
    Except SafeError RetrievalPointersBuffer → HandleRecord → Prop
  | .error e, after => ¬VolumeUnopened e ∧ after = ⟨[disk, metadata], []⟩
  | .ok _, after => after = ⟨[disk, metadata], []⟩

theorem getRetrievalPointers_spec (disk metadata : Handle) (outBufferLength : ℕ) :
    Triple rawSystem (· = ⟨[disk, metadata], []⟩) (getRetrievalPointers metadata outBufferLength)
      (AfterPointers disk metadata) := by
  unfold getRetrievalPointers
  apply Triple.bind _ (query_spec (c := .getRetrievalPointers _ _) fun _ _ _ hstep => hstep.2)
  intro answer
  cases answer with
  | error code => exact done_spec fun w hw => ⟨opened_rawError (by decide), hw⟩
  | ok outBuffer =>
    dsimp only
    cases hparse : bufferToRetrievalPointers outBuffer with
    | error e => exact done_spec fun w hw => ⟨opened_retrievalPointers hparse, hw⟩
    | ok pointers => exact done_spec fun w hw => hw

def AfterOpen : Except OpenFailure OwnedRawFile → HandleRecord → Prop
  | .error (.err e), after => AfterFailure e after
  | .error .overflow, after => after.Released
  | .ok file, after => file.diskHandle.isInvalid = false ∧
      ∃ metadata, after = ⟨[file.diskHandle, metadata], [metadata]⟩

theorem openWithTuning_spec (path : RawPath) (clustersPerRead metadataBufferCapacity : ℕ) :
    Triple rawSystem (· = .start) (openWithTuning path clustersPerRead metadataBufferCapacity)
      AfterOpen := by
  unfold openWithTuning
  split
  · exact done_spec fun w hw => Or.inl ⟨trivial, hw⟩
  apply Triple.bind _ (getDriveMetadata_spec path)
  intro drive
  cases drive with
  | error e => exact done_spec fun w hw => hw
  | ok drive =>
    obtain ⟨disk, sectorsInCluster, bytesPerSector⟩ := drive
    apply Triple.of_and
    intro hdisk
    apply Triple.bind _ (getFilePointerAndSize_spec path disk)
    intro file
    cases file with
    | error e => exact done_spec fun w hw => hw
    | ok file =>
      obtain ⟨metadata, fileSize⟩ := file
      apply Triple.of_and
      intro hmetadata
      apply Triple.bind _ (getRetrievalPointers_spec disk metadata _)
      intro pointers
      cases pointers with
      | error e =>
        apply Triple.of_and
        intro hopened
        apply Triple.bind _ (dropOwnedHandle_spec hmetadata)
        exact fun _ => done_spec fun w hw => Or.inr ⟨hopened, disk, [metadata], hw⟩
      | ok pointers =>
        dsimp only
        split
        · apply Triple.bind _ (dropOwnedHandle_spec hdisk)
          intro _
          apply Triple.bind _ (dropOwnedHandle_spec hmetadata)
          exact fun _ => done_spec fun w hw => hw ▸ List.Perm.refl _
        · apply Triple.bind _ (dropOwnedHandle_spec hmetadata)
          exact fun _ => done_spec fun w hw => ⟨hdisk, metadata, hw⟩

end Specs

def pathOnC : RawPath := ⟨[0x43, 0x3A, 0x5C, 0x61]⟩

theorem runs_getDriveMetadata_pathOnC :
    Runs rawSystem (getDriveMetadata pathOnC) .start (.ok (⟨4⟩, 8, 512)) ⟨[⟨4⟩], []⟩ := by
  have hdrive : getDriveAndDisk pathOnC.display = .ok ("\\\\.\\C:".toList, "C:\\".toList) := by
    decide +kernel
  rw [getDriveMetadata, hdrive]
  refine Runs.request_bind (x := .ok ⟨4⟩) (Or.inr ⟨⟨4⟩, rfl, rfl, by decide, rfl⟩) ?_
  exact Runs.request_bind (x := .ok (8, 512)) rfl (Runs.done _ _)

theorem runs_getFilePointerAndSize_pathOnC :
    Runs rawSystem (getFilePointerAndSize pathOnC) ⟨[⟨4⟩], []⟩ (.ok (⟨8⟩, 0)) ⟨[⟨4⟩, ⟨8⟩], []⟩ := by
  refine Runs.request_bind (x := .ok ⟨8⟩) (Or.inr ⟨⟨8⟩, rfl, rfl, by decide, rfl⟩) ?_
  exact Runs.request_bind (x := ((0, 0) : UInt32 × UInt32)) rfl (Runs.done _ _)

end WindowsErg.File
