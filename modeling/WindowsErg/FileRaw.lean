import WindowsErg.ByteCodec
import WindowsErg.ChunkedRead
import WindowsErg.TextScan

/-! Reading a file through the clusters of its volume, `src/file/raw.rs` and `src/file/win.rs`, on
a 64-bit target with overflow checks. -/
namespace WindowsErg.File
open List TextScan ByteCodec ChunkedRead

structure PointerExtent where
  nextVcn : ℤ
  lcn : ℤ
  deriving DecidableEq, Repr

structure RetrievalPointersBuffer where
  extentCount : ℕ
  startingVcn : ℤ
  extents : List PointerExtent
  deriving DecidableEq, Repr

structure FileOperationError where
  path : Text
  operation : Text
  deriving DecidableEq, Repr

def i64FromLeBytes (bytes : Bytes) : ℤ := (ofLe bytes : ℤ).bmod (2^64)

def parseExtents : ℕ → Bytes → Except FileOperationError (List PointerExtent)
  | 0, _ => .ok []
  | n+1, buffer =>
    if buffer.length < 16 then
      .error ⟨"source file".toList, "parse retrieval pointer extents".toList⟩
    else do
      let extents ← parseExtents n (buffer.drop 16)
      return ⟨i64FromLeBytes (buffer.take 8), i64FromLeBytes ((buffer.drop 8).take 8)⟩ :: extents

def bufferToRetrievalPointers (buffer : Bytes) :
    Except FileOperationError RetrievalPointersBuffer :=
  if buffer.length < 16 then
    .error ⟨"source file".toList, "parse retrieval pointers".toList⟩
  else do
    let extentCount := ofLe (buffer.take 4)
    let extents ← parseExtents extentCount (buffer.drop 16)
    return ⟨extentCount, i64FromLeBytes ((buffer.drop 8).take 8), extents⟩

def i64ToLeBytes (v : ℤ) : Bytes := leBytes 8 (v%2^64).toNat

def PointerExtent.toLeBytes (extent : PointerExtent) : Bytes :=
  i64ToLeBytes extent.nextVcn ++ i64ToLeBytes extent.lcn

theorem i64ToLeBytes_fromLeBytes {bytes : Bytes} (h : bytes.length = 8) :
    i64ToLeBytes (i64FromLeBytes bytes) = bytes := by
  have hlt : ofLe bytes < 2^64 := by simpa [h] using ofLe_lt bytes
  have hback : (i64FromLeBytes bytes%2^64).toNat = ofLe bytes := by
    have hmod := Int.bmod_emod (x := ofLe bytes) (m := 2^64)
    rw [← Int.natCast_emod, Nat.mod_eq_of_lt hlt] at hmod
    exact congrArg Int.toNat hmod
  rw [i64ToLeBytes, hback, ← h, leBytes_ofLe]

theorem i64ToLeBytes_second {buffer : Bytes} (h : ¬ buffer.length < 16) :
    i64ToLeBytes (i64FromLeBytes ((buffer.drop 8).take 8)) = (buffer.drop 8).take 8 := by
  apply i64ToLeBytes_fromLeBytes
  rw [length_take, length_drop]
  omega

theorem parseExtents_spec (n : ℕ) (buffer : Bytes) :
    (∀ e, parseExtents n buffer = .error e → buffer.length < 16*n) ∧
      ∀ extents, parseExtents n buffer = .ok extents → 16*n ≤ buffer.length ∧
        extents.length = n ∧ extents.flatMap PointerExtent.toLeBytes = buffer.take (16*n) := by
  induction n generalizing buffer with
  | zero => exact ⟨nofun, fun extents h => by cases h; exact ⟨Nat.zero_le _, rfl, rfl⟩⟩
  | succ n ih =>
    rw [parseExtents]
    by_cases hshort : buffer.length < 16
    · rw [if_pos hshort]
      exact ⟨fun _ _ => by omega, nofun⟩
    rw [if_neg hshort]
    obtain ⟨herror, hok⟩ := ih (buffer.drop 16)
    rw [length_drop] at herror hok
    cases hrest : parseExtents n (buffer.drop 16) with
    | error e =>
      have hless := herror e hrest
      exact ⟨fun _ _ => by omega, nofun⟩
    | ok extents =>
      obtain ⟨hlength, hcount, hbytes⟩ := hok extents hrest
      refine ⟨nofun, fun _ h => ?_⟩
      cases h
      refine ⟨by omega, congrArg (·+1) hcount, ?_⟩
      have hnext : i64ToLeBytes (i64FromLeBytes (buffer.take 8)) = buffer.take 8 :=
        i64ToLeBytes_fromLeBytes (by rw [length_take]; omega)
      rw [flatMap_cons, PointerExtent.toLeBytes, hnext, i64ToLeBytes_second hshort, hbytes, ← take_add,
        ← take_add]
      congr 1
      omega

/-- The buffer is decoded exactly if it has all the extents that it counts, and encoding the result
again gives its bytes. -/
theorem retrieval_pointers_exact (buffer : Bytes) :
    ((∃ pointers, bufferToRetrievalPointers buffer = .ok pointers) ↔
        16+16*ofLe (buffer.take 4) ≤ buffer.length) ∧
      ∀ pointers, bufferToRetrievalPointers buffer = .ok pointers →
        pointers.extents.length = ofLe (buffer.take 4) ∧
        leBytes 4 pointers.extentCount = buffer.take 4 ∧
        i64ToLeBytes pointers.startingVcn = (buffer.drop 8).take 8 ∧
        pointers.extents.flatMap PointerExtent.toLeBytes =
          (buffer.drop 16).take (16*ofLe (buffer.take 4)) := by
  rw [bufferToRetrievalPointers]
  by_cases hshort : buffer.length < 16
  · rw [if_pos hshort]
    exact ⟨iff_of_false nofun (by omega), nofun⟩
  rw [if_neg hshort]
  dsimp only
  obtain ⟨herror, hok⟩ := parseExtents_spec (ofLe (buffer.take 4)) (buffer.drop 16)
  rw [length_drop] at herror hok
  cases hextents : parseExtents (ofLe (buffer.take 4)) (buffer.drop 16) with
  | error e =>
    have hless := herror e hextents
    exact ⟨iff_of_false nofun (by omega), nofun⟩
  | ok extents =>
    obtain ⟨hlength, hcount, hbytes⟩ := hok extents hextents
    refine ⟨iff_of_true ⟨_, rfl⟩ (by omega), fun pointers h => ?_⟩
    have hpointers : ⟨_, i64FromLeBytes ((buffer.drop 8).take 8), extents⟩ = pointers := Except.ok.inj h
    have hfour : (buffer.take 4).length = 4 := by
      rw [length_take]
      omega
    have hencoded := leBytes_ofLe (buffer.take 4)
    rw [hfour] at hencoded
    rw [← hpointers]
    dsimp only
    exact ⟨hcount, hencoded, i64ToLeBytes_second hshort, hbytes⟩

inductive ReadError where
  | os (code : ℕ)
  | invalidData (message : Text)
  | arithmeticFault
  deriving DecidableEq, Repr

def errorInsufficientBuffer : ℕ := 122

/-- The opened volume: what `SetFilePointerEx` and `ReadFile` answer in each state of it. -/
structure Volume (σ : Type) where
  setFilePointerEx : σ → ℤ → Except ℕ Unit × σ
  readFile : σ → ℕ → Except ℕ Bytes × σ

structure RawFile where
  fileSize : ℕ
  retrievalPointers : RetrievalPointersBuffer
  bytesPerCluster : ℕ
  clustersPerRead : ℕ
  extentIndex : ℕ
  bytesRead : ℕ
  clusterIndex : ℕ
  deriving DecidableEq, Repr

namespace RawFile
variable {σ : Type}

def opened (fileSize : ℕ) (retrievalPointers : RetrievalPointersBuffer)
    (bytesPerCluster clustersPerRead : ℕ) : RawFile where
  fileSize := fileSize
  retrievalPointers := retrievalPointers
  bytesPerCluster := bytesPerCluster
  clustersPerRead := max clustersPerRead 1
  extentIndex := 0
  bytesRead := 0
  clusterIndex := 0

def previousVcn (file : RawFile) : ℤ :=
  if 0 < file.extentIndex then
    (file.retrievalPointers.extents[file.extentIndex-1]?.map (·.nextVcn)).getD 0
  else file.retrievalPointers.startingVcn

def moveDiskPosition (volume : Volume σ) (s : σ) (offset : ℤ) : Except ReadError Unit × σ :=
  match volume.setFilePointerEx s offset with
  | (.error code, s) => (.error (.os code), s)
  | (.ok _, s) => (.ok (), s)

/-- `bufferLength` is the length of the caller's buffer; the bytes returned are its front
part after the call. -/
def readFileFromDiskPointer (volume : Volume σ) (s : σ) (bufferLength bytesToRead : ℕ) :
    Except ReadError Bytes × σ :=
  if bufferLength < bytesToRead then (.error (.os errorInsufficientBuffer), s)
  else
    match volume.readFile s bytesToRead with
    | (.error code, s) => (.error (.os code), s)
    | (.ok data, s) => (.ok data, s)

def nextExtent (file : RawFile) : RawFile :=
  { file with extentIndex := file.extentIndex+1, clusterIndex := 0 }

def advance (file : RawFile) (readBytes clustersToRead clustersAvailable : ℕ) : RawFile :=
  let file := { file with bytesRead := file.bytesRead+readBytes }
  if clustersToRead = clustersAvailable then file.nextExtent
  else { file with clusterIndex := file.clusterIndex+clustersToRead }

def readClusters (volume : Volume σ) (bufferLength clustersToRead clustersAvailable : ℕ)
    (file : RawFile) (s : σ) : Except ReadError Bytes × RawFile × σ :=
  -- the number of bytes is passed as a 32-bit number
  let bytesToRead := (clustersToRead*file.bytesPerCluster)%2^32
  match readFileFromDiskPointer volume s bufferLength bytesToRead with
  | (.error e, s) => (.error e, file, s)
  | (.ok data, s) =>
    if 2^64 ≤ file.bytesRead+data.length then (.error .arithmeticFault, file, s)
    else
      -- the volume hands over whole clusters, the file may end inside the last one
      let readBytes :=
        if file.fileSize < file.bytesRead+data.length then (file.fileSize-file.bytesRead)%2^32
        else data.length
      (.ok (data.take readBytes), file.advance readBytes clustersToRead clustersAvailable, s)

def readExtent (volume : Volume σ) (bufferLength : ℕ) (lcn : ℤ) (clustersAvailable : ℕ)
    (file : RawFile) (s : σ) : Except ReadError Bytes × RawFile × σ :=
  let clusterCapacity := bufferLength/file.bytesPerCluster
  let clustersToRead := min clustersAvailable clusterCapacity
  if file.bytesPerCluster = 0 then (.error .arithmeticFault, file, s)
  else if clustersToRead = 0 then (.ok [], file, s)
  else
    let cluster := lcn+file.clusterIndex
    let diskOffset := cluster*file.bytesPerCluster
    if cluster < -2^63 ∨ 2^63 ≤ cluster ∨ diskOffset < -2^63 ∨ 2^63 ≤ diskOffset then
      (.error .arithmeticFault, file, s)
    else
      match moveDiskPosition volume s diskOffset with
      | (.error e, s) => (.error e, file, s)
      | (.ok _, s) => readClusters volume bufferLength clustersToRead clustersAvailable file s

def readLoop (volume : Volume σ) (bufferLength : ℕ) :
    List PointerExtent → RawFile → σ → Except ReadError Bytes × RawFile × σ
  | [], file, s => (.ok [], file, s)
  | extent :: rest, file, s =>
    if extent.nextVcn < file.previousVcn then
      (.error (.invalidData "Retrieval pointers are not monotonic".toList), file, s)
    else if 2^63 ≤ extent.nextVcn-file.previousVcn then (.error .arithmeticFault, file, s)
    else
      let extentClusterCount := (extent.nextVcn-file.previousVcn).toNat
      -- a used-up extent is skipped, which starts the next one at its first cluster
      if extentClusterCount ≤ file.clusterIndex then
        readLoop volume bufferLength rest file.nextExtent s
      else
        readExtent volume bufferLength extent.lcn (extentClusterCount-file.clusterIndex) file s

def read (volume : Volume σ) (bufferLength : ℕ) (state : RawFile × σ) :
    Except ReadError Bytes × RawFile × σ :=
  let (file, s) := state
  if bufferLength < file.bytesPerCluster then
    (.error (.os errorInsufficientBuffer), file, s)
  else if file.fileSize ≤ file.bytesRead then (.ok [], file, s)
  else
    readLoop volume bufferLength (file.retrievalPointers.extents.drop file.extentIndex) file s

end RawFile

end WindowsErg.File
