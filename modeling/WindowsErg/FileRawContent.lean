import WindowsErg.FileRaw

/-! What the raw reader reads: the clusters of the extents in VCN order, cut to the size of
the file. -/
namespace WindowsErg.File
open List TextScan ByteCodec ChunkedRead

def clusterRun : ℤ → List PointerExtent → List ℕ
  | _, [] => []
  | previousVcn, extent :: rest =>
    List.range' extent.lcn.toNat (extent.nextVcn-previousVcn).toNat ++
      clusterRun extent.nextVcn rest

def clusterBytes (content : ℕ → UInt8) (bytesPerCluster cluster : ℕ) : Bytes :=
  slice content (cluster*bytesPerCluster) bytesPerCluster

def clustersBytes (content : ℕ → UInt8) (bytesPerCluster : ℕ) (clusters : List ℕ) : Bytes :=
  clusters.flatMap (clusterBytes content bytesPerCluster)

def ExtentsOk (bytesPerCluster : ℕ) : ℤ → List PointerExtent → Prop
  | _, [] => True
  | previousVcn, extent :: rest =>
    previousVcn ≤ extent.nextVcn ∧ 0 ≤ extent.lcn ∧
      (extent.lcn+(extent.nextVcn-previousVcn))*bytesPerCluster < 2^63 ∧
      ExtentsOk bytesPerCluster extent.nextVcn rest

/-- The bytes of `count` clusters of an extent from its cluster `start` on. An unallocated extent,
with LCN -1, stands for zeros. -/
def extentBytes (content : ℕ → UInt8) (bytesPerCluster : ℕ) (lcn : ℤ) (start count : ℕ) : Bytes :=
  if lcn < 0 then List.replicate (count*bytesPerCluster) 0
  else slice content ((lcn.toNat+start)*bytesPerCluster) (count*bytesPerCluster)

def extentsBytes (content : ℕ → UInt8) (bytesPerCluster : ℕ) : ℤ → List PointerExtent → Bytes
  | _, [] => []
  | previousVcn, extent :: rest =>
    extentBytes content bytesPerCluster extent.lcn 0 (extent.nextVcn-previousVcn).toNat ++
      extentsBytes content bytesPerCluster extent.nextVcn rest

section Bytes
variable {content : ℕ → UInt8} {bytesPerCluster : ℕ} {lcn : ℤ}

@[simp] theorem length_extentBytes (start count : ℕ) :
    (extentBytes content bytesPerCluster lcn start count).length = count*bytesPerCluster := by
  unfold extentBytes
  split <;> simp

theorem extentBytes_append (content : ℕ → UInt8) (bytesPerCluster : ℕ) (lcn : ℤ) (start m n : ℕ) :
    extentBytes content bytesPerCluster lcn start m ++
      extentBytes content bytesPerCluster lcn (start+m) n =
        extentBytes content bytesPerCluster lcn start (m+n) := by
  unfold extentBytes
  split
  · rw [replicate_append_replicate, Nat.add_mul]
  · rw [← Nat.add_assoc, Nat.add_mul (lcn.toNat+start), slice_append, Nat.add_mul m n]

end Bytes

section Clusters
variable (content : ℕ → UInt8) {bytesPerCluster : ℕ}

theorem clustersBytes_drop (clusters : List ℕ) (n : ℕ) :
    clustersBytes content bytesPerCluster (clusters.drop n) =
      (clustersBytes content bytesPerCluster clusters).drop (n*bytesPerCluster) := by
  induction n generalizing clusters with
  | zero => rw [Nat.zero_mul, drop_zero, drop_zero]
  | succ n ih =>
    cases clusters with
    | nil => exact drop_nil.symm
    | cons cluster clusters =>
      have hone : (clusterBytes content bytesPerCluster cluster).length = bytesPerCluster :=
        length_slice _ _ _
      rw [drop_succ_cons, ih, Nat.succ_mul, Nat.add_comm, clustersBytes, clustersBytes,
        flatMap_cons, ← drop_drop, drop_left' hone]

theorem clustersBytes_clusterRun {extents : List PointerExtent} {vcn : ℤ}
    (hok : ExtentsOk bytesPerCluster vcn extents) :
    clustersBytes content bytesPerCluster (clusterRun vcn extents) =
      extentsBytes content bytesPerCluster vcn extents := by
  induction extents generalizing vcn with
  | nil => rfl
  | cons extent extents ih =>
    obtain ⟨-, hlcn, -, hrest⟩ := hok
    rw [clusterRun, extentsBytes, ← ih hrest, extentBytes, if_neg (not_lt.mpr hlcn), clustersBytes,
      flatMap_append]
    exact congrArg (· ++ _) (flatMap_slice_blocks content bytesPerCluster extent.lcn.toNat _)

theorem length_clusterRun (extents : List PointerExtent) (vcn : ℤ) :
    (clusterRun vcn extents).length*bytesPerCluster =
      (extentsBytes content bytesPerCluster vcn extents).length := by
  induction extents generalizing vcn with
  | nil => exact Nat.zero_mul _
  | cons extent extents ih =>
    rw [clusterRun, extentsBytes, length_append, length_append, ← ih, Nat.add_mul, length_range',
      length_extentBytes]

end Clusters

structure LaidOut (fileSize bytesPerCluster : ℕ) (pointers : RetrievalPointersBuffer) :
    Prop where
  cluster_pos : 0 < bytesPerCluster
  extents_ok : ExtentsOk bytesPerCluster pointers.startingVcn pointers.extents
  covers : fileSize ≤ (clusterRun pointers.startingVcn pointers.extents).length*bytesPerCluster
  size_lt : fileSize < 2^63

/-- The content of the file: its clusters in VCN order, truncated to its size. -/
def fileContent (content : ℕ → UInt8) (fileSize bytesPerCluster : ℕ)
    (pointers : RetrievalPointersBuffer) : Bytes :=
  (clustersBytes content bytesPerCluster
    (clusterRun pointers.startingVcn pointers.extents)).take fileSize

/-- The volume has this content: every seek below `2^63` succeeds, and a read after it fills
the length asked for. -/
def Volume.Fills {σ : Type} (volume : Volume σ) (content : ℕ → UInt8) : Prop :=
  ∀ s (offset : ℕ), offset < 2^63 →
    ∃ s', volume.setFilePointerEx s offset = (.ok (), s') ∧
      ∀ n, offset+n < 2^63 → ∃ s'', volume.readFile s' n = (.ok (slice content offset n), s'')

namespace RawFile
variable {σ : Type}

def rest (file : RawFile) : List PointerExtent :=
  file.retrievalPointers.extents.drop file.extentIndex

def pendingClusters (file : RawFile) : List ℕ :=
  (clusterRun file.previousVcn file.rest).drop file.clusterIndex

def pending (content : ℕ → UInt8) (file : RawFile) : Bytes :=
  (clustersBytes content file.bytesPerCluster file.pendingClusters).take
    (file.fileSize-file.bytesRead)

def currentCount (file : RawFile) : ℕ :=
  match file.rest with
  | [] => 0
  | extent :: _ => (extent.nextVcn-file.previousVcn).toNat

/-- The invariant of the reader: the extents ahead are in order and still hold the rest of
the file, and the cursor is inside the current extent. -/
structure Readable (file : RawFile) : Prop where
  cluster_pos : 0 < file.bytesPerCluster
  extents_ok : ExtentsOk file.bytesPerCluster file.previousVcn file.rest
  covers : file.fileSize-file.bytesRead ≤ file.pendingClusters.length*file.bytesPerCluster
  size_lt : file.fileSize < 2^63
  cursor : file.clusterIndex ≤ file.currentCount

def unread (content : ℕ → UInt8) (file : RawFile) : Bytes :=
  (extentsBytes content file.bytesPerCluster file.previousVcn file.rest).drop
    (file.clusterIndex*file.bytesPerCluster)

def ahead (content : ℕ → UInt8) (file : RawFile) : Bytes :=
  (file.unread content).take (file.fileSize-file.bytesRead)

theorem pending_eq (content : ℕ → UInt8) {file : RawFile} (hfile : file.Readable) :
    file.pending content = file.ahead content := by
  rw [pending, ahead, unread, pendingClusters, clustersBytes_drop,
    clustersBytes_clusterRun content hfile.extents_ok]

theorem length_pendingClusters (content : ℕ → UInt8) (file : RawFile) :
    file.pendingClusters.length*file.bytesPerCluster = (file.unread content).length := by
  rw [pendingClusters, unread, length_drop, length_drop, Nat.sub_mul, length_clusterRun content]

theorem advance_fields (file : RawFile) (readBytes clusters available : ℕ) :
    (file.advance readBytes clusters available).bytesRead = file.bytesRead+readBytes ∧
      (file.advance readBytes clusters available).fileSize = file.fileSize ∧
      (file.advance readBytes clusters available).bytesPerCluster = file.bytesPerCluster := by
  unfold advance
  split <;> exact ⟨rfl, rfl, rfl⟩

section Place
variable {content : ℕ → UInt8} {file : RawFile} {extent : PointerExtent}
  {rest : List PointerExtent} (hrest : file.rest = extent :: rest)
include hrest

theorem previousVcn_nextExtent : file.nextExtent.previousVcn = extent.nextVcn := by
  have hget : file.retrievalPointers.extents[file.extentIndex]? = some extent := by
    have h0 := congrArg (fun l => l[0]?) hrest
    simpa [RawFile.rest] using h0
  simp [previousVcn, nextExtent, hget]

theorem rest_nextExtent : file.nextExtent.rest = rest := by
  calc
    file.retrievalPointers.extents.drop (file.extentIndex+1)
      = file.rest.drop 1 := by rw [RawFile.rest, drop_drop]
    _ = rest := by rw [hrest, drop_succ_cons, drop_zero]

theorem currentCount_eq :
    file.currentCount = (extent.nextVcn-file.previousVcn).toNat := by
  simp only [currentCount, hrest]

theorem unread_nextExtent :
    file.nextExtent.unread content =
      extentsBytes content file.bytesPerCluster extent.nextVcn rest := by
  rw [unread, previousVcn_nextExtent hrest, rest_nextExtent hrest]
  have hzero : file.nextExtent.clusterIndex*file.nextExtent.bytesPerCluster = 0 := Nat.zero_mul _
  rw [hzero, drop_zero]
  rfl

variable (hcursor : file.clusterIndex ≤ (extent.nextVcn-file.previousVcn).toNat)
include hcursor

theorem unread_cons :
    file.unread content =
      extentBytes content file.bytesPerCluster extent.lcn file.clusterIndex
        ((extent.nextVcn-file.previousVcn).toNat-file.clusterIndex) ++
      extentsBytes content file.bytesPerCluster extent.nextVcn rest := by
  have hsplit := extentBytes_append content file.bytesPerCluster extent.lcn 0 file.clusterIndex
    ((extent.nextVcn-file.previousVcn).toNat-file.clusterIndex)
  rw [Nat.zero_add, Nat.add_sub_cancel' hcursor] at hsplit
  rw [unread, hrest, extentsBytes, ← hsplit, append_assoc, drop_left']
  exact length_extentBytes _ _

theorem unread_skip (hused : (extent.nextVcn-file.previousVcn).toNat ≤ file.clusterIndex) :
    file.nextExtent.unread content = file.unread content := by
  have hempty : extentBytes content file.bytesPerCluster extent.lcn file.clusterIndex 0 = [] := by
    apply eq_nil_of_length_eq_zero
    rw [length_extentBytes, Nat.zero_mul]
  rw [unread_nextExtent hrest, unread_cons hrest hcursor, Nat.sub_eq_zero_of_le hused, hempty,
    nil_append]

variable {clusters : ℕ}
  (hclusters : clusters ≤ (extent.nextVcn-file.previousVcn).toNat-file.clusterIndex)
include hclusters

theorem unread_advance (content : ℕ → UInt8) (readBytes : ℕ) :
    file.unread content =
      extentBytes content file.bytesPerCluster extent.lcn file.clusterIndex clusters ++
      (file.advance readBytes clusters
        ((extent.nextVcn-file.previousVcn).toNat-file.clusterIndex)).unread content := by
  rw [unread_cons hrest hcursor]
  unfold advance
  by_cases hall : clusters = (extent.nextVcn-file.previousVcn).toNat-file.clusterIndex
  · -- the extent is used up, the cursor moves to the next one
    let moved : RawFile := { file with bytesRead := file.bytesRead+readBytes }
    have hmoved : moved.nextExtent.unread content =
        extentsBytes content file.bytesPerCluster extent.nextVcn rest := unread_nextExtent hrest
    rw [if_pos hall, ← hall]
    exact congrArg _ hmoved.symm
  · let moved : RawFile := { file with bytesRead := file.bytesRead+readBytes,
                                       clusterIndex := file.clusterIndex+clusters }
    have hinside : moved.clusterIndex ≤ (extent.nextVcn-file.previousVcn).toNat := by
      change file.clusterIndex+clusters ≤ _
      omega
    have hmoved : moved.unread content =
        extentBytes content file.bytesPerCluster extent.lcn (file.clusterIndex+clusters)
          ((extent.nextVcn-file.previousVcn).toNat-(file.clusterIndex+clusters)) ++
        extentsBytes content file.bytesPerCluster extent.nextVcn rest := unread_cons hrest hinside
    have hsplit := extentBytes_append content file.bytesPerCluster extent.lcn file.clusterIndex
      clusters ((extent.nextVcn-file.previousVcn).toNat-(file.clusterIndex+clusters))
    have hcount : clusters+((extent.nextVcn-file.previousVcn).toNat-(file.clusterIndex+clusters)) =
        (extent.nextVcn-file.previousVcn).toNat-file.clusterIndex := by omega
    rw [hcount] at hsplit
    rw [if_neg hall, ← hsplit, append_assoc]
    exact congrArg _ hmoved.symm

theorem cursor_advance (readBytes : ℕ) :
    (file.advance readBytes clusters
      ((extent.nextVcn-file.previousVcn).toNat-file.clusterIndex)).clusterIndex ≤
    (file.advance readBytes clusters
      ((extent.nextVcn-file.previousVcn).toNat-file.clusterIndex)).currentCount := by
  unfold advance
  by_cases hall : clusters = (extent.nextVcn-file.previousVcn).toNat-file.clusterIndex
  · rw [if_pos hall]
    exact Nat.zero_le _
  · rw [if_neg hall]
    let next : RawFile := { file with bytesRead := file.bytesRead+readBytes,
                                      clusterIndex := file.clusterIndex+clusters }
    have hnext : next.rest = extent :: rest := hrest
    have hcount : next.currentCount = (extent.nextVcn-file.previousVcn).toNat :=
      currentCount_eq hnext
    change file.clusterIndex+clusters ≤ next.currentCount
    omega

theorem ahead_advance (content : ℕ → UInt8) {readBytes : ℕ}
    (hread : readBytes = min (clusters*file.bytesPerCluster) (file.fileSize-file.bytesRead)) :
    file.ahead content =
      (extentBytes content file.bytesPerCluster extent.lcn file.clusterIndex clusters).take readBytes ++
      (file.advance readBytes clusters
        ((extent.nextVcn-file.previousVcn).toNat-file.clusterIndex)).ahead content := by
  have hunread := unread_advance hrest hcursor hclusters content readBytes
  set data := extentBytes content file.bytesPerCluster extent.lcn file.clusterIndex clusters
  set next := file.advance readBytes clusters
    ((extent.nextVcn-file.previousVcn).toNat-file.clusterIndex)
  have hdata : data.length = clusters*file.bytesPerCluster := length_extentBytes _ _
  obtain ⟨hbytes, hsize, -⟩ : next.bytesRead = file.bytesRead+readBytes ∧
      next.fileSize = file.fileSize ∧ next.bytesPerCluster = file.bytesPerCluster :=
    advance_fields _ _ _ _
  have hout : data.take (file.fileSize-file.bytesRead) = data.take readBytes := by
    rw [take_eq_take_iff]
    omega
  have hleft : file.fileSize-file.bytesRead-data.length = next.fileSize-next.bytesRead := by omega
  calc
    file.ahead content
      = (data ++ next.unread content).take (file.fileSize-file.bytesRead) := by rw [ahead, hunread]
    _ = data.take (file.fileSize-file.bytesRead) ++
          (next.unread content).take (file.fileSize-file.bytesRead-data.length) :=
        take_append
    _ = data.take readBytes ++ next.ahead content := by rw [hout, hleft, ahead]

end Place

section Readable
variable {file : RawFile} {extent : PointerExtent} {rest : List PointerExtent}
  (hfile : file.Readable) (hrest : file.rest = extent :: rest)
include hfile hrest

theorem Readable.cursor_le : file.clusterIndex ≤ (extent.nextVcn-file.previousVcn).toNat :=
  currentCount_eq hrest ▸ hfile.cursor

theorem Readable.skip (hused : (extent.nextVcn-file.previousVcn).toNat ≤ file.clusterIndex) :
    file.nextExtent.Readable := by
  have hok := hfile.extents_ok
  rw [hrest] at hok
  have hcovers := hfile.covers
  rw [file.length_pendingClusters fun _ => 0,
    ← unread_skip hrest (hfile.cursor_le hrest) hused] at hcovers
  refine ⟨hfile.cluster_pos, ?_, ?_, hfile.size_lt, Nat.zero_le _⟩
  · rw [previousVcn_nextExtent hrest, rest_nextExtent hrest]
    exact hok.2.2.2
  · rw [file.nextExtent.length_pendingClusters fun _ => 0]
    exact hcovers

theorem Readable.advance {clusters readBytes : ℕ}
    (hclusters : clusters ≤ (extent.nextVcn-file.previousVcn).toNat-file.clusterIndex)
    (hread : readBytes = min (clusters*file.bytesPerCluster) (file.fileSize-file.bytesRead)) :
    (file.advance readBytes clusters
      ((extent.nextVcn-file.previousVcn).toNat-file.clusterIndex)).Readable := by
  have hcursor := hfile.cursor_le hrest
  obtain ⟨hbytes, hsize, hbpc⟩ := file.advance_fields readBytes clusters
    ((extent.nextVcn-file.previousVcn).toNat-file.clusterIndex)
  refine ⟨hbpc ▸ hfile.cluster_pos, ?_, ?_, hsize ▸ hfile.size_lt,
    cursor_advance hrest hcursor hclusters readBytes⟩
  · have hok := hfile.extents_ok
    unfold RawFile.advance
    by_cases hall : clusters = (extent.nextVcn-file.previousVcn).toNat-file.clusterIndex
    · let moved : RawFile := { file with bytesRead := file.bytesRead+readBytes }
      have hmoved : moved.rest = extent :: rest := hrest
      rw [if_pos hall, previousVcn_nextExtent hmoved, rest_nextExtent hmoved]
      rw [hrest] at hok
      exact hok.2.2.2
    · rw [if_neg hall]
      exact hok
  · -- the bytes that are left are behind those of the clusters
    have hcovers := hfile.covers
    rw [file.length_pendingClusters fun _ => 0,
      unread_advance hrest hcursor hclusters _ readBytes, length_append, length_extentBytes] at hcovers
    rw [length_pendingClusters fun _ => 0, hsize, hbytes]
    omega

end Readable

variable (volume : Volume σ)

theorem readClusters_eq (bufferLength clustersToRead clustersAvailable : ℕ) (file : RawFile)
    (s s' : σ) (data : Bytes) (hfits : clustersToRead*file.bytesPerCluster ≤ bufferLength)
    (hbuffer : bufferLength < 2^32) (hsize : file.fileSize < 2^63)
    (hmore : file.bytesRead < file.fileSize)
    (hlength : data.length = clustersToRead*file.bytesPerCluster)
    (hdata : volume.readFile s (clustersToRead*file.bytesPerCluster) = (.ok data, s')) :
    readClusters volume bufferLength clustersToRead clustersAvailable file s =
      (.ok (data.take (min (clustersToRead*file.bytesPerCluster)
          (file.fileSize-file.bytesRead))),
        file.advance (min (clustersToRead*file.bytesPerCluster) (file.fileSize-file.bytesRead))
          clustersToRead clustersAvailable, s') := by
  have hmod : clustersToRead*file.bytesPerCluster%2^32 = clustersToRead*file.bytesPerCluster :=
    Nat.mod_eq_of_lt (by omega)
  have hread : (if file.fileSize < file.bytesRead+data.length
        then (file.fileSize-file.bytesRead)%2^32 else data.length) =
      min (clustersToRead*file.bytesPerCluster) (file.fileSize-file.bytesRead) := by
    by_cases hover : file.fileSize < file.bytesRead+data.length
    · rw [if_pos hover, Nat.mod_eq_of_lt (by omega)]
      omega
    · rw [if_neg hover]
      omega
  have hcall : readFileFromDiskPointer volume s bufferLength
      (clustersToRead*file.bytesPerCluster) = (.ok data, s') := by
    simp only [readFileFromDiskPointer, if_neg (Nat.not_lt.mpr hfits), hdata]
  simp only [readClusters, hmod, hcall, hread]
  rw [if_neg (by omega)]

theorem readExtent_eq (bufferLength available start : ℕ) (lcn : ℤ) (file : RawFile) (s s' : σ)
    (hstart : lcn+file.clusterIndex = start) (hpos : 0 < file.bytesPerCluster)
    (hone : 0 < min available (bufferLength/file.bytesPerCluster))
    (hoffset : start*file.bytesPerCluster < 2^63)
    (hseek : volume.setFilePointerEx s (start*file.bytesPerCluster : ℕ) = (.ok (), s')) :
    readExtent volume bufferLength lcn available file s =
      readClusters volume bufferLength (min available (bufferLength/file.bytesPerCluster))
        available file s' := by
  have hstart63 : start < 2^63 := lt_of_le_of_lt (Nat.le_mul_of_pos_right _ hpos) hoffset
  have hmove : moveDiskPosition volume s (start*file.bytesPerCluster : ℕ) = (.ok (), s') := by
    simp only [moveDiskPosition, hseek]
  have hcast : (start : ℤ)*file.bytesPerCluster = (start*file.bytesPerCluster : ℕ) := by
    push_cast
    rfl
  simp only [readExtent, hstart, hcast]
  rw [if_neg (by omega), if_neg (by omega), if_neg (by omega), hmove]

section
variable (content : ℕ → UInt8) (hvolume : volume.Fills content)
include hvolume

theorem readExtent_delivers
    (bufferLength : ℕ) (hbuffer : bufferLength < 2^32) (file : RawFile) (s : σ)
    (extent : PointerExtent) (rest : List PointerExtent) (h : file.rest = extent :: rest)
    (hfile : file.Readable) (hcluster : file.bytesPerCluster ≤ bufferLength)
    (hmore : file.bytesRead < file.fileSize)
    (hleft : file.clusterIndex < (extent.nextVcn-file.previousVcn).toNat) :
    ∃ out next s', readExtent volume bufferLength extent.lcn
        ((extent.nextVcn-file.previousVcn).toNat-file.clusterIndex) file s =
        (.ok out, next, s') ∧
      next.Readable ∧ next.bytesPerCluster = file.bytesPerCluster ∧
      file.pending content = out ++ next.pending content ∧ out ≠ [] := by
  have hok := hfile.extents_ok
  rw [h] at hok
  obtain ⟨hvcn, hlcn, hend, -⟩ := hok
  have hpos := hfile.cluster_pos
  set available := (extent.nextVcn-file.previousVcn).toNat-file.clusterIndex with havailable
  set clusters := min available (bufferLength/file.bytesPerCluster) with hclusters
  have hcapacity : 0 < bufferLength/file.bytesPerCluster := Nat.div_pos hcluster hpos
  have hone : 0 < clusters := by omega
  -- the clusters of one read fit the buffer, and their bytes lie below `2^63`
  have hbytes : clusters*file.bytesPerCluster ≤ bufferLength := by
    calc
      clusters*file.bytesPerCluster
        ≤ bufferLength/file.bytesPerCluster*file.bytesPerCluster :=
          Nat.mul_le_mul_right _ (Nat.min_le_right _ _)
      _ ≤ bufferLength := Nat.div_mul_le_self _ _
  obtain ⟨start, hstart⟩ : ∃ start : ℕ, extent.lcn+file.clusterIndex = start :=
    ⟨(extent.lcn+file.clusterIndex).toNat, by omega⟩
  have hlast : (start+clusters)*file.bytesPerCluster < 2^63 := by
    have hle : ((start+clusters : ℕ) : ℤ) ≤ extent.lcn+(extent.nextVcn-file.previousVcn) := by
      omega
    have hmul := Int.mul_le_mul_of_nonneg_right hle (Int.natCast_nonneg file.bytesPerCluster)
    exact_mod_cast lt_of_le_of_lt hmul hend
  rw [Nat.add_mul] at hlast
  have hoffset : start*file.bytesPerCluster < 2^63 := by omega
  obtain ⟨s₁, hseek, hreads⟩ := hvolume s (start*file.bytesPerCluster) hoffset
  obtain ⟨s₂, hdata⟩ := hreads (clusters*file.bytesPerCluster) (by omega)
  let readBytes := min (clusters*file.bytesPerCluster) (file.fileSize-file.bytesRead)
  have hfinal := readClusters_eq volume bufferLength clusters available file s₁ s₂ _ hbytes
    hbuffer hfile.size_lt hmore (length_slice _ _ _) hdata
  have hrun := readExtent_eq volume bufferLength available start extent.lcn file s s₁ hstart hpos
    hone hoffset hseek
  have hpositive : 0 < clusters*file.bytesPerCluster := Nat.mul_pos hone hpos
  have hnext := hfile.advance h (Nat.min_le_left _ _) (Eq.refl readBytes)
  refine ⟨_, _, s₂, hrun.trans hfinal, hnext, (advance_fields _ _ _ _).2.2, ?_, ?_⟩
  · -- in an allocated extent the bytes of the clusters are those of the volume
    have hahead := ahead_advance h hleft.le (Nat.min_le_left _ _) content (Eq.refl readBytes)
    have hplace : extent.lcn.toNat+file.clusterIndex = start := by omega
    rw [extentBytes, if_neg (not_lt.mpr hlcn), hplace] at hahead
    rw [pending_eq content hfile, pending_eq content hnext]
    exact hahead
  · intro hnil
    have hlength := congrArg List.length hnil
    rw [length_take, length_slice, length_nil] at hlength
    omega

theorem readLoop_delivers (bufferLength : ℕ)
    (hbuffer : bufferLength < 2^32) (extents : List PointerExtent) (file : RawFile) (s : σ)
    (h : file.rest = extents) (hfile : file.Readable)
    (hcluster : file.bytesPerCluster ≤ bufferLength) (hmore : file.bytesRead < file.fileSize) :
    ∃ out next s', readLoop volume bufferLength extents file s = (.ok out, next, s') ∧
      next.Readable ∧ next.bytesPerCluster = file.bytesPerCluster ∧
      file.pending content = out ++ next.pending content ∧ out ≠ [] := by
  induction extents generalizing file with
  | nil =>
    -- the extents cover the file, so they are not used up before its end
    have hcovers := hfile.covers
    rw [pendingClusters, h, clusterRun, drop_nil, length_nil] at hcovers
    omega
  | cons extent rest ih =>
    have hok := hfile.extents_ok
    rw [h] at hok
    obtain ⟨hvcn, hlcn, hend, hrest⟩ := hok
    have hcount : extent.nextVcn-file.previousVcn < 2^63 := by
      have hpos : (1 : ℤ) ≤ file.bytesPerCluster := by exact_mod_cast hfile.cluster_pos
      nlinarith
    rw [readLoop, if_neg (not_lt.mpr hvcn), if_neg (not_le.mpr hcount)]
    by_cases hused : (extent.nextVcn-file.previousVcn).toNat ≤ file.clusterIndex
    · rw [if_pos hused]
      have hnextExtent := hfile.skip h hused
      obtain ⟨out, next, s', hrun, hnext, hbpc, hpending, hne⟩ :=
        ih file.nextExtent (rest_nextExtent h) hnextExtent hcluster hmore
      refine ⟨out, next, s', hrun, hnext, hbpc, ?_, hne⟩
      rw [← hpending, pending_eq content hfile, pending_eq content hnextExtent, ahead, ahead,
        unread_skip h (hfile.cursor_le h) hused]
      rfl
    · rw [if_neg hused]
      exact readExtent_delivers volume content hvolume bufferLength hbuffer file s extent rest h
        hfile hcluster hmore (not_le.mp hused)

theorem read_delivers (bytesPerCluster : ℕ) :
    Delivers (read volume) (fun state => state.1.Readable ∧
        state.1.bytesPerCluster = bytesPerCluster)
      (fun bufferLength => bytesPerCluster ≤ bufferLength ∧ bufferLength < 2^32)
      (fun state => state.1.pending content) := by
  rintro bufferLength ⟨file, s⟩ ⟨hcluster, hbuffer⟩ ⟨hfile, rfl⟩
  simp only [read]
  rw [if_neg (Nat.not_lt.mpr hcluster)]
  by_cases hmore : file.bytesRead < file.fileSize
  · rw [if_neg (Nat.not_le.mpr hmore)]
    obtain ⟨out, next, s', hrun, hnext, hbpc, hpending, hne⟩ :=
      readLoop_delivers volume content hvolume bufferLength hbuffer _ file s rfl hfile hcluster
        hmore
    rw [show readLoop volume bufferLength
      (file.retrievalPointers.extents.drop file.extentIndex) file s = (.ok out, next, s') from hrun]
    exact ⟨out, rfl, ⟨hnext, hbpc⟩, hpending, fun hnil => absurd hnil hne⟩
  · rw [if_pos (Nat.not_lt.mp hmore)]
    have hnil : file.pending content = [] := by
      rw [pending, Nat.sub_eq_zero_of_le (Nat.not_lt.mp hmore), take_zero]
    exact ⟨[], rfl, ⟨hfile, rfl⟩, rfl, fun _ => hnil⟩

end

theorem readable_opened (fileSize bytesPerCluster clustersPerRead : ℕ)
    (pointers : RetrievalPointersBuffer) (h : LaidOut fileSize bytesPerCluster pointers) :
    (opened fileSize pointers bytesPerCluster clustersPerRead).Readable :=
  ⟨h.cluster_pos, h.extents_ok, h.covers, h.size_lt, Nat.zero_le _⟩

end RawFile

/-- Reading an opened file with any buffers of at least one cluster and below 4 GiB delivers
its content in finitely many pieces, and then nothing for ever. -/
theorem raw_read_refines_content {σ : Type} (volume : Volume σ) (content : ℕ → UInt8)
    (hvolume : volume.Fills content) (fileSize bytesPerCluster clustersPerRead : ℕ)
    (pointers : RetrievalPointersBuffer) (hfile : LaidOut fileSize bytesPerCluster pointers)
    (s : σ) (buffers : ℕ → ℕ)
    (hbuffers : ∀ n, bytesPerCluster ≤ buffers n ∧ buffers n < 2^32) :
    ∃ chunks : List Bytes, chunks.length ≤ fileSize ∧
      chunks.flatten = fileContent content fileSize bytesPerCluster pointers ∧
      ∀ n, output (RawFile.read volume)
        (RawFile.opened fileSize pointers bytesPerCluster clustersPerRead, s) buffers n =
          .ok (chunks.getD n []) := by
  have hdelivers := RawFile.read_delivers volume content hvolume bytesPerCluster
  obtain ⟨chunks, hlength, hflat, houtput⟩ := hdelivers.exists_chunks
    (RawFile.opened fileSize pointers bytesPerCluster clustersPerRead, s)
    ⟨RawFile.readable_opened fileSize bytesPerCluster clustersPerRead pointers hfile, rfl⟩
    buffers hbuffers
  refine ⟨chunks, hlength.trans ?_, hflat, houtput⟩
  exact (length_take_le _ _)

def memoryVolume (content : ℕ → UInt8) : Volume ℕ where
  setFilePointerEx _ offset := (.ok (), offset.toNat)
  readFile position n := (.ok (slice content position n), position+n)

theorem memoryVolume_fills (content : ℕ → UInt8) : (memoryVolume content).Fills content := by
  intro s offset _
  exact ⟨offset, rfl, fun n _ => ⟨offset+n, rfl⟩⟩

theorem raw_read_refines_two_extents :
    ∃ chunks : List Bytes, chunks.length ≤ 5 ∧ chunks.flatten = [8, 9, 10, 11, 0] ∧
      ∀ n, output (RawFile.read (memoryVolume UInt8.ofNat))
        (RawFile.opened 5 ⟨2, 0, [⟨2, 4⟩, ⟨3, 0⟩]⟩ 2 16, 0) (fun n => 2+n%3) n =
          .ok (chunks.getD n []) := by
  have hfile : LaidOut 5 2 ⟨2, 0, [⟨2, 4⟩, ⟨3, 0⟩]⟩ := by
    refine ⟨by decide, ?_, by decide, by decide⟩
    norm_num [ExtentsOk]
  exact raw_read_refines_content (memoryVolume UInt8.ofNat) UInt8.ofNat (memoryVolume_fills _)
    5 2 16 ⟨2, 0, [⟨2, 4⟩, ⟨3, 0⟩]⟩ hfile 0 (fun n => 2+n%3) (fun n => by omega)

end WindowsErg.File
