import WindowsErg.FileRawContent

/-! Raw reads over a device that may fail or read short, and over unallocated extents. -/
namespace WindowsErg.File
open List TextScan ByteCodec ChunkedRead

def sparseContent (content : ℕ → UInt8) (fileSize bytesPerCluster : ℕ)
    (pointers : RetrievalPointersBuffer) : Bytes :=
  (extentsBytes content bytesPerCluster pointers.startingVcn pointers.extents).take fileSize

/-- A device with this content. It may fail any call and hand over fewer bytes than asked for, but
not other ones, and it has no position before its start. -/
structure Volume.Holds {σ : Type} (volume : Volume σ) (content : ℕ → UInt8) : Prop where
  negative : ∀ s offset, offset < 0 → ∃ code, (volume.setFilePointerEx s offset).1 = .error code
  data : ∀ s s' s'' (offset n : ℕ) bytes, volume.setFilePointerEx s offset = (.ok (), s') →
    volume.readFile s' n = (.ok bytes, s'') → ∃ m ≤ n, bytes = slice content offset m

namespace RawFile
variable {σ : Type}

inductive Skips : RawFile → RawFile → Prop
  | here (file : RawFile) : Skips file file
  | next {file next : RawFile} {extent : PointerExtent} {rest : List PointerExtent}
      (hrest : file.rest = extent :: rest) (hvcn : file.previousVcn ≤ extent.nextVcn)
      (hused : (extent.nextVcn-file.previousVcn).toNat ≤ file.clusterIndex)
      (hskips : Skips file.nextExtent next) : Skips file next

def taken (file : RawFile) (bytes : Bytes) : ℕ :=
  if file.fileSize < file.bytesRead+bytes.length then (file.fileSize-file.bytesRead)%2^32
  else bytes.length

structure Transfer (volume : Volume σ) (bufferLength : ℕ) (s moved s' : σ) (file : RawFile)
    (extent : PointerExtent) (rest : List PointerExtent) (clusters : ℕ) (bytes : Bytes) : Prop where
  cluster_pos : 0 < file.bytesPerCluster
  rest_eq : file.rest = extent :: rest
  vcn_le : file.previousVcn ≤ extent.nextVcn
  left : file.clusterIndex < (extent.nextVcn-file.previousVcn).toNat
  clusters_le : clusters ≤ (extent.nextVcn-file.previousVcn).toNat-file.clusterIndex
  fits : clusters*file.bytesPerCluster ≤ bufferLength
  seek : volume.setFilePointerEx s ((extent.lcn+file.clusterIndex)*file.bytesPerCluster) =
    (.ok (), moved)
  read : volume.readFile moved (clusters*file.bytesPerCluster%2^32) = (.ok bytes, s')

/-- What a read can do from where it starts: it fails, it finds nothing to read, or it delivers what
the device handed over and moves on by the clusters that it asked for. -/
inductive Reads (volume : Volume σ) (bufferLength : ℕ) (file : RawFile) (s : σ) :
    Except ReadError Bytes → RawFile → σ → Prop
  | failed (e : ReadError) (s' : σ) : Reads volume bufferLength file s (.error e) file s'
  | nothing : Reads volume bufferLength file s (.ok []) file s
  | transfer {moved s' : σ} {extent : PointerExtent} {rest : List PointerExtent} {clusters : ℕ}
      {bytes : Bytes} (h : Transfer volume bufferLength s moved s' file extent rest clusters bytes) :
      Reads volume bufferLength file s (.ok (bytes.take (file.taken bytes)))
        (file.advance (file.taken bytes) clusters
          ((extent.nextVcn-file.previousVcn).toNat-file.clusterIndex)) s'

section Cases
variable {volume : Volume σ} {bufferLength : ℕ} {file next : RawFile} {s s' : σ}
  {extent : PointerExtent} {rest : List PointerExtent} {result : Except ReadError Bytes}

theorem readClusters_reads {moved : σ} {clusters : ℕ} (hpos : 0 < file.bytesPerCluster) (hrest : file.rest = extent :: rest)
    (hvcn : file.previousVcn ≤ extent.nextVcn)
    (hleft : file.clusterIndex < (extent.nextVcn-file.previousVcn).toNat)
    (hclusters : clusters ≤ (extent.nextVcn-file.previousVcn).toNat-file.clusterIndex)
    (hfits : clusters*file.bytesPerCluster ≤ bufferLength)
    (hseek : volume.setFilePointerEx s ((extent.lcn+file.clusterIndex)*file.bytesPerCluster) =
      (.ok (), moved))
    (hrun : readClusters volume bufferLength clusters
      ((extent.nextVcn-file.previousVcn).toNat-file.clusterIndex) file moved = (result, next, s')) :
    Reads volume bufferLength file s result next s' := by
  simp only [readClusters, readFileFromDiskPointer] at hrun
  by_cases hshort : bufferLength < clusters*file.bytesPerCluster%2^32
  · -- the buffer is too small for the bytes that are asked for
    rw [if_pos hshort] at hrun
    cases hrun
    exact .failed _ _
  rw [if_neg hshort] at hrun
  cases hread : volume.readFile moved (clusters*file.bytesPerCluster%2^32) with
  | mk answer after =>
    rw [hread] at hrun
    cases answer with
    | error code =>
      cases hrun
      exact .failed _ _
    | ok bytes =>
      -- a device that hands over so much would overflow the reader's count
      by_cases hfault : 2^64 ≤ file.bytesRead+bytes.length
      · simp only [if_pos hfault] at hrun
        cases hrun
        exact .failed _ _
      · simp only [if_neg hfault] at hrun
        cases hrun
        exact .transfer ⟨hpos, hrest, hvcn, hleft, hclusters, hfits, hseek, hread⟩

theorem readExtent_reads (hrest : file.rest = extent :: rest)
    (hvcn : file.previousVcn ≤ extent.nextVcn)
    (hleft : file.clusterIndex < (extent.nextVcn-file.previousVcn).toNat)
    (hrun : readExtent volume bufferLength extent.lcn
      ((extent.nextVcn-file.previousVcn).toNat-file.clusterIndex) file s = (result, next, s')) :
    Reads volume bufferLength file s result next s' := by
  unfold readExtent at hrun
  dsimp only at hrun
  split_ifs at hrun with hzero hnone hrange
  · cases hrun
    exact .failed _ _
  · cases hrun
    exact .nothing
  · cases hrun
    exact .failed _ _
  cases hseek : volume.setFilePointerEx s
      ((extent.lcn+file.clusterIndex)*file.bytesPerCluster) with
  | mk answer moved =>
    simp only [moveDiskPosition, hseek] at hrun
    cases answer with
    | error code =>
      cases hrun
      exact .failed _ _
    | ok _ =>
      have hpos : 0 < file.bytesPerCluster := Nat.pos_of_ne_zero hzero
      have hfits : min ((extent.nextVcn-file.previousVcn).toNat-file.clusterIndex)
          (bufferLength/file.bytesPerCluster)*file.bytesPerCluster ≤ bufferLength := by
        calc
          _ ≤ bufferLength/file.bytesPerCluster*file.bytesPerCluster :=
            Nat.mul_le_mul_right _ (Nat.min_le_right _ _)
          _ ≤ bufferLength := Nat.div_mul_le_self _ _
      exact readClusters_reads hpos hrest hvcn hleft (Nat.min_le_left _ _) hfits hseek hrun

theorem readLoop_reads {extents : List PointerExtent} (hextents : file.rest = extents)
    (hrun : readLoop volume bufferLength extents file s = (result, next, s')) :
    ∃ skipped, Skips file skipped ∧ Reads volume bufferLength skipped s result next s' := by
  induction extents generalizing file with
  | nil =>
    cases hrun
    exact ⟨_, .here _, .nothing⟩
  | cons extent rest ih =>
    rw [readLoop] at hrun
    by_cases hvcn : extent.nextVcn < file.previousVcn
    · rw [if_pos hvcn] at hrun
      cases hrun
      exact ⟨_, .here _, .failed _ _⟩
    by_cases hcount : 2^63 ≤ extent.nextVcn-file.previousVcn
    · rw [if_neg hvcn, if_pos hcount] at hrun
      cases hrun
      exact ⟨_, .here _, .failed _ _⟩
    rw [if_neg hvcn, if_neg hcount] at hrun
    by_cases hused : (extent.nextVcn-file.previousVcn).toNat ≤ file.clusterIndex
    · -- the loop goes on with the next extent
      simp only [if_pos hused] at hrun
      obtain ⟨skipped, hskips, hreads⟩ := ih (rest_nextExtent hextents) hrun
      exact ⟨skipped, .next hextents (not_lt.mp hvcn) hused hskips, hreads⟩
    · simp only [if_neg hused] at hrun
      have hreads := readExtent_reads hextents (not_lt.mp hvcn) (not_le.mp hused) hrun
      exact ⟨file, .here file, hreads⟩

theorem read_reads (hrun : read volume bufferLength (file, s) = (result, next, s')) :
    ∃ skipped, Skips file skipped ∧ Reads volume bufferLength skipped s result next s' := by
  simp only [read] at hrun
  split_ifs at hrun with hbuffer hend
  · cases hrun
    exact ⟨_, .here _, .failed _ _⟩
  · cases hrun
    exact ⟨_, .here _, .nothing⟩
  · exact readLoop_reads rfl hrun

end Cases

def vcn (file : RawFile) : ℤ := file.previousVcn+file.clusterIndex

structure Placed (file : RawFile) : Prop where
  cursor : file.clusterIndex ≤ file.currentCount
  allocated : ∀ extent rest, file.rest = extent :: rest → extent.lcn < 0 → file.clusterIndex = 0

theorem placed_nextExtent (file : RawFile) : file.nextExtent.Placed :=
  ⟨Nat.zero_le _, fun _ _ _ _ => rfl⟩

section Place
variable {content : ℕ → UInt8} {file next : RawFile} {extent : PointerExtent}
  {rest : List PointerExtent}

theorem Placed.cursor_le (hplaced : file.Placed) (hrest : file.rest = extent :: rest) :
    file.clusterIndex ≤ (extent.nextVcn-file.previousVcn).toNat :=
  currentCount_eq hrest ▸ hplaced.cursor

theorem vcn_advance (hrest : file.rest = extent :: rest) (hvcn : file.previousVcn ≤ extent.nextVcn)
    (hcursor : file.clusterIndex ≤ (extent.nextVcn-file.previousVcn).toNat)
    (readBytes clusters : ℕ) :
    (file.advance readBytes clusters
      ((extent.nextVcn-file.previousVcn).toNat-file.clusterIndex)).vcn = file.vcn+clusters := by
  unfold advance
  by_cases hall : clusters = (extent.nextVcn-file.previousVcn).toNat-file.clusterIndex
  · let moved : RawFile := { file with bytesRead := file.bytesRead+readBytes }
    have hmoved : moved.nextExtent.previousVcn = extent.nextVcn := previousVcn_nextExtent hrest
    rw [if_pos hall]
    change moved.nextExtent.previousVcn+((0 : ℕ) : ℤ) = file.previousVcn+file.clusterIndex+clusters
    omega
  · rw [if_neg hall]
    change file.previousVcn+((file.clusterIndex+clusters : ℕ) : ℤ) =
      file.previousVcn+file.clusterIndex+clusters
    omega

theorem Skips.fields (hskips : Skips file next) :
    next.bytesRead = file.bytesRead ∧ next.fileSize = file.fileSize ∧
      next.bytesPerCluster = file.bytesPerCluster := by
  induction hskips with
  | here => exact ⟨rfl, rfl, rfl⟩
  | next _ _ _ _ ih => exact ih

theorem Skips.keeps (content : ℕ → UInt8) (hskips : Skips file next) (hplaced : file.Placed) :
    next.Placed ∧ next.vcn = file.vcn ∧ next.unread content = file.unread content := by
  induction hskips with
  | here file => exact ⟨hplaced, rfl, rfl⟩
  | @next file next extent rest hrest hvcn hused _ ih =>
    have hcursor := hplaced.cursor_le hrest
    have hvcn_eq : file.nextExtent.vcn = file.vcn := by
      have hprevious := previousVcn_nextExtent hrest
      change file.nextExtent.previousVcn+((0 : ℕ) : ℤ) = file.previousVcn+file.clusterIndex
      omega
    obtain ⟨hnext, hplace, hrest_unread⟩ := ih file.placed_nextExtent
    exact ⟨hnext, hplace.trans hvcn_eq, hrest_unread.trans (unread_skip hrest hcursor hused)⟩

end Place

def Full (file next : RawFile) (out : Bytes) : Prop :=
  out.length = min ((next.vcn-file.vcn).toNat*file.bytesPerCluster) (file.fileSize-file.bytesRead)

section Step
variable {volume : Volume σ} {content : ℕ → UInt8} {file next : RawFile} {s moved s' : σ}
  {extent : PointerExtent} {rest : List PointerExtent} {bufferLength clusters : ℕ} {bytes : Bytes}

theorem Transfer.bytes_eq (h : Transfer volume bufferLength s moved s' file extent rest clusters bytes)
    (hvolume : volume.Holds content) (hplaced : file.Placed) :
    0 ≤ extent.lcn ∧ bytes.length < 2^32 ∧
      bytes = (extentBytes content file.bytesPerCluster extent.lcn file.clusterIndex clusters).take
        bytes.length := by
  have hlcn : 0 ≤ extent.lcn := by
    by_contra hnegative
    -- the reader is at the start of an unallocated extent, before the start of the volume
    have hstart := hplaced.allocated extent rest h.rest_eq (not_le.mp hnegative)
    have hoffset : (extent.lcn+file.clusterIndex)*file.bytesPerCluster < 0 := by
      apply Int.mul_neg_of_neg_of_pos
      · omega
      · exact_mod_cast h.cluster_pos
    obtain ⟨code, hcode⟩ := hvolume.negative s _ hoffset
    rw [h.seek] at hcode
    cases hcode
  have hoffset : (extent.lcn+file.clusterIndex)*file.bytesPerCluster =
      (((extent.lcn.toNat+file.clusterIndex)*file.bytesPerCluster : ℕ) : ℤ) := by
    push_cast
    rw [Int.toNat_of_nonneg hlcn]
  have hseek := h.seek
  rw [hoffset] at hseek
  obtain ⟨m, hm, hbytes⟩ := hvolume.data s moved s' _ _ bytes hseek h.read
  have hlength : bytes.length = m := by rw [hbytes, length_slice]
  have hle : m ≤ clusters*file.bytesPerCluster := hm.trans (Nat.mod_le _ _)
  have hlt : m < 2^32 := lt_of_le_of_lt hm (Nat.mod_lt _ (by decide))
  refine ⟨hlcn, hlength ▸ hlt, ?_⟩
  rw [extentBytes, if_neg (not_lt.mpr hlcn), hlength, take_slice _ _ hle]
  exact hbytes

theorem Transfer.placed (h : Transfer volume bufferLength s moved s' file extent rest clusters bytes)
    (hlcn : 0 ≤ extent.lcn) (readBytes : ℕ) :
    (file.advance readBytes clusters
      ((extent.nextVcn-file.previousVcn).toNat-file.clusterIndex)).Placed := by
  refine ⟨cursor_advance h.rest_eq h.left.le h.clusters_le readBytes, ?_⟩
  intro other others hother hnegative
  unfold advance at hother ⊢
  split at hother
  · rename_i hall
    rw [if_pos hall]
    rfl
  · have hsame : extent :: rest = other :: others := h.rest_eq.symm.trans hother
    cases hsame
    exact absurd hlcn (not_le.mpr hnegative)

theorem taken_eq (file : RawFile) {bytes : Bytes} (hbytes : bytes.length < 2^32) :
    file.taken bytes = min bytes.length (file.fileSize-file.bytesRead) := by
  unfold taken
  split
  · rw [Nat.mod_eq_of_lt (by omega)]
    omega
  · omega

theorem Transfer.ahead_eq (h : Transfer volume bufferLength s moved s' file extent rest clusters bytes)
    (hvolume : volume.Holds content) (hplaced : file.Placed)
    (hfull : min bytes.length (file.fileSize-file.bytesRead) =
      min (clusters*file.bytesPerCluster) (file.fileSize-file.bytesRead)) :
    file.ahead content = bytes.take (file.taken bytes) ++
      (file.advance (file.taken bytes) clusters
        ((extent.nextVcn-file.previousVcn).toNat-file.clusterIndex)).ahead content := by
  obtain ⟨-, hlt, hbytes⟩ := h.bytes_eq hvolume hplaced
  -- what is taken is what the clusters have, up to the end of the file
  have htaken := file.taken_eq hlt
  rw [ahead_advance h.rest_eq h.left.le h.clusters_le content (htaken.trans hfull)]
  set data := extentBytes content file.bytesPerCluster extent.lcn file.clusterIndex clusters
  have hout : data.take (file.taken bytes) = bytes.take (file.taken bytes) := by
    calc
      data.take (file.taken bytes)
        = data.take (min (file.taken bytes) bytes.length) := by
          rw [take_eq_take_iff]
          omega
      _ = (data.take bytes.length).take (file.taken bytes) := take_take.symm
      _ = bytes.take (file.taken bytes) := by rw [← hbytes]
  rw [hout]

theorem read_takes {result : Except ReadError Bytes}
    (hvolume : volume.Holds content) (hplaced : file.Placed)
    (hrun : read volume bufferLength (file, s) = (result, next, s'))
    (hfull : ∀ out, result = .ok out → Full file next out) :
    next.Placed ∧ file.ahead content = result.toOption.getD [] ++ next.ahead content := by
  obtain ⟨skipped, hskips, hreads⟩ := read_reads hrun
  obtain ⟨hbytes, hsize, hcluster⟩ := hskips.fields
  obtain ⟨hskipped, hvcn, hunread⟩ := hskips.keeps content hplaced
  have hahead : file.ahead content = skipped.ahead content := by
    rw [ahead, ahead, hunread, hbytes, hsize]
  rw [hahead]
  cases hreads with
  | failed => exact ⟨hskipped, rfl⟩
  | nothing => exact ⟨hskipped, rfl⟩
  | @transfer moved s' extent rest clusters bytes h =>
    obtain ⟨hlcn, hlt, -⟩ := h.bytes_eq hvolume hskipped
    have hmoved := vcn_advance h.rest_eq h.vcn_le h.left.le (skipped.taken bytes) clusters
    have hlength := hfull _ rfl
    rw [Full, hmoved, hvcn, length_take, skipped.taken_eq hlt, add_sub_cancel_left, Int.toNat_natCast,
      ← hcluster, ← hsize, ← hbytes] at hlength
    refine ⟨h.placed hlcn _, h.ahead_eq hvolume hskipped ?_⟩
    omega

theorem full_of_complete {out : Bytes}
    (hcomplete : ∀ s n bytes s', n < 2^32 → volume.readFile s n = (.ok bytes, s') →
      bytes.length = n)
    (hbuffer : bufferLength < 2^32) (hplaced : file.Placed)
    (hrun : read volume bufferLength (file, s) = (.ok out, next, s')) : Full file next out := by
  obtain ⟨skipped, hskips, hreads⟩ := read_reads hrun
  obtain ⟨hbytes, hsize, hcluster⟩ := hskips.fields
  obtain ⟨-, hvcn, -⟩ := hskips.keeps (fun _ => 0) hplaced
  rw [Full, ← hvcn, ← hbytes, ← hsize, ← hcluster]
  cases hreads with
  | nothing => simp
  | @transfer moved s' extent rest clusters bytes h =>
    have hmoved := vcn_advance h.rest_eq h.vcn_le h.left.le (skipped.taken bytes) clusters
    have hlength := hcomplete _ _ _ _ (Nat.mod_lt _ (by decide)) h.read
    rw [Nat.mod_eq_of_lt (lt_of_le_of_lt h.fits hbuffer)] at hlength
    have hlt : bytes.length < 2^32 := hlength ▸ lt_of_le_of_lt h.fits hbuffer
    rw [hmoved, length_take, skipped.taken_eq hlt, add_sub_cancel_left, Int.toNat_natCast, hlength]
    omega

theorem full_run (hvolume : volume.Holds content)
    (hcomplete : ∀ s n bytes s', n < 2^32 → volume.readFile s n = (.ok bytes, s') →
      bytes.length = n)
    (hplaced : file.Placed) (s : σ) (buffers : ℕ → ℕ) (hbuffers : ∀ n, buffers n < 2^32) (n : ℕ) :
    (state (read volume) (file, s) buffers n).1.Placed ∧
      ∀ out, output (read volume) (file, s) buffers n = .ok out →
        Full (state (read volume) (file, s) buffers n).1
          (state (read volume) (file, s) buffers (n+1)).1 out := by
  have hfull : ∀ k, (state (read volume) (file, s) buffers k).1.Placed →
      ∀ out, output (read volume) (file, s) buffers k = .ok out →
        Full (state (read volume) (file, s) buffers k).1
          (state (read volume) (file, s) buffers (k+1)).1 out := by
    intro k hk out hout
    exact full_of_complete hcomplete (hbuffers k) hk (Prod.ext hout rfl)
  -- full reads keep the reader placed, and a placed reader reads in full
  induction n with
  | zero => exact ⟨hplaced, hfull 0 hplaced⟩
  | succ n ih =>
    have hnext := (read_takes hvolume ih.1 rfl ih.2).1
    exact ⟨hnext, hfull (n+1) hnext⟩

end Step

theorem placed_opened (fileSize bytesPerCluster clustersPerRead : ℕ)
    (pointers : RetrievalPointersBuffer) :
    (opened fileSize pointers bytesPerCluster clustersPerRead).Placed :=
  ⟨Nat.zero_le _, fun _ _ _ _ => rfl⟩

end RawFile

def limitedVolume (content : ℕ → UInt8) (limit : ℕ → Option ℕ) : Volume (ℕ × ℕ) where
  setFilePointerEx s offset :=
    if offset < 0 then (.error 131, s) else (.ok (), (s.1, offset.toNat))
  readFile s n :=
    match limit s.1 with
    | none => (.error 23, (s.1+1, s.2))
    | some most => (.ok (slice content s.2 (min n most)), (s.1+1, s.2+min n most))

theorem limitedVolume_holds (content : ℕ → UInt8) (limit : ℕ → Option ℕ) :
    (limitedVolume content limit).Holds content := by
  refine ⟨?_, ?_⟩
  · intro s offset hnegative
    exact ⟨131, by simp [limitedVolume, hnegative]⟩
  · intro s s' s'' offset n bytes hseek hread
    have hposition : s'.2 = offset := by
      simp only [limitedVolume] at hseek
      rw [if_neg (by omega)] at hseek
      cases hseek
      rfl
    simp only [limitedVolume] at hread
    cases hlimit : limit s'.1 with
    | none =>
      rw [hlimit] at hread
      cases hread
    | some most =>
      rw [hlimit, hposition] at hread
      cases hread
      exact ⟨min n most, Nat.min_le_left _ _, rfl⟩

end WindowsErg.File
