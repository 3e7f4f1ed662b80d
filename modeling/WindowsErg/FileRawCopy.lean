import WindowsErg.FileRawOpen
import WindowsErg.FileRawRuns

/-! Copying a raw file, `RawFile::copy_to` of `src/file/raw.rs`. -/
namespace WindowsErg.File
open List TextScan ByteCodec ChunkedRead

/-- The destination behind its `BufWriter`: what creating it, `write_all` and `flush` answer, the
bytes that were accepted and those that are in the file. -/
structure Destination (τ : Type) where
  create : τ → Except (Option ℕ) Unit × τ
  writeAll : τ → Bytes → Except (Option ℕ) Unit × τ
  flush : τ → Except (Option ℕ) Unit × τ
  accepted : τ → Bytes
  written : τ → Bytes
  create_ok : ∀ t t', create t = (.ok (), t') → accepted t' = []
  writeAll_ok : ∀ t data t', writeAll t data = (.ok (), t') → accepted t' = accepted t ++ data
  flush_ok : ∀ t t', flush t = (.ok (), t') → written t' = accepted t

/-- The ways a copy can end other than well; the last one is a panic. -/
inductive CopyFailure where
  | open (failure : OpenFailure)
  | fileOperation (path : Text) (operation : Text) (code : Option ℕ)
  | arithmeticFault

def readFailure (sourcePath : Text) : ReadError → CopyFailure
  | .os code => .fileOperation sourcePath "read source file".toList (some code)
  | .invalidData _ => .fileOperation sourcePath "read source file".toList none
  | .arithmeticFault => .arithmeticFault

variable {σ τ : Type}

theorem RawFile.read_progress {volume : Volume σ} {bufferLength : ℕ} {file next : RawFile} {s s' : σ}
    {out : Bytes} (hrun : read volume bufferLength (file, s) = (.ok out, next, s')) (hout : out ≠ []) :
    next.fileSize-next.bytesRead < file.fileSize-file.bytesRead := by
  obtain ⟨skipped, hskips, hreads⟩ := read_reads hrun
  obtain ⟨hbytes, hsize, -⟩ := hskips.fields
  rw [← hbytes, ← hsize]
  cases hreads with
  | nothing => exact absurd rfl hout
  | @transfer moved s' extent rest clusters bytes h =>
    obtain ⟨hread, hsize', -⟩ := skipped.advance_fields (skipped.taken bytes) clusters
      ((extent.nextVcn-skipped.previousVcn).toNat-skipped.clusterIndex)
    rw [hread, hsize']
    have hlength : 0 < min (skipped.taken bytes) bytes.length := by
      rw [← length_take]
      exact length_pos_iff.mpr hout
    have htaken : skipped.taken bytes ≤ skipped.fileSize-skipped.bytesRead := by
      unfold RawFile.taken
      split
      · exact Nat.mod_le _ _
      · omega
    omega

def copyLoop (volume : Volume σ) (destination : Destination τ) (sourcePath destinationPath : Text)
    (bufferLength : ℕ) (file : RawFile) (s : σ) (t : τ) : Except CopyFailure Unit × σ × τ :=
  match _hread : RawFile.read volume bufferLength (file, s) with
  | (.error e, _, s) => (.error (readFailure sourcePath e), s, t)
  | (.ok out, next, s) =>
    if _hout : out = [] then (.ok (), s, t)
    else
      match destination.writeAll t out with
      | (.error code, t) =>
        (.error (.fileOperation destinationPath "write destination file".toList code), s, t)
      | (.ok _, t) => copyLoop volume destination sourcePath destinationPath bufferLength next s t
termination_by file.fileSize-file.bytesRead
decreasing_by exact RawFile.read_progress _hread _hout

/-- `copy_to`, with the reader that the source was opened again with. -/
def copyTo (volume : Volume σ) (destination : Destination τ) (sourcePath destinationPath : Text)
    (source : Except OpenFailure RawFile) (s : σ) (t : τ) : Except CopyFailure Unit × σ × τ :=
  match source with
  | .error failure => (.error (.open failure), s, t)
  | .ok source =>
    -- a buffer of this length cannot be allocated
    if 2^63 ≤ source.bytesPerCluster*source.clustersPerRead then (.error .arithmeticFault, s, t)
    else
      match destination.create t with
      | (.error code, t) =>
        (.error (.fileOperation destinationPath "create destination file".toList code), s, t)
      | (.ok _, t) =>
        match copyLoop volume destination sourcePath destinationPath
          (source.bytesPerCluster*source.clustersPerRead) source s t with
        | (.error e, s, t) => (.error e, s, t)
        | (.ok _, s, t) =>
          match destination.flush t with
          | (.error code, t) =>
            (.error (.fileOperation destinationPath "flush destination file".toList code), s, t)
          | (.ok _, t) => (.ok (), s, t)

def Volume.counting (volume : Volume σ) : Volume (σ × ℕ) where
  setFilePointerEx s offset :=
    ((volume.setFilePointerEx s.1 offset).1, ((volume.setFilePointerEx s.1 offset).2, s.2))
  readFile s n :=
    ((volume.readFile s.1 n).1, ((volume.readFile s.1 n).2,
      s.2+((volume.readFile s.1 n).1.toOption.getD []).length))

def withoutCount {α : Type} (run : α × RawFile × σ × ℕ) : α × RawFile × σ :=
  (run.1, run.2.1, run.2.2.1)

section Counting
open RawFile
variable (volume : Volume σ) (bufferLength : ℕ)

theorem readClusters_counting (clusters available : ℕ) (file : RawFile) (s : σ × ℕ) :
    withoutCount (readClusters volume.counting bufferLength clusters available file s) =
      readClusters volume bufferLength clusters available file s.1 := by
  simp only [readClusters, readFileFromDiskPointer]
  by_cases hshort : bufferLength < clusters*file.bytesPerCluster%2^32
  · simp only [if_pos hshort]
    rfl
  · simp only [if_neg hshort, Volume.counting]
    cases hread : volume.readFile s.1 (clusters*file.bytesPerCluster%2^32) with
    | mk answer after =>
      cases answer with
      | error code => rfl
      | ok bytes =>
        dsimp only
        split <;> rfl

theorem readExtent_counting (lcn : ℤ) (available : ℕ) (file : RawFile) (s : σ × ℕ) :
    withoutCount (readExtent volume.counting bufferLength lcn available file s) =
      readExtent volume bufferLength lcn available file s.1 := by
  simp only [readExtent, moveDiskPosition]
  split_ifs
  · rfl
  · rfl
  · rfl
  · cases hseek : volume.setFilePointerEx s.1 ((lcn+file.clusterIndex)*file.bytesPerCluster) with
    | mk answer moved =>
      have hcounting : volume.counting.setFilePointerEx s
          ((lcn+file.clusterIndex)*file.bytesPerCluster) = (answer, (moved, s.2)) := by
        simp only [Volume.counting, hseek]
      rw [hcounting]
      cases answer with
      | error code => rfl
      | ok _ => exact readClusters_counting volume bufferLength _ _ file (moved, s.2)

theorem readLoop_counting (extents : List PointerExtent) (file : RawFile) (s : σ × ℕ) :
    withoutCount (readLoop volume.counting bufferLength extents file s) =
      readLoop volume bufferLength extents file s.1 := by
  induction extents generalizing file with
  | nil => rfl
  | cons extent rest ih =>
    simp only [readLoop]
    split_ifs
    · rfl
    · rfl
    · exact ih file.nextExtent
    · exact readExtent_counting volume bufferLength _ _ file s

theorem read_counting (file : RawFile) (s : σ × ℕ) :
    withoutCount (RawFile.read volume.counting bufferLength (file, s)) =
      RawFile.read volume bufferLength (file, s.1) := by
  simp only [RawFile.read]
  split_ifs
  · rfl
  · rfl
  · exact readLoop_counting volume bufferLength _ file s

end Counting

section Loop
variable {volume : Volume σ} {destination : Destination τ} {sourcePath destinationPath : Text}
  {bufferLength : ℕ} {file next : RawFile} {s s' : σ} {t t' : τ} {out : Bytes}

theorem copyLoop_error {e : ReadError}
    (hread : RawFile.read volume bufferLength (file, s) = (.error e, next, s')) :
    copyLoop volume destination sourcePath destinationPath bufferLength file s t =
      (.error (readFailure sourcePath e), s', t) := by
  rw [copyLoop]
  split
  · rename_i h
    cases hread.symm.trans h
    rfl
  · rename_i h
    cases hread.symm.trans h

theorem copyLoop_end (hread : RawFile.read volume bufferLength (file, s) = (.ok [], next, s')) :
    copyLoop volume destination sourcePath destinationPath bufferLength file s t =
      (.ok (), s', t) := by
  rw [copyLoop]
  split
  · rename_i h
    cases hread.symm.trans h
  · rename_i h
    cases hread.symm.trans h
    rfl

theorem copyLoop_next (hread : RawFile.read volume bufferLength (file, s) = (.ok out, next, s'))
    (hout : out ≠ []) :
    copyLoop volume destination sourcePath destinationPath bufferLength file s t =
      match destination.writeAll t out with
      | (.error code, t) =>
        (.error (.fileOperation destinationPath "write destination file".toList code), s', t)
      | (.ok _, t) => copyLoop volume destination sourcePath destinationPath bufferLength next s' t := by
  rw [copyLoop]
  split
  · rename_i h
    cases hread.symm.trans h
  · rename_i h
    cases hread.symm.trans h
    rw [dif_neg hout]

theorem copyLoop_counting (file : RawFile) (s : σ × ℕ) (t : τ) :
    let run := copyLoop volume.counting destination sourcePath destinationPath bufferLength file s t
    copyLoop volume destination sourcePath destinationPath bufferLength file s.1 t =
      (run.1, run.2.1.1, run.2.2) := by
  -- the bytes that are left drop with every read until one delivers nothing
  induction hleft : file.fileSize-file.bytesRead using Nat.strong_induction_on
    generalizing file s t with
  | _ left ih =>
    have hplain := read_counting volume bufferLength file s
    cases hread : RawFile.read volume.counting bufferLength (file, s) with
    | mk result state =>
      obtain ⟨next, s'⟩ := state
      rw [hread] at hplain
      cases result with
      | error e => rw [copyLoop_error hread, copyLoop_error hplain.symm]
      | ok out =>
        by_cases hout : out = []
        · subst hout
          rw [copyLoop_end hread, copyLoop_end hplain.symm]
        · have hprogress := RawFile.read_progress hread hout
          rw [copyLoop_next hread hout, copyLoop_next hplain.symm hout]
          cases hwrite : destination.writeAll t out with
          | mk answer t' =>
            cases answer with
            | error code => rfl
            | ok _ => exact ih _ (hleft ▸ hprogress) next s' t' rfl

theorem read_counts {s s' : σ × ℕ} (hvolume : ∀ s n bytes s', volume.readFile s n = (.ok bytes, s') →
      bytes.length ≤ n)
    (hread : RawFile.read volume.counting bufferLength (file, s) = (.ok out, next, s'))
    (hcount : file.bytesRead = min file.fileSize s.2) :
    next.fileSize = file.fileSize ∧ next.bytesRead = min next.fileSize s'.2 ∧
      next.bytesRead = file.bytesRead+out.length := by
  obtain ⟨skipped, hskips, hreads⟩ := RawFile.read_reads hread
  obtain ⟨hbytes, hsize, -⟩ := hskips.fields
  cases hreads with
  | nothing =>
    refine ⟨hsize, ?_, ?_⟩
    · omega
    · exact hbytes
  | @transfer moved s' extent rest clusters bytes h =>
    obtain ⟨hread', hsize', -⟩ := skipped.advance_fields (skipped.taken bytes) clusters
      ((extent.nextVcn-skipped.previousVcn).toNat-skipped.clusterIndex)
    have hmoved : moved.2 = s.2 := congrArg (fun run => run.2.2) h.seek.symm
    have hanswer : (volume.readFile moved.1 (clusters*skipped.bytesPerCluster%2^32)).1 = .ok bytes :=
      congrArg Prod.fst h.read
    have hafter : (volume.readFile moved.1 (clusters*skipped.bytesPerCluster%2^32)).2 = s'.1 :=
      congrArg (fun run => run.2.1) h.read
    have hplain := Prod.ext (y := (.ok bytes, s'.1)) hanswer hafter
    have hcounted : s'.2 = s.2+bytes.length := by
      have hstate := congrArg (fun run => run.2.2) h.read
      simp only [Volume.counting, hplain] at hstate
      rw [← hstate, hmoved]
      rfl
    -- a read asks for less than 4 GiB, so the cut at the end of the file is exact
    have hshort := hvolume _ _ _ _ hplain
    have hlt : bytes.length < 2^32 := lt_of_le_of_lt hshort (Nat.mod_lt _ (by decide))
    have htaken := skipped.taken_eq hlt
    rw [hread', hsize', length_take]
    refine ⟨hsize, ?_, ?_⟩
    · omega
    · omega

theorem copyLoop_accepted (hvolume : ∀ s n bytes s', volume.readFile s n = (.ok bytes, s') →
      bytes.length ≤ n)
    {file : RawFile} {s s' : σ × ℕ} {t : τ} (hcount : file.bytesRead = min file.fileSize s.2)
    (haccepted : (destination.accepted t).length = file.bytesRead)
    (hrun : copyLoop volume.counting destination sourcePath destinationPath bufferLength file s t =
      (.ok (), s', t')) :
    (destination.accepted t').length = min file.fileSize s'.2 := by
  induction hleft : file.fileSize-file.bytesRead using Nat.strong_induction_on
    generalizing file s t with
  | _ left ih =>
    cases hread : RawFile.read volume.counting bufferLength (file, s) with
    | mk result state =>
      obtain ⟨next, after⟩ := state
      cases result with
      | error e =>
        rw [copyLoop_error hread] at hrun
        cases hrun
      | ok out =>
        obtain ⟨hsize, hnext, hmoved⟩ := read_counts hvolume hread hcount
        by_cases hout : out = []
        · subst hout
          rw [copyLoop_end hread] at hrun
          cases hrun
          rw [length_nil] at hmoved
          omega
        · have hprogress := RawFile.read_progress hread hout
          rw [copyLoop_next hread hout] at hrun
          cases hwrite : destination.writeAll t out with
          | mk answer after' =>
            rw [hwrite] at hrun
            cases answer with
            | error code => cases hrun
            | ok _ =>
              have hwritten := destination.writeAll_ok _ _ _ hwrite
              have hlength : (destination.accepted after').length = next.bytesRead := by
                rw [hwritten, length_append, haccepted, hmoved]
              rw [← hsize]
              exact ih _ (hleft ▸ hprogress) hnext hlength hrun rfl

end Loop

section Copy
variable {volume : Volume σ} {destination : Destination τ} {sourcePath destinationPath : Text}
  {source : RawFile} {s s' : σ} {t t' : τ}

theorem copyTo_eq_ok_iff :
    copyTo volume destination sourcePath destinationPath (.ok source) s t = (.ok (), s', t') ↔
      source.bytesPerCluster*source.clustersPerRead < 2^63 ∧ ∃ created looped,
        destination.create t = (.ok (), created) ∧
        copyLoop volume destination sourcePath destinationPath
          (source.bytesPerCluster*source.clustersPerRead) source s created = (.ok (), s', looped) ∧
        destination.flush looped = (.ok (), t') := by
  simp only [copyTo]
  by_cases hlarge : 2^63 ≤ source.bytesPerCluster*source.clustersPerRead
  · rw [if_pos hlarge]
    constructor
    · intro hok
      cases hok
    · intro hok
      exact absurd hok.1 (Nat.not_lt.mpr hlarge)
  rw [if_neg hlarge]
  constructor
  · intro hok
    refine ⟨Nat.not_le.mp hlarge, ?_⟩
    cases hcreate : destination.create t with
    | mk answer created =>
      rw [hcreate] at hok
      cases answer with
      | error code => cases hok
      | ok _ =>
        cases hloop : copyLoop volume destination sourcePath destinationPath
            (source.bytesPerCluster*source.clustersPerRead) source s created with
        | mk result state =>
          obtain ⟨after, looped⟩ := state
          simp only [hloop] at hok
          cases result with
          | error e => cases hok
          | ok _ =>
            cases hflush : destination.flush looped with
            | mk answer flushed =>
              simp only [hflush] at hok
              cases answer with
              | error code => cases hok
              | ok _ =>
                cases hok
                exact ⟨created, looped, rfl, hloop, hflush⟩
  · rintro ⟨-, created, looped, hcreate, hloop, hflush⟩
    simp only [hcreate, hloop, hflush]

theorem copyTo_counting (volume : Volume σ) (destination : Destination τ)
    (sourcePath destinationPath : Text) (source : Except OpenFailure RawFile) (s : σ × ℕ) (t : τ) :
    let run := copyTo volume.counting destination sourcePath destinationPath source s t
    copyTo volume destination sourcePath destinationPath source s.1 t =
      (run.1, run.2.1.1, run.2.2) := by
  cases source with
  | error failure => rfl
  | ok source =>
    simp only [copyTo]
    split
    · rfl
    cases destination.create t with
    | mk answer created =>
      cases answer with
      | error code => rfl
      | ok _ =>
        dsimp only
        rw [copyLoop_counting source s created]
        cases copyLoop volume.counting destination sourcePath destinationPath
            (source.bytesPerCluster*source.clustersPerRead) source s created with
        | mk result state =>
          obtain ⟨after, looped⟩ := state
          cases result with
          | error e => rfl
          | ok _ =>
            dsimp only
            cases destination.flush looped with
            | mk answer flushed => cases answer <;> rfl

end Copy

def memoryDestination : Destination (Bytes × Bytes) where
  create _ := (.ok (), ([], []))
  writeAll t data := (.ok (), (t.1 ++ data, t.2))
  flush t := (.ok (), (t.1, t.1))
  accepted := Prod.fst
  written := Prod.snd
  create_ok := by
    intro t t' h
    cases h
    rfl
  writeAll_ok := by
    intro t data t' h
    cases h
    rfl
  flush_ok := by
    intro t t' h
    cases h
    rfl

theorem limitedVolume_length (content : ℕ → UInt8) (limit : ℕ → Option ℕ) (s : ℕ × ℕ) (n : ℕ)
    (bytes : Bytes) (s' : ℕ × ℕ) (h : (limitedVolume content limit).readFile s n = (.ok bytes, s')) :
    bytes.length ≤ n := by
  simp only [limitedVolume] at h
  cases hlimit : limit s.1 with
  | none =>
    rw [hlimit] at h
    cases h
  | some most =>
    rw [hlimit] at h
    cases h
    rw [length_slice]
    exact Nat.min_le_left _ _

/-- The run has ended well with these bytes, or the destination has failed it. -/
def CopiedOr (destinationPath : Text) (copied : τ → Prop) : Except CopyFailure Unit × σ × τ → Prop
  | (.ok _, _, t) => copied t
  | (.error e, _, _) => ∃ operation code, e = .fileOperation destinationPath operation code

theorem copyLoop_copied {volume : Volume σ} {content : ℕ → UInt8} (hvolume : volume.Fills content)
    (destination : Destination τ) (sourcePath destinationPath : Text) {bufferLength : ℕ}
    {file : RawFile} (hfile : file.Readable)
    (hbuffer : file.bytesPerCluster ≤ bufferLength ∧ bufferLength < 2^32) (s : σ) (t : τ) :
    CopiedOr destinationPath
      (fun t' => destination.accepted t' = destination.accepted t ++ file.pending content)
      (copyLoop volume destination sourcePath destinationPath bufferLength file s t) := by
  -- the bytes that are left drop with every read until one delivers nothing
  induction hleft : file.fileSize-file.bytesRead using Nat.strong_induction_on
    generalizing file s t with
  | _ left ih =>
    obtain ⟨out, hread, ⟨hnext, hcluster⟩, hpending, hend⟩ := RawFile.read_delivers volume content
      hvolume file.bytesPerCluster bufferLength (file, s) hbuffer ⟨hfile, rfl⟩
    have hrun : RawFile.read volume bufferLength (file, s) = (.ok out, _, _) := Prod.ext hread rfl
    by_cases hout : out = []
    · have hnil : file.pending content = [] := hend hout
      subst hout
      rw [copyLoop_end hrun, hnil, append_nil]
      rfl
    · rw [copyLoop_next hrun hout]
      cases hwrite : destination.writeAll t out with
      | mk answer t' =>
        cases answer with
        | error code => exact ⟨_, code, rfl⟩
        | ok _ =>
          have hrest := ih _ (hleft ▸ RawFile.read_progress hrun hout) hnext
            (hcluster ▸ hbuffer) (RawFile.read volume bufferLength (file, s)).2.2 t' rfl
          rw [destination.writeAll_ok _ _ _ hwrite, append_assoc] at hrest
          rw [show file.pending content = _ from hpending]
          exact hrest

end WindowsErg.File
