import WindowsErg.ByteCodec
import WindowsErg.UnicodeText

/-! The walk over the records of `NtQuerySystemInformation`, `src/process/rundown.rs`, on a 64-bit
target. A sum that overflows and an address that is not aligned stop the walk. -/
namespace WindowsErg.Process
open List TextScan ByteCodec UnicodeText

inductive WalkFault where
  | overflow
  | misaligned
  | outOfBuffer
  deriving DecidableEq, Repr

structure RawBuffer where
  bytes : Bytes
  start : ℕ
  start_pos : 0 < start
  /-- No allocation reaches the last address. -/
  fits : start+bytes.length < 2^64
  length_lt : bytes.length < 2^63

def RawBuffer.read (buffer : RawBuffer) (offset n : ℕ) : Except WalkFault Bytes :=
  if offset+n ≤ buffer.bytes.length then .ok ((buffer.bytes.drop offset).take n)
  else .error .outOfBuffer

def addUsize (a b : ℕ) : Except WalkFault ℕ := if a+b < 2^64 then .ok (a+b) else .error .overflow

structure ProcessHeader where
  nextEntryOffset : ℕ
  createTime : ℕ
  imageNameLength : ℕ
  imageNameBuffer : ℕ
  uniqueProcessId : ℕ
  reserved2 : ℕ
  sessionId : ℕ

def headerSize : ℕ := 256

def numberAt (bytes : Bytes) (offset width : ℕ) : ℕ := ofLe ((bytes.drop offset).take width)

/-- The layout of a 64-bit target; the creation time is at 24 in `Reserved1`. -/
def ProcessHeader.ofBytes (bytes : Bytes) : ProcessHeader where
  nextEntryOffset := numberAt bytes 0 4
  createTime := numberAt bytes (8+24) 8
  imageNameLength := numberAt bytes 56 2
  imageNameBuffer := numberAt bytes 64 8
  uniqueProcessId := numberAt bytes 80 8
  reserved2 := numberAt bytes 88 8
  sessionId := numberAt bytes 100 4

structure ProcessSnapshotEntry where
  pid : ℕ
  parentPid : Option ℕ
  createTime : ℕ
  sessionId : ℕ
  imageName : Text
  deriving DecidableEq, Repr

def ProcessHeader.entry (header : ProcessHeader) (imageName : Text) : ProcessSnapshotEntry where
  pid := header.uniqueProcessId%2^32
  parentPid := if header.reserved2%2^32 = 0 then none else some (header.reserved2%2^32)
  createTime := header.createTime
  sessionId := header.sessionId
  imageName := imageName

def unitsOfBytes : Bytes → List UInt16
  | low :: high :: rest => UInt16.ofNat (ofLe [low, high]) :: unitsOfBytes rest
  | _ => []

def imageNameOf (buffer : RawBuffer) (header : ProcessHeader) : Except WalkFault Text :=
  let nameLenUnits := header.imageNameLength/2
  if header.imageNameBuffer = 0 ∨ nameLenUnits = 0 then .ok []
  else if header.imageNameBuffer < buffer.start then .ok []
  else do
    -- the end of the name is computed as an address before it is compared
    let nameEnd ← addUsize header.imageNameBuffer (nameLenUnits*2)
    let bufferEnd ← addUsize buffer.start buffer.bytes.length
    if nameEnd ≤ bufferEnd then
      -- the units are read through a pointer to 16-bit words
      if header.imageNameBuffer%2 ≠ 0 then .error .misaligned
      else
        let bytes ← buffer.read (header.imageNameBuffer-buffer.start) (nameLenUnits*2)
        return decodeUtf16Lossy (unitsOfBytes bytes)
    else return []

def readRecord (buffer : RawBuffer) (offset : ℕ) : Except WalkFault (ProcessSnapshotEntry × ℕ) :=
  if (buffer.start+offset)%8 ≠ 0 then .error .misaligned
  else do
    let bytes ← buffer.read offset headerSize
    let header := ProcessHeader.ofBytes bytes
    let imageName ← imageNameOf buffer header
    return (header.entry imageName, header.nextEntryOffset)

def walkRecords (buffer : RawBuffer) (offset : ℕ) (out : List ProcessSnapshotEntry) :
    Except WalkFault (List ProcessSnapshotEntry) :=
  if 2^64 ≤ offset+headerSize then .error .overflow
  else if _hend : buffer.bytes.length < offset+headerSize then .ok out
  else
    match readRecord buffer offset with
    | .error fault => .error fault
    | .ok (entry, nextEntryOffset) =>
      -- a step back is not possible: the distance is unsigned, and zero ends the walk
      if _hlast : nextEntryOffset = 0 then .ok (out ++ [entry])
      else if 2^64 ≤ offset+nextEntryOffset then .error .overflow
      else walkRecords buffer (offset+nextEntryOffset) (out ++ [entry])
termination_by buffer.bytes.length-offset
decreasing_by
  rw [headerSize] at _hend
  omega

def parseSystemProcessInformation (buffer : RawBuffer) (out : List ProcessSnapshotEntry) :
    Except WalkFault (List ProcessSnapshotEntry) :=
  walkRecords buffer 0 out

def RawBuffer.headerAt (buffer : RawBuffer) (offset : ℕ) : ProcessHeader :=
  ProcessHeader.ofBytes ((buffer.bytes.drop offset).take headerSize)

/-- The records from an offset on: each says how far the next one is, and the last one says zero or
points to where no header fits any more. -/
inductive Chain (buffer : RawBuffer) : ℕ → List ℕ → Prop
  | none {offset : ℕ} (hend : buffer.bytes.length < offset+headerSize) : Chain buffer offset []
  | last {offset : ℕ} (hfits : offset+headerSize ≤ buffer.bytes.length)
      (hlast : (buffer.headerAt offset).nextEntryOffset = 0) : Chain buffer offset [offset]
  | next {offset : ℕ} {rest : List ℕ} (hfits : offset+headerSize ≤ buffer.bytes.length)
      (hnext : (buffer.headerAt offset).nextEntryOffset ≠ 0)
      (hrest : Chain buffer (offset+(buffer.headerAt offset).nextEntryOffset) rest) :
      Chain buffer offset (offset :: rest)

def ProcessHeader.nameBytes (header : ProcessHeader) : ℕ := header.imageNameLength/2*2

def NameInside (buffer : RawBuffer) (header : ProcessHeader) : Prop :=
  buffer.start ≤ header.imageNameBuffer ∧
    header.imageNameBuffer+header.nameBytes ≤ buffer.start+buffer.bytes.length

instance (buffer : RawBuffer) (header : ProcessHeader) : Decidable (NameInside buffer header) :=
  inferInstanceAs (Decidable (_ ∧ _))

def RawBuffer.nameOf (buffer : RawBuffer) (header : ProcessHeader) : Text :=
  if NameInside buffer header then
    decodeUtf16Lossy (unitsOfBytes ((buffer.bytes.drop (header.imageNameBuffer-buffer.start)).take
      header.nameBytes))
  else []

def RawBuffer.entryAt (buffer : RawBuffer) (offset : ℕ) : ProcessSnapshotEntry :=
  (buffer.headerAt offset).entry (buffer.nameOf (buffer.headerAt offset))

/-- A name that does not lie below the buffer ends below the last address, and one inside the buffer
starts at an even address. -/
structure NamePlaced (buffer : RawBuffer) (header : ProcessHeader) : Prop where
  fits : 0 < header.nameBytes → buffer.start ≤ header.imageNameBuffer →
    header.imageNameBuffer+header.nameBytes < 2^64
  even : 0 < header.nameBytes → NameInside buffer header → 2 ∣ header.imageNameBuffer

structure RecordPlaced (buffer : RawBuffer) (offset : ℕ) : Prop where
  aligned : 8 ∣ buffer.start+offset
  name : NamePlaced buffer (buffer.headerAt offset)

theorem nextEntryOffset_lt (buffer : RawBuffer) (offset : ℕ) :
    (buffer.headerAt offset).nextEntryOffset < 2^32 := by
  have hlt := ofLe_lt (((((buffer.bytes.drop offset).take headerSize).drop 0).take 4))
  have hpow : 256^((((buffer.bytes.drop offset).take headerSize).drop 0).take 4).length ≤ 256^4 :=
    Nat.pow_le_pow_right (by decide) (length_take_le _ _)
  exact lt_of_lt_of_le hlt hpow

theorem exists_chain (buffer : RawBuffer) (offset : ℕ) : ∃ offsets, Chain buffer offset offsets := by
  -- the offset grows with every record until no header fits
  induction hleft : buffer.bytes.length-offset using Nat.strong_induction_on generalizing offset with
  | _ left ih =>
    by_cases hend : buffer.bytes.length < offset+headerSize
    · exact ⟨[], .none hend⟩
    · have hfits : offset+headerSize ≤ buffer.bytes.length := Nat.not_lt.mp hend
      by_cases hlast : (buffer.headerAt offset).nextEntryOffset = 0
      · exact ⟨[offset], .last hfits hlast⟩
      · have hsmaller : buffer.bytes.length-(offset+(buffer.headerAt offset).nextEntryOffset) <
            left := by
          rw [headerSize] at hfits
          omega
        obtain ⟨rest, hrest⟩ := ih _ hsmaller _ rfl
        exact ⟨offset :: rest, .next hfits hlast hrest⟩

section
variable {buffer : RawBuffer}

theorem Chain.unique {offset : ℕ} {first second : List ℕ}
    (hfirst : Chain buffer offset first) (hsecond : Chain buffer offset second) : first = second := by
  induction hfirst generalizing second with
  | none hend =>
    cases hsecond with
    | none => rfl
    | last hfits => omega
    | next hfits => omega
  | last hfits hlast =>
    cases hsecond with
    | none hend => omega
    | last => rfl
    | next _ hnext => exact absurd hlast hnext
  | next hfits hnext _ ih =>
    cases hsecond with
    | none hend => omega
    | last _ hlast => exact absurd hlast hnext
    | next _ _ hrest => rw [ih hrest]

theorem RawBuffer.read_eq {offset n : ℕ} (hfits : offset+n ≤ buffer.bytes.length) :
    buffer.read offset n = .ok ((buffer.bytes.drop offset).take n) := if_pos hfits

section
variable {header : ProcessHeader}

theorem imageNameOf_empty
    (hempty : header.nameBytes = 0) : imageNameOf buffer header = .ok (buffer.nameOf header) := by
  have hunits : header.imageNameLength/2 = 0 := by
    rw [ProcessHeader.nameBytes] at hempty
    omega
  have hnone : buffer.nameOf header = [] := by
    simp only [RawBuffer.nameOf, hempty, take_zero, unitsOfBytes]
    split <;> rfl
  simp [imageNameOf, hunits, hnone]

theorem imageNameOf_below (hbelow : header.imageNameBuffer < buffer.start) :
    imageNameOf buffer header = .ok (buffer.nameOf header) := by
  have houtside : ¬NameInside buffer header := fun hinside ↦ Nat.not_le.mpr hbelow hinside.1
  simp [imageNameOf, RawBuffer.nameOf, hbelow, houtside]

theorem imageNameOf_above
    (hname : 0 < header.nameBytes) (habove : buffer.start ≤ header.imageNameBuffer) :
    imageNameOf buffer header =
      if header.imageNameBuffer+header.nameBytes < 2^64 then
        if NameInside buffer header ∧ header.imageNameBuffer%2 ≠ 0 then .error .misaligned
        else .ok (buffer.nameOf header)
      else .error .overflow := by
  have haddress : ¬(header.imageNameBuffer = 0 ∨ header.imageNameLength/2 = 0) := by
    have hstart := buffer.start_pos
    rw [ProcessHeader.nameBytes] at hname
    omega
  have hbuffer : addUsize buffer.start buffer.bytes.length =
      .ok (buffer.start+buffer.bytes.length) := if_pos buffer.fits
  rw [imageNameOf, if_neg haddress, if_neg (Nat.not_lt.mpr habove), ← ProcessHeader.nameBytes, hbuffer]
  by_cases htop : header.imageNameBuffer+header.nameBytes < 2^64
  · have hsum : addUsize header.imageNameBuffer header.nameBytes =
        .ok (header.imageNameBuffer+header.nameBytes) := if_pos htop
    rw [if_pos htop, hsum]
    by_cases hend : header.imageNameBuffer+header.nameBytes ≤ buffer.start+buffer.bytes.length
    · have hinside : NameInside buffer header := ⟨habove, hend⟩
      have hread : buffer.read (header.imageNameBuffer-buffer.start) header.nameBytes = _ :=
        RawBuffer.read_eq (by omega)
      by_cases hodd : header.imageNameBuffer%2 ≠ 0
      · simp [bind, Except.bind, hend, hinside, hodd]
      · simp [bind, Except.bind, pure, Except.pure, hend, hinside, hodd, hread, RawBuffer.nameOf]
    · have houtside : ¬NameInside buffer header := fun hinside ↦ hend hinside.2
      simp [bind, Except.bind, pure, Except.pure, hend, houtside, RawBuffer.nameOf]
  · have hsum : addUsize header.imageNameBuffer header.nameBytes = .error .overflow := if_neg htop
    rw [if_neg htop, hsum]
    rfl

theorem imageNameOf_eq
    (hplaced : NamePlaced buffer header) : imageNameOf buffer header = .ok (buffer.nameOf header) := by
  -- the three ways the name can lie: empty, below the buffer, or not below it
  rcases Nat.eq_zero_or_pos header.nameBytes with hempty | hname
  · exact imageNameOf_empty hempty
  rcases Nat.lt_or_ge header.imageNameBuffer buffer.start with hbelow | habove
  · exact imageNameOf_below hbelow
  have hodd : ¬(NameInside buffer header ∧ header.imageNameBuffer%2 ≠ 0) := by
    rintro ⟨hinside, hodd⟩
    exact hodd (Nat.mod_eq_zero_of_dvd (hplaced.even hname hinside))
  rw [imageNameOf_above hname habove, if_pos (hplaced.fits hname habove), if_neg hodd]

theorem imageNameOf_error (hplaced : ¬NamePlaced buffer header) :
    ∃ fault, fault ≠ .outOfBuffer ∧ imageNameOf buffer header = .error fault := by
  by_cases htop : 0 < header.nameBytes → buffer.start ≤ header.imageNameBuffer →
      header.imageNameBuffer+header.nameBytes < 2^64
  · have hodd : ¬(0 < header.nameBytes → NameInside buffer header → 2 ∣ header.imageNameBuffer) :=
      fun heven ↦ hplaced ⟨htop, heven⟩
    push Not at hodd
    obtain ⟨hname, hinside, hodd⟩ := hodd
    refine ⟨.misaligned, by decide, ?_⟩
    rw [imageNameOf_above hname hinside.1, if_pos (htop hname hinside.1),
      if_pos ⟨hinside, fun hmod ↦ hodd (Nat.dvd_of_mod_eq_zero hmod)⟩]
  · push Not at htop
    obtain ⟨hname, habove, htop⟩ := htop
    refine ⟨.overflow, by decide, ?_⟩
    rw [imageNameOf_above hname habove, if_neg (Nat.not_lt.mpr htop)]

end

end

section Record
variable {buffer : RawBuffer} {offset : ℕ} (hfits : offset+headerSize ≤ buffer.bytes.length)
include hfits

theorem readRecord_eq (hplaced : RecordPlaced buffer offset) :
    readRecord buffer offset =
      .ok (buffer.entryAt offset, (buffer.headerAt offset).nextEntryOffset) := by
  have haligned : ¬(buffer.start+offset)%8 ≠ 0 :=
    not_not.mpr (Nat.mod_eq_zero_of_dvd hplaced.aligned)
  have hname := imageNameOf_eq hplaced.name
  rw [RawBuffer.headerAt] at hname
  rw [readRecord, if_neg haligned, RawBuffer.read_eq hfits]
  simp only [bind, Except.bind, pure, Except.pure, hname]
  rfl

theorem readRecord_error (hplaced : ¬RecordPlaced buffer offset) :
    ∃ fault, fault ≠ .outOfBuffer ∧ readRecord buffer offset = .error fault := by
  by_cases haligned : 8 ∣ buffer.start+offset
  · obtain ⟨fault, hfault, hname⟩ := imageNameOf_error fun hname ↦ hplaced ⟨haligned, hname⟩
    refine ⟨fault, hfault, ?_⟩
    rw [RawBuffer.headerAt] at hname
    rw [readRecord, if_neg (not_not.mpr (Nat.mod_eq_zero_of_dvd haligned)), RawBuffer.read_eq hfits]
    simp only [bind, Except.bind, hname]
  · refine ⟨.misaligned, by decide, ?_⟩
    rw [readRecord, if_pos fun hmod ↦ haligned (Nat.dvd_of_mod_eq_zero hmod)]

end Record

section Walk
variable {buffer : RawBuffer} {offset : ℕ} {offsets : List ℕ}

theorem offset_lt (hfits : offset+headerSize ≤ buffer.bytes.length) :
    offset+(buffer.headerAt offset).nextEntryOffset+headerSize < 2^64 := by
  have hnext := nextEntryOffset_lt buffer offset
  have hlength := buffer.length_lt
  rw [headerSize] at *
  omega

theorem walkRecords_next (hfits : offset+headerSize ≤ buffer.bytes.length)
    (hnext : (buffer.headerAt offset).nextEntryOffset ≠ 0) (hplaced : RecordPlaced buffer offset)
    (out : List ProcessSnapshotEntry) :
    walkRecords buffer offset out =
      walkRecords buffer (offset+(buffer.headerAt offset).nextEntryOffset)
        (out ++ [buffer.entryAt offset]) := by
  have hbelow := offset_lt hfits
  have hoffset : ¬2^64 ≤ offset+headerSize := by omega
  have hsum : ¬2^64 ≤ offset+(buffer.headerAt offset).nextEntryOffset := by omega
  rw [walkRecords, if_neg hoffset, dif_neg (Nat.not_lt.mpr hfits), readRecord_eq hfits hplaced]
  simp only [dif_neg hnext, if_neg hsum]

theorem walkRecords_eq (hchain : Chain buffer offset offsets) (hoffset : offset+headerSize < 2^64)
    (hplaced : ∀ record ∈ offsets, RecordPlaced buffer record) (out : List ProcessSnapshotEntry) :
    walkRecords buffer offset out = .ok (out ++ offsets.map buffer.entryAt) := by
  induction hchain generalizing out with
  | none hend => rw [walkRecords, if_neg (Nat.not_le.mpr hoffset), dif_pos hend]; simp
  | last hfits hlast =>
    have hrecord := readRecord_eq hfits (hplaced _ mem_cons_self)
    rw [walkRecords, if_neg (Nat.not_le.mpr hoffset), dif_neg (Nat.not_lt.mpr hfits), hrecord]
    simp [hlast]
  | next hfits hnext _ ih =>
    obtain ⟨hfirst, hrest⟩ := forall_mem_cons.mp hplaced
    rw [walkRecords_next hfits hnext hfirst, ih (offset_lt hfits) hrest]
    simp

theorem walkRecords_error (hchain : Chain buffer offset offsets)
    (hoffset : offset+headerSize < 2^64)
    (hplaced : ¬∀ record ∈ offsets, RecordPlaced buffer record) (out : List ProcessSnapshotEntry) :
    ∃ fault, fault ≠ .outOfBuffer ∧ walkRecords buffer offset out = .error fault := by
  induction hchain generalizing out with
  | none => exact absurd (fun record hmem ↦ absurd hmem not_mem_nil) hplaced
  | last hfits =>
    have hfirst : ¬RecordPlaced buffer _ := fun hfirst ↦ hplaced (by simpa using hfirst)
    obtain ⟨fault, hfault, hrecord⟩ := readRecord_error hfits hfirst
    refine ⟨fault, hfault, ?_⟩
    rw [walkRecords, if_neg (Nat.not_le.mpr hoffset), dif_neg (Nat.not_lt.mpr hfits), hrecord]
  | @next offset rest hfits hnext _ ih =>
    by_cases hfirst : RecordPlaced buffer offset
    · have hrest : ¬∀ record ∈ rest, RecordPlaced buffer record :=
        fun hrest ↦ hplaced (forall_mem_cons.mpr ⟨hfirst, hrest⟩)
      rw [walkRecords_next hfits hnext hfirst]
      exact ih (offset_lt hfits) hrest _
    · obtain ⟨fault, hfault, hrecord⟩ := readRecord_error hfits hfirst
      refine ⟨fault, hfault, ?_⟩
      rw [walkRecords, if_neg (Nat.not_le.mpr hoffset), dif_neg (Nat.not_lt.mpr hfits), hrecord]

end Walk

/-- The walk never reads outside the buffer, and appends the entries of the chain exactly when
every record and name on it is aligned and no name ends beyond the last address. -/
theorem process_information_walk_exact_iff (buffer : RawBuffer) (out : List ProcessSnapshotEntry) :
    parseSystemProcessInformation buffer out ≠ .error .outOfBuffer ∧
    ∃ offsets, (∀ other, Chain buffer 0 other ↔ other = offsets) ∧
      (parseSystemProcessInformation buffer out = .ok (out ++ offsets.map buffer.entryAt) ↔
        ∀ offset ∈ offsets, RecordPlaced buffer offset) := by
  obtain ⟨offsets, hchain⟩ := exists_chain buffer 0
  have hunique : ∀ other, Chain buffer 0 other ↔ other = offsets :=
    fun other ↦ ⟨fun hother ↦ hother.unique hchain, fun heq ↦ heq ▸ hchain⟩
  -- the walk has no other result than the chain's entries, so both sides are decided together
  by_cases hplaced : ∀ record ∈ offsets, RecordPlaced buffer record
  · have hwalk := walkRecords_eq hchain (by decide) hplaced out
    exact ⟨by simp [parseSystemProcessInformation, hwalk], offsets, hunique, iff_of_true hwalk hplaced⟩
  · obtain ⟨fault, hfault, hwalk⟩ := walkRecords_error hchain (by decide) hplaced out
    refine ⟨?_, offsets, hunique, iff_of_false ?_ hplaced⟩
    · simpa [parseSystemProcessInformation, hwalk] using hfault
    · simp [parseSystemProcessInformation, hwalk]

def topName : RawBuffer where
  bytes := List.replicate 56 0 ++ leBytes 2 4 ++ List.replicate 6 0 ++ leBytes 8 (2^64-2) ++
    List.replicate 184 0
  start := 4096
  start_pos := by decide
  fits := by decide +kernel
  length_lt := by decide +kernel

/-- The sum of the name's address and its length overflows, although the record is aligned and its
name lies outside the buffer. -/
theorem process_information_walk_overflows :
    8 ∣ topName.start ∧ Chain topName 0 [0] ∧ ¬NameInside topName (topName.headerAt 0) ∧
      parseSystemProcessInformation topName [] = .error .overflow := by
  refine ⟨by decide, .last (by decide +kernel) (by decide +kernel), by decide +kernel, ?_⟩
  have hrecord : readRecord topName 0 = .error .overflow := by decide +kernel
  rw [parseSystemProcessInformation, walkRecords, if_neg (by decide), dif_neg (by decide +kernel), hrecord]

end WindowsErg.Process
