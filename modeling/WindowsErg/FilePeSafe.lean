import WindowsErg.FilePe

/-! Which executables make the analysis panic. -/
namespace WindowsErg.File.Pe
open List TextScan ByteCodec UnicodeText GuardedRun Guarded

/-- Offsets in the file are far below this, so that nothing overflows 64 bits. -/
def offsetLimit : ℕ := 2^40

theorem offsetLimit_add_lt {a b : ℕ} (ha : a < offsetLimit) (hb : b ≤ offsetLimit) :
    a+b < usizeLimit := by
  unfold offsetLimit at *
  unfold usizeLimit
  omega

section Reading
variable {bytes : Bytes} {offset : ℕ}

theorem safe_numberAt {width : ℕ} (h : offset+width < usizeLimit) :
    (numberAt width bytes offset).Safe := by
  rw [numberAt, safe_bind, safe_addIn]
  exact ⟨h, safe_pure _⟩

theorem safe_u16At (h : offset < offsetLimit) : (u16At bytes offset).Safe :=
  (safe_map _ _).mpr (safe_numberAt (offsetLimit_add_lt h (by decide)))

theorem safe_u32At (h : offset < offsetLimit) : (u32At bytes offset).Safe :=
  (safe_map _ _).mpr (safe_numberAt (offsetLimit_add_lt h (by decide)))

theorem safe_u64At (h : offset < offsetLimit) : (u64At bytes offset).Safe :=
  (safe_map _ _).mpr (safe_numberAt (offsetLimit_add_lt h (by decide)))

theorem safe_u32At_add {k : ℕ} (h : offset+k < offsetLimit) :
    (addIn usizeLimit offset k >>= u32At bytes).Safe := by
  rw [safe_bind, safe_addIn]
  exact ⟨offsetLimit_add_lt (b := k) (by omega) (by omega), safe_u32At h⟩

theorem safe_u16At_add {k : ℕ} (h : offset+k < offsetLimit) :
    (addIn usizeLimit offset k >>= u16At bytes).Safe := by
  rw [safe_bind, safe_addIn]
  exact ⟨offsetLimit_add_lt (b := k) (by omega) (by omega), safe_u16At h⟩

theorem safe_readCString : (readCString bytes offset).Safe := by
  unfold readCString
  split
  · exact safe_pure _
  · rename_i slice _
    split
    · exact safe_pure _
    · rename_i end_ hend
      obtain ⟨hlt, -⟩ := List.findIdx?_eq_some_iff_getElem.mp hend
      rw [length_take] at hlt
      rw [safe_bind, safe_sliceTo]
      exact ⟨by omega, safe_pure _⟩

theorem safe_readDescriptor (h : offset+20 < offsetLimit) : (readDescriptor bytes offset).Safe := by
  rw [readDescriptor, safe_bind]
  refine ⟨safe_u32At (by omega), ?_⟩
  split
  · exact safe_pure _
  rw [safe_bind]
  refine ⟨safe_u32At_add (by omega), ?_⟩
  split
  · exact safe_pure _
  rw [safe_bind]
  refine ⟨safe_u32At_add (by omega), ?_⟩
  split
  · exact safe_pure _
  · exact safe_pure _

theorem safe_readThunk (is64bit : Bool) (h : offset < offsetLimit) :
    (readThunk is64bit bytes offset).Safe := by
  rw [readThunk, safe_map]
  split
  · exact safe_u64At h
  · exact (safe_map _ _).mpr (safe_u32At h)

end Reading

section Headers
variable {ε : Type} {bytes : Bytes}

theorem yields_required {α : Type} {number : Guarded (Option α)} {reason : String}
    (h : number.Safe) : Yields (required number reason : Parsing ε α) fun _ => True := by
  apply Yields.bind (fun _ => True) (Yields.lift h trivial)
  intro found _
  split
  · exact Yields.throw _
  · exact Yields.pure trivial

theorem yields_ensure (p : Prop) [Decidable p] (reason : String) :
    Yields (ensure p reason : Parsing ε PUnit) fun _ => True := by
  unfold ensure
  split
  · exact Yields.pure trivial
  · exact Yields.throw _

theorem yields_parseSections {tableOffset : ℕ} (n i : ℕ) (sections : List Section)
    (h : tableOffset+40*(i+n)+24 < offsetLimit) :
    Yields (parseSections bytes tableOffset n i sections : Parsing ε (List Section))
      fun _ => True := by
  induction n generalizing i sections with
  | zero => exact Yields.pure trivial
  | succ n ih =>
    have hskip : i*40 < usizeLimit := by
      unfold offsetLimit at h
      unfold usizeLimit
      omega
    -- the four fields are in the first 24 bytes of the header
    have hbase : tableOffset+i*40+24 < offsetLimit := by omega
    rw [parseSections]
    refine Yields.bind (· = i*40) (Yields.lift ?_ rfl) ?_
    · rw [mulIn_eq hskip]
      exact safe_pure _
    rintro _ rfl
    refine Yields.bind (· = tableOffset+i*40) (Yields.lift (safe_addIn.mpr ?_) rfl) ?_
    · exact offsetLimit_add_lt (by omega) (by omega)
    rintro _ rfl
    refine Yields.bind (fun _ => True) (yields_required (safe_u32At_add (by omega))) fun _ _ => ?_
    refine Yields.bind (fun _ => True) (yields_required (safe_u32At_add (by omega))) fun _ _ => ?_
    refine Yields.bind (fun _ => True) (yields_required (safe_u32At_add (by omega))) fun _ _ => ?_
    refine Yields.bind (fun _ => True) (yields_required (safe_u32At_add (by omega))) fun _ _ => ?_
    exact ih (i+1) _ (by omega)

structure PeHeaders.Placed (headers : PeHeaders) : Prop where
  checksum : headers.checksumOffset < 2^33
  directory : headers.dataDirectoryOffset < 2^33

theorem yields_addIn {a b : ℕ} (ha : a < offsetLimit) (hb : b ≤ offsetLimit) :
    Yields (liftM (addIn usizeLimit a b) : Parsing ε ℕ) (· = a+b) :=
  Yields.lift (safe_addIn.mpr (offsetLimit_add_lt ha hb)) rfl

theorem yields_parse : Yields (PeHeaders.parse bytes : Parsing ε PeHeaders) PeHeaders.Placed := by
  have hlimit : offsetLimit = 2^40 := rfl
  refine Yields.bind (fun _ => True) (Yields.lift (safe_u16At (by omega)) trivial) fun _ _ => ?_
  refine Yields.bind (fun _ => True) (yields_ensure _ _) fun _ _ => ?_
  refine Yields.bind (fun _ => True) (yields_required (safe_u32At (by omega))) fun lfanew _ => ?_
  -- all offsets of the headers are counted from this 32-bit number
  have hlfanew := lfanew.toNat_lt
  refine Yields.bind (fun _ => True) (Yields.lift (safe_u32At (by omega)) trivial) fun _ _ => ?_
  refine Yields.bind (fun _ => True) (yields_ensure _ _) fun _ _ => ?_
  refine Yields.bind _ (yields_addIn (by omega) (by omega)) ?_
  rintro _ rfl
  refine Yields.bind (fun _ => True) (yields_required (safe_u16At_add (by omega)))
    fun numberOfSections _ => ?_
  have hnumber := numberOfSections.toNat_lt
  refine Yields.bind (fun _ => True) (yields_required (safe_u16At_add (by omega)))
    fun sizeOfOptionalHeader _ => ?_
  have hsize := sizeOfOptionalHeader.toNat_lt
  refine Yields.bind _ (yields_addIn (by omega) (by omega)) ?_
  rintro _ rfl
  refine Yields.bind (fun _ => True) (yields_required (safe_u16At (by omega))) fun magic _ => ?_
  refine Yields.bind (fun _ => True) (yields_ensure _ _) fun _ _ => ?_
  refine Yields.bind _ (yields_addIn (by omega) (by split <;> omega)) ?_
  rintro _ rfl
  refine Yields.bind (fun _ => True) (yields_required (safe_u32At (by split <;> omega)))
    fun _ _ => ?_
  refine Yields.bind _ (yields_addIn (by omega) (by split <;> omega)) ?_
  rintro _ rfl
  refine Yields.bind _ (yields_addIn (by omega) (by omega)) ?_
  rintro _ rfl
  refine Yields.bind (fun _ => True) (yields_parseSections _ 0 [] (by omega)) fun _ _ => ?_
  refine Yields.bind _ (yields_addIn (by omega) (by omega)) ?_
  rintro _ rfl
  refine Yields.pure ⟨?_, ?_⟩
  · dsimp only
    omega
  · dsimp only
    split <;> omega

end Headers

def Section.place (s : Section) (rva : UInt32) : ℕ :=
  s.rawOffset.toNat+(rva.toNat-s.virtualAddress.toNat)

theorem Section.place_lt (s : Section) (rva : UInt32) : s.place rva < 2^33 := by
  have hraw := s.rawOffset.toNat_lt
  have hrva := rva.toNat_lt
  unfold place
  omega

theorem Section.Covers.le {s : Section} {rva : UInt32} (h : s.Covers rva) :
    s.virtualAddress.toNat ≤ rva.toNat := UInt32.le_iff_toNat_le.mp h.1

theorem value_rvaLoop (sections : List Section) (rva : UInt32) :
    (PeHeaders.rvaLoop sections rva).value =
      (sections.find? fun s => s.Covers rva).map (·.place rva) := by
  induction sections with
  | nil => rfl
  | cons s sections ih =>
    rw [PeHeaders.rvaLoop, List.find?_cons]
    by_cases hcovers : s.Covers rva
    · rw [if_pos hcovers]
      simp only [hcovers, decide_true]
      rfl
    · rw [if_neg hcovers, ih]
      simp only [hcovers, decide_false]

theorem safe_rvaLoop_iff (sections : List Section) (rva : UInt32) :
    (PeHeaders.rvaLoop sections rva).Safe ↔
      ∀ s, (sections.find? fun s => s.Covers rva) = some s → s.place rva < u32Limit := by
  induction sections with
  | nil => exact iff_of_true (safe_pure _) (by simp)
  | cons s sections ih =>
    rw [PeHeaders.rvaLoop, List.find?_cons]
    by_cases hcovers : s.Covers rva
    · rw [if_pos hcovers, subIn_eq hcovers.le, pure_bind, safe_bind, safe_addIn]
      simp only [hcovers, decide_true, Option.some.injEq, forall_eq', safe_pure, and_true]
      rfl
    · rw [if_neg hcovers, ih]
      simp only [hcovers, decide_false]

namespace PeHeaders
variable (headers : PeHeaders)

def sectionOf (rva : UInt32) : Option Section :=
  if rva = 0 then none else headers.sections.find? fun s => s.Covers rva

def Fits (rva : UInt32) : Prop := ∀ s, headers.sectionOf rva = some s → s.place rva < u32Limit

theorem value_rvaToOffset (rva : UInt32) :
    (headers.rvaToOffset rva).value = (headers.sectionOf rva).map (·.place rva) := by
  unfold rvaToOffset sectionOf
  split
  · rfl
  · exact value_rvaLoop headers.sections rva

theorem safe_rvaToOffset_iff (rva : UInt32) :
    (headers.rvaToOffset rva).Safe ↔ headers.Fits rva := by
  unfold rvaToOffset Fits sectionOf
  split
  · exact iff_of_true (safe_pure _) (by simp)
  · exact safe_rvaLoop_iff headers.sections rva

theorem offset_lt {rva : UInt32} {offset : ℕ} (h : (headers.rvaToOffset rva).value = some offset) :
    offset < 2^33 := by
  rw [value_rvaToOffset] at h
  obtain ⟨s, -, rfl⟩ := Option.map_eq_some_iff.mp h
  exact s.place_lt rva

variable (bytes : Bytes)

theorem safe_dllName_iff (rva : UInt32) : (headers.dllName bytes rva).Safe ↔ headers.Fits rva := by
  rw [dllName, safe_bind, safe_rvaToOffset_iff, and_iff_left]
  split
  · exact safe_pure _
  · exact (safe_map _ _).mpr safe_readCString

theorem safe_symbolAt_iff (rva : UInt32) : (headers.symbolAt bytes rva).Safe ↔ headers.Fits rva := by
  rw [symbolAt, safe_bind, safe_rvaToOffset_iff, and_iff_left]
  split
  · exact safe_pure _
  · rename_i offset hoffset
    have hlt := headers.offset_lt hoffset
    rw [safe_map, safe_bind, safe_addIn]
    refine ⟨offsetLimit_add_lt ?_ (by decide), safe_readCString⟩
    unfold offsetLimit
    omega

def namedRva (thunk : UInt64) : Option UInt32 :=
  if headers.is64bit then
    if thunk &&& 0x8000000000000000 = 0 ∧ thunk.toNat < u32Limit then some thunk.toUInt32 else none
  else if thunk.toUInt32 &&& 0x80000000 = 0 then some thunk.toUInt32 else none

theorem safe_resolveThunk_iff (thunk : UInt64) :
    (headers.resolveThunk bytes thunk).Safe ↔
      ∀ rva, headers.namedRva thunk = some rva → headers.Fits rva := by
  unfold resolveThunk namedRva
  by_cases h64 : headers.is64bit = true
  · rw [if_pos h64, if_pos h64, resolveThunk64]
    by_cases hordinal : thunk &&& 0x8000000000000000 = 0
    · rw [if_neg (not_not.mpr hordinal)]
      by_cases hsmall : thunk.toNat < u32Limit
      · rw [if_pos hsmall, if_pos ⟨hordinal, hsmall⟩, safe_symbolAt_iff]
        simp
      · rw [if_neg hsmall, if_neg fun h => hsmall h.2]
        exact iff_of_true (safe_pure _) (by simp)
    · rw [if_pos hordinal, if_neg fun h => hordinal h.1]
      exact iff_of_true (safe_pure _) (by simp)
  · rw [if_neg h64, if_neg h64, resolveThunk32]
    by_cases hordinal : thunk.toUInt32 &&& 0x80000000 = 0
    · rw [if_neg (not_not.mpr hordinal), if_pos hordinal, safe_symbolAt_iff]
      simp
    · rw [if_pos hordinal, if_neg hordinal]
      exact iff_of_true (safe_pure _) (by simp)

def thunksFrom : ℕ → ℕ → List UInt64
  | 0, _ => []
  | rounds+1, offset =>
    match (readThunk headers.is64bit bytes offset).value with
    | none => []
    | some thunk => thunk :: thunksFrom rounds (offset+thunkSize headers.is64bit)

theorem thunkSize_le (is64bit : Bool) : thunkSize is64bit ≤ 8 := by cases is64bit <;> decide

theorem safe_walkThunks_iff (dll : Text) (rounds offset : ℕ) (out : List Import)
    (h : offset+8*rounds < offsetLimit) :
    (headers.walkThunks bytes dll rounds offset out).Safe ↔
      ∀ thunk ∈ headers.thunksFrom bytes rounds offset, ∀ rva, headers.namedRva thunk = some rva →
        headers.Fits rva := by
  induction rounds generalizing offset out with
  | zero => exact iff_of_true (safe_pure _) (by simp [thunksFrom])
  | succ rounds ih =>
    -- a round goes at most 8 bytes further
    have hsize := thunkSize_le headers.is64bit
    rw [walkThunks, safe_bind, and_iff_right (safe_readThunk _ (by omega)), thunksFrom]
    cases (readThunk headers.is64bit bytes offset).value with
    | none => exact iff_of_true (safe_pure _) (by simp)
    | some thunk =>
      dsimp only
      rw [safe_bind, and_iff_right (safe_addIn.mpr (offsetLimit_add_lt (by omega) (by omega))),
        safe_bind, safe_resolveThunk_iff, forall_mem_cons]
      exact and_congr_right' (ih _ _ (by rw [value_addIn]; omega))

@[mk_iff]
structure DescriptorFits (d : ImportDescriptor) : Prop where
  name : headers.Fits d.nameRva
  thunks : (headers.dllName bytes d.nameRva).value ≠ none → headers.Fits d.thunkRva
  symbols : (headers.dllName bytes d.nameRva).value ≠ none →
    ∀ s, headers.sectionOf d.thunkRva = some s →
      ∀ thunk ∈ headers.thunksFrom bytes maxImportsPerDll (s.place d.thunkRva),
        ∀ rva, headers.namedRva thunk = some rva → headers.Fits rva

theorem safe_importsOf_iff (d : ImportDescriptor) :
    (headers.importsOf bytes d).Safe ↔ headers.DescriptorFits bytes d := by
  rw [importsOf, safe_bind, safe_dllName_iff, descriptorFits_iff]
  cases hname : (headers.dllName bytes d.nameRva).value with
  | none => simp [safe_pure]
  | some dll =>
    dsimp only
    rw [safe_bind, safe_rvaToOffset_iff, value_rvaToOffset]
    cases hsection : headers.sectionOf d.thunkRva with
    | none => simp [safe_pure]
    | some s =>
      have hplace := s.place_lt d.thunkRva
      have hwalk := headers.safe_walkThunks_iff bytes dll maxImportsPerDll (s.place d.thunkRva) []
        (by unfold offsetLimit maxImportsPerDll; omega)
      rw [Option.map_some]
      dsimp only
      rw [hwalk]
      simp

end PeHeaders

def descriptorsFrom (bytes : Bytes) : ℕ → ℕ → List ImportDescriptor
  | 0, _ => []
  | rounds+1, offset =>
    match (readDescriptor bytes offset).value with
    | none => []
    | some d => d :: descriptorsFrom bytes rounds (offset+20)

namespace PeHeaders
variable (headers : PeHeaders) (bytes : Bytes)

theorem safe_importLoop_iff (rounds offset : ℕ) (imports : List Import)
    (h : offset+20*(rounds+1) < offsetLimit) :
    (headers.importLoop bytes rounds offset imports).Safe ↔
      ∀ d ∈ descriptorsFrom bytes rounds offset, headers.DescriptorFits bytes d := by
  induction rounds generalizing offset imports with
  | zero => exact iff_of_true (safe_pure _) (by simp [descriptorsFrom])
  | succ rounds ih =>
    rw [importLoop, safe_bind, and_iff_right (safe_readDescriptor (by omega)), descriptorsFrom]
    cases (readDescriptor bytes offset).value with
    | none => exact iff_of_true (safe_pure _) (by simp)
    | some d =>
      dsimp only
      rw [safe_bind, and_iff_right (safe_addIn.mpr (offsetLimit_add_lt (by omega) (by decide))),
        safe_bind, safe_importsOf_iff, forall_mem_cons]
      exact and_congr_right' (ih _ _ (by rw [value_addIn]; omega))

theorem safe_dataDirectory (hplaced : headers.Placed) (index : UInt32) (hindex : index.toNat < 2^8) :
    (headers.dataDirectory index bytes).Safe := by
  have hdirectory := hplaced.directory
  have hlimit : offsetLimit = 2^40 := rfl
  have hskip : index.toNat*8 < usizeLimit := by
    unfold usizeLimit
    omega
  unfold dataDirectory
  split
  · exact safe_pure _
  · rw [mulIn_eq hskip, pure_bind, safe_bind, value_addIn]
    refine ⟨safe_addIn.mpr (offsetLimit_add_lt (by omega) (by omega)), ?_⟩
    rw [safe_bind]
    refine ⟨safe_u32At (by omega), ?_⟩
    split
    · exact safe_pure _
    · rw [safe_bind]
      refine ⟨safe_u32At_add (by omega), ?_⟩
      split
      · exact safe_pure _
      · exact safe_pure _

/-- All addresses that the import walk translates fit: that of the table, and those of its
descriptors. -/
@[mk_iff]
structure ImportsFit : Prop where
  table : ∀ rva size, (headers.dataDirectory directoryImport bytes).value = some (rva, size) →
    headers.Fits rva
  descriptors : ∀ rva size s,
    (headers.dataDirectory directoryImport bytes).value = some (rva, size) →
    headers.sectionOf rva = some s →
    ∀ d ∈ descriptorsFrom bytes maxImportDescriptors (s.place rva), headers.DescriptorFits bytes d

theorem safe_parseImports_iff (hplaced : headers.Placed) :
    (headers.parseImports bytes).Safe ↔ headers.ImportsFit bytes := by
  have hdirectory := headers.safe_dataDirectory bytes hplaced directoryImport (by decide)
  rw [parseImports, safe_bind, and_iff_right hdirectory, importsFit_iff]
  cases hvalue : (headers.dataDirectory directoryImport bytes).value with
  | none => simp [safe_pure]
  | some entry =>
    obtain ⟨rva, size⟩ := entry
    dsimp only
    rw [safe_bind, safe_rvaToOffset_iff, value_rvaToOffset]
    cases hsection : headers.sectionOf rva with
    | none => grind [safe_pure]
    | some s =>
      have hplace := s.place_lt rva
      have hloop := headers.safe_importLoop_iff bytes maxImportDescriptors (s.place rva) []
        (by unfold offsetLimit maxImportDescriptors; omega)
      rw [Option.map_some]
      dsimp only
      rw [hloop]
      grind

theorem safe_hasOverlay (fileLen : ℕ) : (headers.hasOverlay fileLen).Safe := by
  rw [hasOverlay, safe_bind, endOfSections, safe_bind]
  refine ⟨⟨safe_mapM _ _ fun s _ => safe_addIn.mpr ?_, safe_pure _⟩, safe_pure _⟩
  have hoffset := s.rawOffset.toNat_lt
  have hsize := s.rawSize.toNat_lt
  unfold usizeLimit
  omega

end PeHeaders

def sumLimit : ℕ := 2^17

theorem addWord_spec {sum word : ℕ} (hsum : sum ≤ sumLimit) (hword : word < 2^16) :
    (addWord sum word).Safe ∧ (addWord sum word).value ≤ sumLimit := by
  -- before the carry is folded back the sum is below 3 * 2^16, so the carry is at most 2
  unfold sumLimit at *
  have htotal : sum+word < u32Limit := by
    unfold u32Limit
    omega
  rw [addWord, addIn_eq htotal, pure_bind]
  refine ⟨safe_addIn.mpr ?_, ?_⟩
  · unfold u32Limit
    omega
  · rw [value_addIn]
    omega

theorem safe_inField {field : ℕ} (hfield : field+2 < usizeLimit) (i : ℕ) :
    (inField field i).Safe := by
  unfold inField
  split
  · exact safe_pure _
  · rw [safe_bind, safe_addIn]
    exact ⟨hfield, safe_pure _⟩

theorem checksumLoop_spec (bytes : Bytes) (hlen : bytes.length < 2^63) (field : ℕ)
    (hfield : field+2 < usizeLimit) (i sum : ℕ) (hi : i ≤ bytes.length) (hsum : sum ≤ sumLimit) :
    (checksumLoop bytes field i sum).Safe ∧
      (checksumLoop bytes field i sum).value.2 ≤ sumLimit := by
  -- on the number of bytes that are left; `sumLimit` holds at the start of each round
  induction hrest : bytes.length-i using Nat.strong_induction_on generalizing i sum with
  | _ rest ih =>
    have hbound : i+2 < usizeLimit := by
      unfold usizeLimit
      omega
    rw [checksumLoop, check_bind (by omega)]
    by_cases hmore : i+1 < bytes.length
    · have hnext (sum' : ℕ) (hsum' : sum' ≤ sumLimit) :=
        ih _ (by omega) (i+2) sum' (by omega) hsum' rfl
      rw [dif_pos hmore, safe_bind, value_bind, and_iff_right (safe_inField hfield i)]
      split
      · rw [check_bind hbound]
        exact hnext sum hsum
      · have hword : ofLe [bytes.getD i default, bytes.getD (i+1) default] < 2^16 := by
          simpa using ofLe_lt [bytes.getD i default, bytes.getD (i+1) default]
        obtain ⟨hsafe, hle⟩ := addWord_spec hsum hword
        rw [index_eq (by omega), index_eq hmore, pure_bind, pure_bind, safe_bind, value_bind,
          check_bind hbound]
        exact ⟨⟨hsafe, (hnext _ hle).1⟩, (hnext _ hle).2⟩
    · rw [dif_neg hmore]
      exact ⟨safe_pure _, hsum⟩

theorem foldedSum_safe (bytes : Bytes) (hlen : bytes.length < 2^63) (field : ℕ)
    (hfield : field+2 < usizeLimit) : (foldedSum bytes field).Safe := by
  obtain ⟨hsafe, hle⟩ :=
    checksumLoop_spec bytes hlen field hfield 0 0 (Nat.zero_le _) (Nat.zero_le _)
  rw [foldedSum, safe_bind]
  refine ⟨hsafe, ?_⟩
  dsimp only
  unfold addLastByte
  split
  · rename_i hlast
    rw [index_eq hlast, pure_bind]
    exact (addWord_spec hle ((UInt8.toNat_lt _).trans (by decide))).1
  · exact safe_pure _

/-- The checksum is only computed if one is stored, and then it fits. -/
def PeHeaders.ChecksumFits (headers : PeHeaders) (bytes : Bytes) : Prop :=
  ∀ stored, (u32At bytes headers.checksumOffset).value = some stored → stored ≠ 0 →
    (foldedSum bytes headers.checksumOffset).value+bytes.length%u32Limit < u32Limit

theorem PeHeaders.safe_checksumMismatch_iff (headers : PeHeaders) (hplaced : headers.Placed)
    (bytes : Bytes) (hlen : bytes.length < 2^63) :
    (headers.checksumMismatch bytes).Safe ↔ headers.ChecksumFits bytes := by
  have hoffset : headers.checksumOffset < offsetLimit := by
    have hchecksum := hplaced.checksum
    unfold offsetLimit
    omega
  have hfield : headers.checksumOffset+2 < usizeLimit := offsetLimit_add_lt hoffset (by decide)
  rw [checksumMismatch, safe_bind, and_iff_right (safe_u32At hoffset)]
  unfold ChecksumFits
  cases (u32At bytes headers.checksumOffset).value with
  | none => exact iff_of_true (safe_pure _) (by simp)
  | some stored =>
    dsimp only
    by_cases hstored : stored = 0
    · rw [if_pos hstored]
      exact iff_of_true (safe_pure _) (by simp [hstored])
    · rw [if_neg hstored, safe_bind, checksumOf, safe_bind,
        and_iff_right (foldedSum_safe bytes hlen _ hfield), safe_addIn, and_iff_left (safe_pure _)]
      simp [hstored]

section Analysis
variable {ε : Type}

structure HashFunctions.Succeed (hashes : HashFunctions ε) (bytes : Bytes) (imports : List Import) :
    Prop where
  imphash : imports ≠ [] → ∃ digest, hashes.md5 (utf8Bytes (imphashInput imports)) = .ok digest
  sha256 : ∃ digest, hashes.sha256 bytes = .ok digest
  sha1 : ∃ digest, hashes.sha1 bytes = .ok digest
  md5 : ∃ digest, hashes.md5 bytes = .ok digest

theorem safe_hashed_bind {β : Type} (result : Except ε Bytes) (f : Bytes → Parsing ε β) {p : Prop}
    (hf : ∀ digest, (f digest).run.Safe ↔ p) :
    (hashed result >>= f).run.Safe ↔ ((∃ digest, result = .ok digest) → p) := by
  rw [safe_run_bind]
  cases result with
  | error e =>
    refine iff_of_true ⟨safe_pure _, ?_⟩ ?_
    · rintro _ ⟨⟩
    · rintro ⟨_, ⟨⟩⟩
  | ok digest =>
    rw [and_iff_right (show (hashed (.ok digest : Except ε Bytes)).run.Safe from safe_pure _)]
    constructor
    · intro h _
      exact (hf digest).mp (h digest rfl)
    · intro h other _
      exact (hf other).mpr (h ⟨digest, rfl⟩)

theorem safe_imphashOf_bind {β : Type} (hashes : HashFunctions ε) (imports : List Import)
    (f : Option Bytes → Parsing ε β) {p : Prop} (hf : ∀ imphash, (f imphash).run.Safe ↔ p) :
    (imphashOf hashes imports >>= f).run.Safe ↔
      ((imports ≠ [] → ∃ digest, hashes.md5 (utf8Bytes (imphashInput imports)) = .ok digest) → p) := by
  unfold imphashOf
  split
  · rename_i hempty
    rw [pure_bind, hf none]
    simp [hempty]
  · rename_i hsome
    rw [map_eq_pure_bind, bind_assoc]
    simp only [pure_bind]
    rw [safe_hashed_bind _ _ fun digest => hf (some digest)]
    simp [hsome]

/-- The analysis ends without a panic exactly when the headers are refused, or every address that
the import walk translates and the sums of the checksum stay below 4 GiB. -/
theorem analyze_pe_bytes_no_panic_iff (hashes : HashFunctions ε) (bytes : Slice UInt8) :
    (∃ result, (analyzePeBytes hashes bytes.toList).run.outcome = .ok result) ↔
      ∀ headers, (PeHeaders.parse bytes.toList : Parsing ε PeHeaders).run.value = .ok headers →
        headers.ImportsFit bytes.toList ∧
        (hashes.Succeed bytes.toList (headers.parseImports bytes.toList).value →
          headers.ChecksumFits bytes.toList) := by
  have hparse : Yields (PeHeaders.parse bytes.toList : Parsing ε PeHeaders) PeHeaders.Placed :=
    yields_parse
  rw [exists_outcome_iff, analyzePeBytes, safe_run_bind, and_iff_right hparse.safe]
  refine forall_congr' fun headers => forall_congr' fun hheaders => ?_
  have hplaced := hparse.post headers hheaders
  have hcom := headers.safe_dataDirectory bytes.toList hplaced PeHeaders.directoryComDescriptor
    (by decide)
  rw [safe_run_lift_bind, headers.safe_parseImports_iff bytes.toList hplaced]
  refine and_congr_right' ?_
  -- after the hashes only the checksum can fail
  have hrest := headers.safe_checksumMismatch_iff hplaced bytes.toList bytes.length_lt
  refine (safe_imphashOf_bind hashes _ _ fun imphash => safe_hashed_bind _ _ fun sha256 =>
    safe_hashed_bind _ _ fun sha1 =>
      safe_hashed_bind (p := headers.ChecksumFits bytes.toList) _ _ fun md5 => ?_).trans ?_
  · rw [safe_run_lift_bind, and_iff_right hcom, safe_run_lift_bind,
      and_iff_right (headers.safe_hasOverlay _), safe_run_lift_bind, hrest]
    exact and_iff_left (safe_pure _)
  constructor
  · intro h hsucceed
    exact h hsucceed.imphash hsucceed.sha256 hsucceed.sha1 hsucceed.md5
  · intro h himphash hsha256 hsha1 hmd5
    exact h ⟨himphash, hsha256, hsha1, hmd5⟩

end Analysis

def hostilePe : Bytes :=
  [0x4D, 0x5A] ++ List.replicate 58 0 ++ leBytes 4 0x40 ++
    -- signature and file header: one section, 0x70 bytes of optional header
    leBytes 4 0x4550 ++ [0, 0, 1, 0] ++ List.replicate 12 0 ++ [0x70, 0, 0, 0] ++
    -- optional header: PE32, two directories
    leBytes 2 0x10B ++ List.replicate 90 0 ++ leBytes 4 2 ++ List.replicate 8 0 ++
    leBytes 4 0x1001 ++ leBytes 4 1 ++
    -- section header
    List.replicate 8 0 ++ leBytes 4 0x1000 ++ leBytes 4 0x1000 ++ leBytes 4 0 ++ leBytes 4 0xFFFFFFFF

def emptyHashes : HashFunctions Unit := ⟨fun _ => .ok [], fun _ => .ok [], fun _ => .ok []⟩

theorem analyze_pe_bytes_overflows :
    (analyzePeBytes emptyHashes hostilePe).run.outcome = .error .overflow := by
  decide +kernel

end WindowsErg.File.Pe
