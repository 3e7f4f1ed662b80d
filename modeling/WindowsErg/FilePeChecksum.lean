import Mathlib.Algebra.BigOperators.Intervals
import Mathlib.Data.List.GetD
import WindowsErg.EndAroundSum
import WindowsErg.FilePeHeaders

/-! What the checksum of an executable is, and when a stored one verifies. -/
namespace WindowsErg.File.Pe
open List ByteCodec GuardedRun Guarded EndAroundSum

def wordAt (bytes : Bytes) (i : ℕ) : ℕ := ofLe ((bytes.drop i).take 2)

def wordOutside (field : ℕ) (bytes : Bytes) (i : ℕ) : ℕ :=
  if i = field ∨ i = field+2 then 0 else wordAt bytes i

def plainSum (bytes : Bytes) (field : ℕ) : ℕ :=
  ∑ k ∈ Finset.range (bytes.length/2), wordOutside field bytes (2*k) +
    if bytes.length%2 = 1 then wordAt bytes (bytes.length-1) else 0

theorem wordAt_lt (bytes : Bytes) (i : ℕ) : wordAt bytes i ≤ 65535 := by
  have hlt := ofLe_lt ((bytes.drop i).take 2)
  have hlen : ((bytes.drop i).take 2).length ≤ 2 := length_take_le 2 _
  have hpow : 256^((bytes.drop i).take 2).length ≤ 256^2 := Nat.pow_le_pow_right (by omega) hlen
  unfold wordAt
  omega

theorem wordAt_pair {bytes : Bytes} {i : ℕ} (h : i+1 < bytes.length) :
    wordAt bytes i = ofLe [bytes.getD i default, bytes.getD (i+1) default] := by
  rw [wordAt, drop_eq_getElem_cons (by omega), drop_eq_getElem_cons h,
    getD_eq_getElem _ _ (by omega), getD_eq_getElem _ _ h]
  rfl

theorem wordAt_last {bytes : Bytes} {i : ℕ} (h : i+1 = bytes.length) :
    wordAt bytes i = (bytes.getD i default).toNat := by
  rw [wordAt, drop_eq_getElem_cons (by omega), drop_eq_nil_of_le (by omega),
    getD_eq_getElem _ _ (by omega), take_succ_cons, take_nil, ofLe_cons]
  rfl

theorem value_addWord (n : ℕ) {word : ℕ} (hword : word ≤ 65535) :
    (addWord (endAround 65535 n) word).value = endAround 65535 (n+word) :=
  carry_endAround (by decide) n hword

theorem value_inField (field i : ℕ) :
    (inField field i).value = decide (i = field ∨ i = field+2) := by
  unfold inField
  split
  · rename_i h
    simp [h]
    rfl
  · rename_i h
    simp [h]
    rfl

theorem value_checksumLoop (bytes : Bytes) (field k n : ℕ) (hk : k ≤ bytes.length/2) :
    (checksumLoop bytes field (2*k) (endAround 65535 n)).value =
      (2*(bytes.length/2), endAround 65535
        (n+∑ j ∈ Finset.Ico k (bytes.length/2), wordOutside field bytes (2*j))) := by
  induction hrest : bytes.length/2-k generalizing k n with
  | zero =>
    have hend : k = bytes.length/2 := by omega
    have hstop : ¬ 2*k+1 < bytes.length := by omega
    rw [checksumLoop, value_bind, dif_neg hstop, hend, Finset.Ico_self, Finset.sum_empty, Nat.add_zero]
    rfl
  | succ rest ih =>
    have hmore : 2*k+1 < bytes.length := by omega
    have hnext (total : ℕ) := ih (k+1) total (by omega) (by omega)
    rw [checksumLoop, value_bind, dif_pos hmore, value_bind, value_inField,
      Finset.sum_eq_sum_Ico_succ_bot (by omega), ← Nat.add_assoc]
    by_cases hfield : 2*k = field ∨ 2*k = field+2
    · rw [if_pos (decide_eq_true hfield), value_bind, wordOutside, if_pos hfield, Nat.add_zero]
      exact hnext n
    · rw [if_neg (by simpa using hfield), index_eq (by omega), index_eq hmore, pure_bind, pure_bind,
        value_bind, value_bind, ← wordAt_pair hmore, value_addWord n (wordAt_lt bytes (2*k)),
        wordOutside, if_neg hfield]
      exact hnext _

theorem value_foldedSum (bytes : Bytes) (field : ℕ) :
    (foldedSum bytes field).value = endAround 65535 (plainSum bytes field) := by
  have hloop := value_checksumLoop bytes field 0 0 (Nat.zero_le _)
  rw [Nat.mul_zero, endAround_zero, Nat.zero_add, Nat.Ico_zero_eq_range] at hloop
  rw [foldedSum, value_bind, hloop, plainSum]
  dsimp only
  unfold addLastByte
  -- one byte is left exactly if the length is odd
  by_cases hodd : bytes.length%2 = 1
  · have hlast : 2*(bytes.length/2) = bytes.length-1 := by omega
    rw [hlast, if_pos (by omega), if_pos hodd, index_eq (by omega), pure_bind,
      ← wordAt_last (by omega), value_addWord _ (wordAt_lt bytes _)]
  · rw [if_neg (by omega), if_neg hodd, Nat.add_zero]
    rfl

theorem checksumOf_outcome (bytes : Bytes) (hlen : bytes.length < 2^32-65536) (field : ℕ)
    (hfield : field+4 ≤ usizeLimit) :
    (checksumOf bytes field).outcome = .ok (bytes.length+endAround 65535 (plainSum bytes field)) := by
  have hsafe := foldedSum_safe bytes (by omega) field (by omega)
  have hsum := endAround_le (m := 65535) (by decide) (plainSum bytes field)
  have hmod : bytes.length%u32Limit = bytes.length := by
    apply Nat.mod_eq_of_lt
    unfold u32Limit
    omega
  rw [outcome_eq_ok_iff, checksumOf, safe_bind, value_bind, value_foldedSum, hmod, safe_addIn,
    value_addIn]
  refine ⟨⟨hsafe, ?_⟩, Nat.add_comm _ _⟩
  unfold u32Limit
  omega

structure SameOutside (field : ℕ) (bytes other : Bytes) : Prop where
  length : other.length = bytes.length
  get : ∀ i, i < field ∨ field+4 ≤ i → other[i]? = bytes[i]?

def writeField (bytes : Bytes) (field value : ℕ) : Bytes :=
  bytes.take field ++ leBytes 4 value ++ bytes.drop (field+4)

theorem sameOutside_set {field i : ℕ} (bytes : Bytes) (b : UInt8) (hlow : field ≤ i)
    (hhigh : i < field+4) : SameOutside field bytes (bytes.set i b) := by
  refine ⟨length_set, fun j hj => ?_⟩
  rw [List.getElem?_set_ne (by omega)]

theorem sameOutside_writeField {bytes : Bytes} {field : ℕ} (hfield : field+4 ≤ bytes.length)
    (value : ℕ) : SameOutside field bytes (writeField bytes field value) := by
  have htake : (bytes.take field).length = field := by
    rw [length_take]
    omega
  have hfront : (bytes.take field ++ leBytes 4 value).length = field+4 := by
    rw [length_append, htake, leBytes_length]
  refine ⟨?_, fun i hi => ?_⟩
  · rw [writeField, length_append, hfront, length_drop]
    omega
  · unfold writeField
    rcases hi with hi | hi
    · rw [append_assoc, List.getElem?_append_left (by omega), List.getElem?_take_of_lt hi]
    · rw [List.getElem?_append_right (by omega), hfront, List.getElem?_drop]
      congr 1
      omega

theorem u32At_writeField {bytes : Bytes} {field : ℕ} (hfield : field+4 ≤ bytes.length)
    {value : ℕ} (hvalue : value < 2^32) :
    (u32At (writeField bytes field value) field).value = some (UInt32.ofNat value) := by
  have htake : (bytes.take field).length = field := by
    rw [length_take]
    omega
  have hto : (UInt32.ofNat value).toNat = value := by
    rw [UInt32.toNat_ofNat']
    exact Nat.mod_eq_of_lt hvalue
  rw [u32At_eq_some_iff, hto, writeField, append_assoc]
  rw [drop_left' htake, take_left' (leBytes_length 4 value)]

section SameOutside
variable {field : ℕ} {bytes other : Bytes} (h : SameOutside field bytes other)
include h

theorem SameOutside.drop_take {i n : ℕ} (hi : i+n ≤ field ∨ field+4 ≤ i) :
    (other.drop i).take n = (bytes.drop i).take n := by
  apply ext_getElem?
  intro j
  rw [List.getElem?_take, List.getElem?_take]
  split
  · rw [List.getElem?_drop, List.getElem?_drop]
    exact h.get (i+j) (by omega)
  · rfl

theorem SameOutside.numberAt {width i : ℕ} (hi : i+width ≤ field ∨ field+4 ≤ i) :
    (numberAt width other i).value = (numberAt width bytes i).value := by
  rw [value_numberAt, value_numberAt, h.length, h.drop_take hi]

theorem SameOutside.u16At {i : ℕ} (hi : i+2 ≤ field ∨ field+4 ≤ i) :
    (u16At other i).value = (u16At bytes i).value :=
  congrArg (Option.map UInt16.ofNat) (h.numberAt hi)

theorem SameOutside.u32At {i : ℕ} (hi : i+4 ≤ field ∨ field+4 ≤ i) :
    (u32At other i).value = (u32At bytes i).value :=
  congrArg (Option.map UInt32.ofNat) (h.numberAt hi)

theorem SameOutside.sectionAt {base : ℕ} (hbase : base+24 ≤ field ∨ field+4 ≤ base+8) :
    sectionAt other base = sectionAt bytes base := by
  unfold Pe.sectionAt
  rw [h.u32At (by omega), h.u32At (by omega), h.u32At (by omega), h.u32At (by omega)]

theorem SameOutside.plainSum (heven : field%2 = 0) (hfield : field+4 ≤ bytes.length) :
    plainSum other field = plainSum bytes field := by
  have hword (i : ℕ) (hi : i%2 = 0) : wordOutside field other i = wordOutside field bytes i := by
    unfold wordOutside
    split
    · rfl
    · exact congrArg ofLe (h.drop_take (by omega))
  have hlast (hodd : bytes.length%2 = 1) :
      wordAt other (bytes.length-1) = wordAt bytes (bytes.length-1) :=
    congrArg ofLe (h.drop_take (by omega))
  rw [Pe.plainSum, Pe.plainSum, h.length]
  congr 1
  · exact Finset.sum_congr rfl fun k _ => hword (2*k) (by omega)
  · split
    · rename_i hodd
      exact hlast hodd
    · rfl

end SameOutside

theorem plainSum_set_odd {bytes : Bytes} {field : ℕ} (hodd : field%2 = 1)
    (hfield : field+4 ≤ bytes.length) :
    plainSum (bytes.set field 1) field = plainSum (bytes.set field 0) field+256 := by
  have hlength (b : UInt8) : (bytes.set field b).length = bytes.length := length_set
  have hget (b : UInt8) (i : ℕ) : (bytes.set field b).getD i default =
      if i = field then b else bytes.getD i default := by
    rw [getD_eq_getElem?_getD, List.getElem?_set]
    by_cases hi : i = field
    · rw [if_pos hi.symm, if_pos (by omega), if_pos hi]
      rfl
    · rw [if_neg (Ne.symm hi), if_neg hi, getD_eq_getElem?_getD]
  have hword (k : ℕ) (hk : k < bytes.length/2) :
      wordOutside field (bytes.set field 1) (2*k) =
        wordOutside field (bytes.set field 0) (2*k)+if k = field/2 then 256 else 0 := by
    have houtside : ¬ (2*k = field ∨ 2*k = field+2) := by omega
    have hpair (b : UInt8) : 2*k+1 < (bytes.set field b).length := by
      rw [hlength]
      omega
    have hlow (b : UInt8) : (bytes.set field b).getD (2*k) default = bytes.getD (2*k) default := by
      rw [hget, if_neg (by omega)]
    rw [wordOutside, if_neg houtside, wordOutside, if_neg houtside, wordAt_pair (hpair 1),
      wordAt_pair (hpair 0), hlow, hlow, hget, hget]
    by_cases hk' : k = field/2
    · have hplace : 2*k+1 = field := by omega
      have hone : (1 : UInt8).toNat = 1 := rfl
      have hzero : (0 : UInt8).toNat = 0 := rfl
      rw [if_pos hplace, if_pos hplace, if_pos hk']
      simp only [ofLe_cons, ofLe_nil]
      omega
    · have hplace : 2*k+1 ≠ field := by omega
      rw [if_neg hplace, if_neg hplace, if_neg hk']
      exact (Nat.add_zero _).symm
  have hlast (b : UInt8) : wordAt (bytes.set field b) (bytes.length-1) =
      (bytes.getD (bytes.length-1) default).toNat := by
    rw [wordAt_last (by rw [hlength]; omega), hget, if_neg (by omega)]
  have hsum : ∑ k ∈ Finset.range (bytes.length/2), wordOutside field (bytes.set field 1) (2*k) =
      ∑ k ∈ Finset.range (bytes.length/2), wordOutside field (bytes.set field 0) (2*k)+256 := by
    rw [Finset.sum_congr rfl fun k hk => hword k (Finset.mem_range.mp hk), Finset.sum_add_distrib,
      Finset.sum_ite_eq', if_pos (Finset.mem_range.mpr (by omega))]
  rw [plainSum, plainSum, hlength, hlength, hlast, hlast, hsum]
  omega

def Accepts (bytes : Bytes) (headers : PeHeaders) : Prop :=
  (PeHeaders.parse bytes : Parsing Empty PeHeaders).run.outcome = .ok (.ok headers)

namespace PeHeaders
variable (headers : PeHeaders) (bytes : Bytes)

def Verifies : Prop :=
  ∃ checksum, (checksumOf bytes headers.checksumOffset).outcome = .ok checksum ∧
    Accepts (writeField bytes headers.checksumOffset checksum) headers ∧
    (headers.checksumMismatch (writeField bytes headers.checksumOffset checksum)).outcome = .ok false

def Independent : Prop :=
  ∀ other, SameOutside headers.checksumOffset bytes other → Accepts other headers ∧
    (checksumOf other headers.checksumOffset).outcome =
      (checksumOf bytes headers.checksumOffset).outcome

/-- `SizeOfOptionalHeader`: the field of the checksum is 0x44 bytes further on. -/
def sizeOfOptionalHeader : ℕ :=
  ((u16At bytes (headers.checksumOffset-0x44)).value.getD 0).toNat

/-- The field is at an even place, and the optional header is not so short that the header of one
of the first two sections reaches into it. -/
structure FieldApart : Prop where
  even : headers.checksumOffset%2 = 0
  first : 0 < headers.sections.length →
    ¬ (40 < headers.sizeOfOptionalHeader bytes ∧ headers.sizeOfOptionalHeader bytes < 60)
  second : 1 < headers.sections.length →
    ¬ (0 < headers.sizeOfOptionalHeader bytes ∧ headers.sizeOfOptionalHeader bytes < 20)

end PeHeaders

section Frame
variable {frame : Frame} {bytes other : Bytes} {sections : List Section}

theorem Frame.ReadFrom.of_sameOutside (hread : frame.ReadFrom bytes)
    (h : SameOutside (frame.optionalHeader+0x40) bytes other) : frame.ReadFrom other := by
  -- only the number of directories is behind the field
  have hoptional : frame.optionalHeader = frame.lfanew.toNat+24 := rfl
  refine ⟨?_, ?_, ?_, ?_, ?_, ?_, hread.known, ?_⟩
  · rw [h.u16At (by omega), hread.dosSignature]
  · rw [h.u32At (by omega), hread.lfanew]
  · rw [h.u32At (by omega), hread.signature]
  · rw [h.u16At (by omega), hread.numberOfSections]
  · rw [h.u16At (by omega), hread.sizeOfOptionalHeader]
  · rw [h.u16At (by omega), hread.magic]
  · rw [h.u32At (by split <;> omega), hread.numberOfRvaAndSizes]

theorem Frame.SectionsFrom.of_sameOutside (hsections : frame.SectionsFrom bytes sections)
    (h : SameOutside (frame.optionalHeader+0x40) bytes other)
    (hapart : ∀ j < frame.numberOfSections.toNat,
      frame.sectionHeader j+24 ≤ frame.optionalHeader+0x40 ∨
        frame.optionalHeader+0x40+4 ≤ frame.sectionHeader j+8) :
    frame.SectionsFrom other sections := by
  refine ⟨hsections.length, fun j hj => ?_⟩
  rw [h.sectionAt (hapart j hj), hsections.read j hj]

theorem sizeOfOptionalHeader_eq (hread : frame.ReadFrom bytes) :
    (frame.headers sections).sizeOfOptionalHeader bytes = frame.sizeOfOptionalHeader.toNat := by
  have hplace : (frame.headers sections).checksumOffset-0x44 = frame.lfanew.toNat+4+16 := by
    change frame.lfanew.toNat+4+20+0x40-0x44 = _
    omega
  rw [PeHeaders.sizeOfOptionalHeader, hplace, hread.sizeOfOptionalHeader]
  rfl

theorem fieldApart_iff (hread : frame.ReadFrom bytes) (hsections : frame.SectionsFrom bytes sections) :
    (frame.headers sections).FieldApart bytes ↔ (frame.optionalHeader+0x40)%2 = 0 ∧
      ∀ j < frame.numberOfSections.toNat,
        frame.sectionHeader j+24 ≤ frame.optionalHeader+0x40 ∨
          frame.optionalHeader+0x40+4 ≤ frame.sectionHeader j+8 := by
  have hsize : (frame.headers sections).sizeOfOptionalHeader bytes =
      frame.sizeOfOptionalHeader.toNat := sizeOfOptionalHeader_eq hread
  have hlength : (frame.headers sections).sections.length = frame.numberOfSections.toNat :=
    hsections.length
  have hplace (j : ℕ) : frame.sectionHeader j =
      frame.optionalHeader+frame.sizeOfOptionalHeader.toNat+j*40 := rfl
  constructor
  · rintro ⟨heven, hfirst, hsecond⟩
    rw [hsize, hlength] at hfirst hsecond
    refine ⟨heven, fun j hj => ?_⟩
    rw [hplace]
    obtain rfl | rfl | hlate : j = 0 ∨ j = 1 ∨ 2 ≤ j := by omega
    · have hzero := hfirst hj
      omega
    · have hone := hsecond hj
      omega
    · omega
  · rintro ⟨heven, hapart⟩
    refine ⟨heven, fun hpos hbad => ?_, fun hpos hbad => ?_⟩
    · rw [hlength] at hpos
      rw [hsize] at hbad
      have hzero := hapart 0 hpos
      rw [hplace] at hzero
      omega
    · rw [hlength] at hpos
      rw [hsize] at hbad
      have hone := hapart 1 hpos
      rw [hplace] at hone
      omega

end Frame

theorem getElem?_eq_of_u32At {bytes other : Bytes} {offset i : ℕ} {v : UInt32}
    (h : (u32At bytes offset).value = some v) (h' : (u32At other offset).value = some v)
    (hlow : offset ≤ i) (hhigh : i < offset+4) : bytes[i]? = other[i]? := by
  have hblock := ((u32At_eq_some_iff v).mp h).trans ((u32At_eq_some_iff v).mp h').symm
  have hbyte := congrArg (·[i-offset]?) hblock
  rwa [List.getElem?_take_of_lt (by omega), List.getElem?_take_of_lt (by omega), List.getElem?_drop,
    List.getElem?_drop, Nat.add_sub_cancel' hlow] at hbyte

theorem getElem?_eq_of_sectionAt {bytes other : Bytes} {base i : ℕ} {s : Section}
    (h : sectionAt bytes base = some s) (h' : sectionAt other base = some s) (hlow : base+8 ≤ i)
    (hhigh : i < base+24) : bytes[i]? = other[i]? := by
  simp only [sectionAt, Option.bind_eq_bind, Option.bind_eq_some_iff, Option.pure_def,
    Option.some.injEq] at h h'
  obtain ⟨vs, hvs, va, hva, rs, hrs, ro, hro, rfl⟩ := h
  obtain ⟨vs', hvs', va', hva', rs', hrs', ro', hro', hsame⟩ := h'
  cases hsame
  obtain hi | hi | hi | hi :
      i < base+12 ∨ (base+12 ≤ i ∧ i < base+16) ∨ (base+16 ≤ i ∧ i < base+20) ∨ base+20 ≤ i := by
    omega
  · exact getElem?_eq_of_u32At hvs hvs' hlow (by omega)
  · exact getElem?_eq_of_u32At hva hva' hi.1 (by omega)
  · exact getElem?_eq_of_u32At hrs hrs' hi.1 (by omega)
  · exact getElem?_eq_of_u32At hro hro' hi (by omega)

namespace PeHeaders
variable {headers : PeHeaders} {bytes : Bytes}

theorem Independent.set (h : headers.Independent bytes) {i : ℕ} (hlow : headers.checksumOffset ≤ i)
    (hhigh : i < headers.checksumOffset+4) :
    (Accepts (bytes.set i 0) headers ∧ Accepts (bytes.set i 1) headers) ∧
      (checksumOf (bytes.set i 0) headers.checksumOffset).outcome =
        (checksumOf (bytes.set i 1) headers.checksumOffset).outcome := by
  obtain ⟨haccepts₀, hsum₀⟩ := h _ (sameOutside_set bytes 0 hlow hhigh)
  obtain ⟨haccepts₁, hsum₁⟩ := h _ (sameOutside_set bytes 1 hlow hhigh)
  exact ⟨⟨haccepts₀, haccepts₁⟩, hsum₀.trans hsum₁.symm⟩

theorem Independent.even (hlen : bytes.length < 2^32-65536)
    (hfield : headers.checksumOffset+4 ≤ bytes.length) (h : headers.Independent bytes) :
    headers.checksumOffset%2 = 0 := by
  by_contra hodd
  have hsame := (h.set le_rfl (by omega)).2
  have hlimit : headers.checksumOffset+4 ≤ usizeLimit := by
    unfold usizeLimit
    omega
  have hclosed (b : UInt8) : (checksumOf (bytes.set headers.checksumOffset b)
      headers.checksumOffset).outcome = .ok (bytes.length+endAround 65535
        (plainSum (bytes.set headers.checksumOffset b) headers.checksumOffset)) := by
    have hset : (bytes.set headers.checksumOffset b).length = bytes.length := length_set
    rw [checksumOf_outcome _ (hset ▸ hlen) _ hlimit, hset]
  rw [hclosed 0, hclosed 1, plainSum_set_odd (by omega) hfield, Except.ok.injEq] at hsame
  -- 256 is not a multiple of 65535
  have hmod := congrArg (·%65535) (Nat.add_left_cancel hsame)
  simp only [endAround_mod] at hmod
  omega

theorem accepts_iff : Accepts bytes headers ↔ ∃ frame : Frame, ∃ sections, frame.ReadFrom bytes ∧
    frame.SectionsFrom bytes sections ∧ headers = frame.headers sections :=
  parse_outcome_iff headers

theorem Independent.apart {frame : Frame} {sections : List Section} (hread : frame.ReadFrom bytes)
    (hfield : (frame.headers sections).checksumOffset+4 ≤ bytes.length)
    (h : (frame.headers sections).Independent bytes) :
    ∀ j < frame.numberOfSections.toNat, frame.sectionHeader j+24 ≤ frame.optionalHeader+0x40 ∨
      frame.optionalHeader+0x40+4 ≤ frame.sectionHeader j+8 := by
  intro j hj
  by_contra hreach
  have hoffset : (frame.headers sections).checksumOffset = frame.optionalHeader+0x40 := rfl
  -- a byte both of the field and of the section header
  let i := max (frame.sectionHeader j+8) (frame.optionalHeader+0x40)
  have hi : i < bytes.length := by omega
  obtain ⟨⟨haccepts₀, haccepts₁⟩, -⟩ := h.set (i := i) (by omega) (by omega)
  have hsection (b : UInt8) (haccepts : Accepts (bytes.set i b) (frame.headers sections)) :
      frame.SectionsFrom (bytes.set i b) sections := by
    obtain ⟨frame', sections', hread', hsections', hsame⟩ := accepts_iff.mp haccepts
    have hframe := hread'.unique
      (hread.of_sameOutside (sameOutside_set bytes b (by omega) (by omega)))
    subst hframe
    have hsections : sections = sections' := congrArg PeHeaders.sections hsame
    rwa [hsections]
  have hread₀ := (hsection 0 haccepts₀).read j hj
  have hread₁ := (hsection 1 haccepts₁).read j hj
  obtain ⟨s, hs⟩ : ∃ s, sections[j]? = some s :=
    ⟨_, List.getElem?_eq_getElem (by rw [(hsection 0 haccepts₀).length]; exact hj)⟩
  rw [hs] at hread₀ hread₁
  have hbyte := getElem?_eq_of_sectionAt hread₀ hread₁ (i := i) (by omega) (by omega)
  rw [List.getElem?_set_self hi, List.getElem?_set_self hi] at hbyte
  cases hbyte

theorem FieldApart.independent (haccepts : Accepts bytes headers)
    (hlen : bytes.length < 2^32-65536) (hfield : headers.checksumOffset+4 ≤ bytes.length)
    (h : headers.FieldApart bytes) : headers.Independent bytes := by
  obtain ⟨frame, sections, hread, hsections, rfl⟩ := accepts_iff.mp haccepts
  obtain ⟨heven, hapart⟩ := (fieldApart_iff hread hsections).mp h
  intro other hsame
  have hlimit : (frame.headers sections).checksumOffset+4 ≤ usizeLimit := by
    unfold usizeLimit
    omega
  constructor
  · exact accepts_iff.mpr ⟨frame, sections, hread.of_sameOutside hsame,
      hsections.of_sameOutside hsame hapart, rfl⟩
  · rw [checksumOf_outcome bytes hlen _ hlimit,
      checksumOf_outcome other (hsame.length ▸ hlen) _ hlimit, hsame.length,
      hsame.plainSum heven hfield]

theorem Independent.verifies (hlen : bytes.length < 2^32-65536)
    (hfield : headers.checksumOffset+4 ≤ bytes.length) (h : headers.Independent bytes) :
    headers.Verifies bytes := by
  have hlimit : headers.checksumOffset+4 ≤ usizeLimit := by
    unfold usizeLimit
    omega
  have hclosed := checksumOf_outcome bytes hlen headers.checksumOffset hlimit
  have hsum := endAround_le (m := 65535) (by decide) (plainSum bytes headers.checksumOffset)
  have hlt : bytes.length+endAround 65535 (plainSum bytes headers.checksumOffset) < 2^32 := by omega
  refine ⟨_, hclosed, ?_⟩
  generalize bytes.length+endAround 65535 (plainSum bytes headers.checksumOffset) = checksum
    at hclosed hlt ⊢
  obtain ⟨haccepts, hsame⟩ := h _ (sameOutside_writeField hfield checksum)
  refine ⟨haccepts, ?_⟩
  have hcomputed := outcome_eq_ok_iff.mp (hsame.trans hclosed)
  have hread : u32At (writeField bytes headers.checksumOffset checksum) headers.checksumOffset =
      pure (some (UInt32.ofNat checksum)) := by
    rw [eq_pure_of_safe (safe_u32At _), u32At_writeField hfield hlt]
    unfold offsetLimit
    omega
  rw [checksumMismatch, hread, pure_bind]
  dsimp only
  split
  · exact outcome_pure false
  · have hto : (UInt32.ofNat checksum).toNat = checksum := by
      rw [UInt32.toNat_ofNat']
      exact Nat.mod_eq_of_lt hlt
    rw [eq_pure_of_safe hcomputed.1, pure_bind, hcomputed.2, hto, outcome_pure]
    simp

end PeHeaders

def headersAt (lfanew : ℕ) : Bytes :=
  [0x4D, 0x5A] ++ List.replicate 58 0 ++ leBytes 4 lfanew ++ List.replicate (lfanew-64) 0 ++
    -- signature, file header and optional header
    leBytes 4 0x4550 ++ List.replicate 20 0 ++ leBytes 2 0x10B ++ List.replicate 94 0

def frameAt (lfanew : ℕ) : Frame := ⟨UInt32.ofNat lfanew, 0, 0, magicPe32, 0⟩

theorem accepts_headersAt {lfanew : ℕ} (h : lfanew = 64 ∨ lfanew = 65) :
    Accepts (headersAt lfanew) ((frameAt lfanew).headers []) := by
  refine PeHeaders.accepts_iff.mpr ⟨frameAt lfanew, [], ⟨?_, ?_, ?_, ?_, ?_, ?_, .inl rfl, ?_⟩,
    ⟨rfl, nofun⟩, rfl⟩
  all_goals
    obtain rfl | rfl := h
    · decide +kernel
    · decide +kernel

end WindowsErg.File.Pe
