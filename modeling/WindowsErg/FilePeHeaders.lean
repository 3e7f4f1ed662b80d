import WindowsErg.FilePeSafe

/-! What the parser of the headers accepts: which numbers it reads, and where. -/
namespace WindowsErg.File.Pe
open List ByteCodec GuardedRun Guarded

structure Frame where
  lfanew : UInt32
  numberOfSections : UInt16
  sizeOfOptionalHeader : UInt16
  magic : UInt16
  numberOfRvaAndSizes : UInt32

def sectionAt (bytes : Bytes) (base : ℕ) : Option Section := do
  let virtualSize ← (u32At bytes (base+8)).value
  let virtualAddress ← (u32At bytes (base+12)).value
  let rawSize ← (u32At bytes (base+16)).value
  let rawOffset ← (u32At bytes (base+20)).value
  pure ⟨virtualAddress, virtualSize, rawOffset, rawSize⟩

namespace Frame
variable (frame : Frame)

def optionalHeader : ℕ := frame.lfanew.toNat+4+20

def is64bit : Bool := frame.magic = magicPe32Plus

def sectionHeader (j : ℕ) : ℕ :=
  frame.optionalHeader+frame.sizeOfOptionalHeader.toNat+j*40

structure ReadFrom (bytes : Bytes) : Prop where
  dosSignature : (u16At bytes 0).value = some 0x5A4D
  lfanew : (u32At bytes 0x3C).value = some frame.lfanew
  signature : (u32At bytes frame.lfanew.toNat).value = some 0x00004550
  numberOfSections : (u16At bytes (frame.lfanew.toNat+4+2)).value = some frame.numberOfSections
  sizeOfOptionalHeader :
    (u16At bytes (frame.lfanew.toNat+4+16)).value = some frame.sizeOfOptionalHeader
  magic : (u16At bytes frame.optionalHeader).value = some frame.magic
  known : frame.magic = magicPe32 ∨ frame.magic = magicPe32Plus
  numberOfRvaAndSizes :
    (u32At bytes (frame.optionalHeader+if frame.is64bit then 0x6C else 0x5C)).value =
      some frame.numberOfRvaAndSizes

structure SectionsFrom (bytes : Bytes) (sections : List Section) : Prop where
  length : sections.length = frame.numberOfSections.toNat
  read : ∀ j < frame.numberOfSections.toNat, sectionAt bytes (frame.sectionHeader j) = sections[j]?

def headers (sections : List Section) : PeHeaders where
  is64bit := frame.is64bit
  checksumOffset := frame.optionalHeader+0x40
  numberOfRvaAndSizes := frame.numberOfRvaAndSizes
  dataDirectoryOffset := frame.optionalHeader+if frame.is64bit then 0x70 else 0x60
  sections := sections

end Frame

section Parse
variable {ε α : Type} {bytes : Bytes}

theorem value_required_eq_ok {number : Guarded (Option α)} {reason : String} {a : α} :
    (required number reason : Parsing ε α).run.value = .ok a ↔ number.value = some a := by
  unfold required
  rw [value_run_bind_eq_ok, value_run_lift]
  simp only [Except.ok.injEq, exists_eq_left']
  cases number.value with
  | none => exact iff_of_false nofun nofun
  | some found =>
    rw [Option.some.injEq]
    exact Except.ok.injEq _ _ |>.to_iff

theorem value_ensure_eq_ok {p : Prop} [Decidable p] {reason : String} {u : PUnit} :
    (ensure p reason : Parsing ε PUnit).run.value = .ok u ↔ p := by
  unfold ensure
  split
  · rename_i h
    exact iff_of_true rfl h
  · rename_i h
    exact iff_of_false nofun h

theorem parseSections_eq_ok_iff (table n i : ℕ) (sections result : List Section) :
    (parseSections bytes table n i sections : Parsing ε (List Section)).run.value = .ok result ↔
      ∃ more, result = sections ++ more ∧ more.length = n ∧
        ∀ j < n, sectionAt bytes (table+(i+j)*40) = more[j]? := by
  induction n generalizing i sections with
  | zero =>
    constructor
    · intro h
      cases h
      exact ⟨[], (append_nil result).symm, rfl, nofun⟩
    · rintro ⟨more, rfl, hlength, -⟩
      rw [length_eq_zero_iff.mp hlength, append_nil]
      rfl
  | succ n ih =>
    simp only [parseSections, value_run_bind_eq_ok, value_run_lift, Except.ok.injEq, exists_eq_left',
      value_required_eq_ok, value_bind, value_mulIn, value_addIn, ih]
    constructor
    · rintro ⟨vs, hvs, va, hva, rs, hrs, ro, hro, more, rfl, hlength, hmore⟩
      refine ⟨⟨va, vs, ro, rs⟩ :: more, by rw [append_assoc]; rfl, by simp [hlength], ?_⟩
      intro j hj
      cases j with
      | zero => simp [sectionAt, hvs, hva, hrs, hro]
      | succ j =>
        rw [List.getElem?_cons_succ, ← hmore j (by omega)]
        congr 3
        omega
    · rintro ⟨_ | ⟨s, more⟩, rfl, hlength, hmore⟩
      · cases hlength
      have hfirst := hmore 0 (by omega)
      rw [Nat.add_zero, List.getElem?_cons_zero, sectionAt] at hfirst
      simp only [Option.bind_eq_bind, Option.bind_eq_some_iff, Option.pure_def, Option.some.injEq]
        at hfirst
      obtain ⟨vs, hvs, va, hva, rs, hrs, ro, hro, rfl⟩ := hfirst
      refine ⟨vs, hvs, va, hva, rs, hrs, ro, hro, more, by rw [append_assoc]; rfl,
        Nat.succ.inj hlength, ?_⟩
      intro j hj
      rw [← List.getElem?_cons_succ, ← hmore (j+1) (by omega)]
      congr 3
      omega

theorem parse_eq_ok_iff (headers : PeHeaders) :
    (PeHeaders.parse bytes : Parsing ε PeHeaders).run.value = .ok headers ↔
      ∃ frame : Frame, ∃ sections, frame.ReadFrom bytes ∧ frame.SectionsFrom bytes sections ∧
        headers = frame.headers sections := by
  simp only [PeHeaders.parse, value_run_bind_eq_ok, value_run_lift, Except.ok.injEq, exists_eq_left',
    value_required_eq_ok, value_bind, value_addIn, value_ensure_eq_ok, exists_const,
    parseSections_eq_ok_iff]
  constructor
  · rintro ⟨hdos, lfanew, hlfanew, hsignature, number, hnumber, size, hsize, magic, hmagic, hknown,
      count, hcount, sections, ⟨_, rfl, hlength, hsections⟩, hheaders⟩
    cases hheaders
    refine ⟨⟨lfanew, number, size, magic, count⟩, sections,
      ⟨hdos, hlfanew, hsignature, hnumber, hsize, hmagic, hknown, hcount⟩, ⟨hlength, ?_⟩, rfl⟩
    intro j hj
    rw [← hsections j hj, Nat.zero_add]
    rfl
  · rintro ⟨frame, sections, hread, hsections, rfl⟩
    refine ⟨hread.dosSignature, frame.lfanew, hread.lfanew, hread.signature, frame.numberOfSections,
      hread.numberOfSections, frame.sizeOfOptionalHeader, hread.sizeOfOptionalHeader, frame.magic,
      hread.magic, hread.known, frame.numberOfRvaAndSizes, hread.numberOfRvaAndSizes, sections,
      ⟨sections, rfl, hsections.length, ?_⟩, rfl⟩
    intro j hj
    rw [← hsections.read j hj, Nat.zero_add]
    rfl

theorem parse_outcome_iff (headers : PeHeaders) :
    (PeHeaders.parse bytes : Parsing ε PeHeaders).run.outcome = .ok (.ok headers) ↔
      ∃ frame : Frame, ∃ sections, frame.ReadFrom bytes ∧ frame.SectionsFrom bytes sections ∧
        headers = frame.headers sections := by
  rw [outcome_eq_ok_iff, ← parse_eq_ok_iff headers (ε := ε)]
  exact and_iff_right yields_parse.safe

theorem Frame.ReadFrom.unique {frame frame' : Frame} (h : frame.ReadFrom bytes)
    (h' : frame'.ReadFrom bytes) : frame = frame' := by
  obtain ⟨lfanew, number, size, magic, count⟩ := frame
  obtain ⟨lfanew', number', size', magic', count'⟩ := frame'
  have hlfanew : lfanew = lfanew' := Option.some.inj (h.lfanew.symm.trans h'.lfanew)
  subst hlfanew
  have hnumber : number = number' :=
    Option.some.inj (h.numberOfSections.symm.trans h'.numberOfSections)
  have hsize : size = size' :=
    Option.some.inj (h.sizeOfOptionalHeader.symm.trans h'.sizeOfOptionalHeader)
  have hmagic : magic = magic' := Option.some.inj (h.magic.symm.trans h'.magic)
  subst hnumber hsize hmagic
  have hcount : count = count' :=
    Option.some.inj (h.numberOfRvaAndSizes.symm.trans h'.numberOfRvaAndSizes)
  rw [hcount]

end Parse

section Numbers
variable {bytes : Bytes} {offset : ℕ}

theorem value_numberAt (width : ℕ) :
    (numberAt width bytes offset).value =
      if offset+width ≤ bytes.length then some (ofLe ((bytes.drop offset).take width)) else none := by
  have hvalue : (numberAt width bytes offset).value =
      (getRange bytes offset (offset+width)).map ofLe := rfl
  rw [hvalue, getRange]
  by_cases hfits : offset+width ≤ bytes.length
  · rw [if_pos ⟨by omega, hfits⟩, if_pos hfits, Option.map_some, drop_take]
    congr 4
    omega
  · rw [if_neg fun h => hfits h.2, if_neg hfits, Option.map_none]

theorem numberAt_eq_some_iff {width n : ℕ} (hwidth : 0 < width) (hn : n < 256^width) :
    (numberAt width bytes offset).value = some n ↔
      (bytes.drop offset).take width = leBytes width n := by
  have hlength : ((bytes.drop offset).take width).length = min width (bytes.length-offset) := by
    rw [length_take, length_drop]
  rw [value_numberAt, Option.ite_none_right_eq_some, Option.some.injEq]
  constructor
  · rintro ⟨hfits, rfl⟩
    have hblock := leBytes_ofLe ((bytes.drop offset).take width)
    rw [hlength, min_eq_left (by omega)] at hblock
    exact hblock.symm
  · intro h
    rw [h, leBytes_length] at hlength
    refine ⟨by omega, ?_⟩
    rw [h, ofLe_leBytes width n hn]

theorem map_numberAt_eq_some_iff {ν : Type} {ofNat : ℕ → ν} {toNat : ν → ℕ} {width : ℕ}
    (hwidth : 0 < width) (hlt : ∀ v, toNat v < 256^width) (hof : ∀ v, ofNat (toNat v) = v)
    (hto : ∀ n < 256^width, toNat (ofNat n) = n) (v : ν) :
    (numberAt width bytes offset).value.map ofNat = some v ↔
      (bytes.drop offset).take width = leBytes width (toNat v) := by
  rw [← numberAt_eq_some_iff hwidth (hlt v), Option.map_eq_some_iff]
  constructor
  · rintro ⟨n, hn, rfl⟩
    have hbound : n < 256^width := by
      rw [value_numberAt, Option.ite_none_right_eq_some, Option.some.injEq] at hn
      obtain ⟨-, rfl⟩ := hn
      have hblock := ofLe_lt ((bytes.drop offset).take width)
      exact hblock.trans_le (Nat.pow_le_pow_right (by omega) (length_take_le _ _))
    rw [hto n hbound, hn]
  · intro h
    exact ⟨toNat v, h, hof v⟩

theorem u32At_eq_some_iff (v : UInt32) :
    (u32At bytes offset).value = some v ↔ (bytes.drop offset).take 4 = leBytes 4 v.toNat := by
  refine map_numberAt_eq_some_iff (by decide) (fun v => v.toNat_lt) (fun v => UInt32.ofNat_toNat) ?_ v
  intro n hn
  rw [UInt32.toNat_ofNat']
  exact Nat.mod_eq_of_lt hn

theorem u64At_eq_some_iff (v : UInt64) :
    (u64At bytes offset).value = some v ↔ (bytes.drop offset).take 8 = leBytes 8 v.toNat := by
  refine map_numberAt_eq_some_iff (by decide) (fun v => v.toNat_lt) (fun v => UInt64.ofNat_toNat) ?_ v
  intro n hn
  rw [UInt64.toNat_ofNat']
  exact Nat.mod_eq_of_lt hn

end Numbers

end WindowsErg.File.Pe
