import Mathlib.Data.Nat.Bitwise
import WindowsErg.FilePeHeaders
import WindowsErg.FilePeImphash

/-! What the import walk returns for an image whose import table is well formed. -/
namespace WindowsErg.File.Pe
open List TextScan ByteCodec UnicodeText GuardedRun Guarded

structure AsciiName where
  bytes : Bytes
  length_le : bytes.length ≤ 511
  ascii : ∀ b ∈ bytes, b ≠ 0 ∧ b.toNat < 0x80

def AsciiName.text (name : AsciiName) : Text := name.bytes.map fun b => Char.ofNat b.toNat

inductive Thunk where
  | ordinal (n : UInt16)
  | byName (rva : UInt32) (hint : UInt16) (name : AsciiName)

def Thunk.symbol : Thunk → SymbolRef
  | .ordinal n => .ordinal n
  | .byName _ _ name => .named name.text

def Thunk.number (is64bit : Bool) : Thunk → ℕ
  | .ordinal n => 2^(8*thunkSize is64bit-1)+n.toNat
  | .byName rva _ _ => rva.toNat

structure DllImports where
  descriptor : ImportDescriptor
  /-- The time stamp and the forwarder chain. -/
  stamps : Bytes
  name : AsciiName
  thunks : List Thunk

def encodeDescriptor (d : ImportDescriptor) (stamps : Bytes) : Bytes :=
  leBytes 4 d.originalFirstThunk.toNat ++ (stamps ++ (leBytes 4 d.nameRva.toNat ++
    leBytes 4 d.firstThunk.toNat))

def encodeThunks (is64bit : Bool) (thunks : List Thunk) : Bytes :=
  thunks.flatMap fun t => leBytes (thunkSize is64bit) (t.number is64bit)

def DllImports.refs (d : DllImports) : List ImportRef := d.thunks.map fun t => ⟨d.name.text, t.symbol⟩

def dllsOf (table : List DllImports) : List Text :=
  (table.map fun d => toAsciiLowercase d.name.text).eraseDups

def Section.endAddress (s : Section) : ℕ := s.virtualAddress.toNat+(max s.virtualSize s.rawSize).toNat

namespace PeHeaders
variable (headers : PeHeaders) (bytes : Bytes)

/-- The sections are behind the headers in an address space of 32 bits, and no two of them overlap. -/
structure SectionsApart : Prop where
  positive : ∀ s ∈ headers.sections, 0 < s.virtualAddress.toNat
  below : ∀ s ∈ headers.sections, s.endAddress < u32Limit
  disjoint : ∀ s ∈ headers.sections, ∀ t ∈ headers.sections, s ≠ t →
    s.endAddress ≤ t.virtualAddress.toNat ∨ t.endAddress ≤ s.virtualAddress.toNat

def HoldsAt (rva : UInt32) (content : Bytes) : Prop :=
  ∃ s ∈ headers.sections, s.virtualAddress.toNat ≤ rva.toNat ∧
    rva.toNat+content.length ≤ s.virtualAddress.toNat+s.rawSize.toNat ∧
    ∃ rest, bytes.drop (s.place rva) = content ++ rest

def HoldsSymbol : Thunk → Prop
  | .ordinal _ => True
  | .byName rva hint name => rva.toNat < 2^31 ∧
      headers.HoldsAt bytes rva (leBytes 2 hint.toNat ++ (name.bytes ++ [0]))

structure HoldsDll (d : DllImports) : Prop where
  stamps : d.stamps.length = 8
  name : headers.HoldsAt bytes d.descriptor.nameRva (d.name.bytes ++ [0])
  length_le : d.thunks.length ≤ 4095
  thunks : headers.HoldsAt bytes d.descriptor.thunkRva
    (encodeThunks headers.is64bit d.thunks ++ leBytes (thunkSize headers.is64bit) 0)
  symbols : ∀ t ∈ d.thunks, headers.HoldsSymbol bytes t

def HasDirectory (rva size : UInt32) : Prop :=
  1 < headers.numberOfRvaAndSizes ∧ ∃ rest, bytes.drop (headers.dataDirectoryOffset+8) =
    leBytes 4 rva.toNat ++ (leBytes 4 size.toNat ++ rest)

/-- The image has the import table; an empty one may be missing. -/
structure HoldsTable (table : List DllImports) : Prop where
  length_le : table.length ≤ 4095
  dlls : ∀ d ∈ table, headers.HoldsDll bytes d
  directory : (∃ rva size, headers.HasDirectory bytes rva size ∧ size ≠ 0 ∧ headers.HoldsAt bytes rva
      ((table.flatMap fun d => encodeDescriptor d.descriptor d.stamps) ++
        encodeDescriptor ⟨0, 0, 0⟩ (List.replicate 8 0))) ∨
    table = [] ∧ (headers.numberOfRvaAndSizes ≤ 1 ∨
      ∃ rva size, headers.HasDirectory bytes rva size ∧ (rva = 0 ∨ size = 0))

end PeHeaders

section Reading
variable {bytes rest : Bytes} {offset : ℕ}

theorem value_u32At {v : UInt32} (h : bytes.drop offset = leBytes 4 v.toNat ++ rest) :
    (u32At bytes offset).value = some v := by
  rw [u32At_eq_some_iff, h]
  exact take_left' (leBytes_length 4 _)

theorem value_u64At {v : UInt64} (h : bytes.drop offset = leBytes 8 v.toNat ++ rest) :
    (u64At bytes offset).value = some v := by
  rw [u64At_eq_some_iff, h]
  exact take_left' (leBytes_length 8 _)

theorem value_readDescriptor {d : ImportDescriptor} {stamps : Bytes} (hstamps : stamps.length = 8)
    (h : bytes.drop offset = encodeDescriptor d stamps ++ rest) : (readDescriptor bytes offset).value =
      if d.originalFirstThunk = 0 ∧ d.nameRva = 0 ∧ d.firstThunk = 0 then none else some d := by
  rw [encodeDescriptor, append_assoc, append_assoc, append_assoc] at h
  have hname := drop_add_of_drop _ (drop_add_of_drop _ h)
  have hthunk := drop_add_of_drop _ hname
  simp only [leBytes_length, hstamps, Nat.add_assoc, Nat.reduceAdd] at hname hthunk
  rw [readDescriptor, value_bind, value_u32At h]
  dsimp only
  rw [value_bind, value_bind, value_addIn, value_u32At hname]
  dsimp only
  rw [value_bind, value_bind, value_addIn, value_u32At hthunk]
  rfl

theorem value_readThunk {is64bit : Bool} {n : ℕ} (hn : n < 256^thunkSize is64bit)
    (h : bytes.drop offset = leBytes (thunkSize is64bit) n ++ rest) :
    (readThunk is64bit bytes offset).value = (some (UInt64.ofNat n)).filter (· ≠ 0) := by
  cases is64bit with
  | true =>
    have hto : (UInt64.ofNat n).toNat = n := UInt64.toNat_ofNat_of_lt' hn
    exact congrArg (Option.filter _) (value_u64At (v := UInt64.ofNat n) (by rwa [hto]))
  | false =>
    have hto : (UInt32.ofNat n).toNat = n := UInt32.toNat_ofNat_of_lt' hn
    have hwide : (UInt32.ofNat n).toUInt64 = UInt64.ofNat n := by
      rw [← UInt64.toNat_inj, UInt32.toNat_toUInt64, hto, UInt64.toNat_ofNat_of_lt']
      exact hn.trans (by decide)
    change Option.filter _ (Option.map UInt32.toUInt64 (u32At bytes offset).value) = _
    rw [value_u32At (v := UInt32.ofNat n) (by rwa [hto]), Option.map_some, hwide]

theorem decodeUtf8Lossy_ascii {name : Bytes} (h : ∀ b ∈ name, b.toNat < 0x80) :
    decodeUtf8Lossy name = name.map fun b => Char.ofNat b.toNat := by
  unfold decodeUtf8Lossy
  induction name with
  | nil => rfl
  | cons b name ih =>
    obtain ⟨hb, hname⟩ := forall_mem_cons.mp h
    have hfront : utf8Front b name = (Char.ofNat b.toNat, 0) := if_pos hb
    rw [length_cons, lossyRounds, hfront, drop_zero, ih hname, map_cons]

theorem value_readCString (name : AsciiName) (h : bytes.drop offset = name.bytes ++ 0 :: rest) :
    (readCString bytes offset).value = some name.text := by
  have hle : offset ≤ bytes.length := by
    by_contra hlong
    rw [drop_of_length_le (Nat.le_of_not_le hlong)] at h
    exact append_ne_nil_of_right_ne_nil _ (cons_ne_nil _ _) h.symm
  have hfree : name.bytes.findIdx? (· == 0) = none := by
    rw [List.findIdx?_eq_none_iff]
    intro b hb
    exact beq_false_of_ne (name.ascii b hb).1
  have hlength := name.length_le
  have hroom : 512-name.bytes.length = (511-name.bytes.length)+1 := by omega
  have hfind : ((name.bytes ++ 0 :: rest).take 512).findIdx? (· == 0) = some name.bytes.length := by
    rw [take_append, take_of_length_le (by omega), List.findIdx?_append, hfree, hroom,
      take_succ_cons]
    simp [List.findIdx?_cons]
  rw [readCString, getFrom, if_pos hle, h]
  dsimp only
  rw [hfind]
  change some (decodeUtf8Lossy ((name.bytes ++ 0 :: rest).take name.bytes.length)) = _
  rw [take_left, decodeUtf8Lossy_ascii fun b hb => (name.ascii b hb).2]
  rfl

end Reading

namespace PeHeaders
variable {headers : PeHeaders} {bytes : Bytes}

section Addresses
variable (hapart : headers.SectionsApart) {rva : UInt32} {content : Bytes}
include hapart

theorem HoldsAt.rva_ne_zero (h : headers.HoldsAt bytes rva content) : rva ≠ 0 := by
  obtain ⟨s, hs, hlow, -⟩ := h
  have hpositive := hapart.positive s hs
  rintro rfl
  rw [UInt32.toNat_zero] at hlow
  omega

theorem HoldsAt.value_rvaToOffset (h : headers.HoldsAt bytes rva content) (hne : content ≠ []) :
    ∃ offset rest, (headers.rvaToOffset rva).value = some offset ∧
      bytes.drop offset = content ++ rest := by
  have hzero := h.rva_ne_zero hapart
  obtain ⟨s, hs, hlow, hhigh, rest, hrest⟩ := h
  have hlength : 0 < content.length := length_pos_of_ne_nil hne
  have hraw : s.rawSize.toNat ≤ (max s.virtualSize s.rawSize).toNat := by
    change _ ≤ (if s.virtualSize ≤ s.rawSize then s.rawSize else s.virtualSize).toNat
    split
    · exact le_rfl
    · rename_i hless
      exact (Nat.lt_of_not_le fun hle => hless (UInt32.le_iff_toNat_le.mpr hle)).le
  have hbelow := hapart.below s hs
  have hcovers : s.Covers rva := by
    refine ⟨UInt32.le_iff_toNat_le.mpr hlow, lt_min ?_ ?_⟩
    · omega
    · unfold Section.endAddress at hbelow
      omega
  obtain ⟨t, ht⟩ := Option.isSome_iff_exists.mp ((List.find?_isSome (p := fun t => t.Covers rva)).mpr
    ⟨s, hs, decide_eq_true hcovers⟩)
  have hfound := List.find?_some ht
  have htcovers : t.Covers rva := of_decide_eq_true hfound
  -- two sections that cover the address would overlap
  have hsame : t = s := by
    by_contra hother
    have hthigh := lt_min_iff.mp htcovers.2
    have htlow := htcovers.le
    have hdisjoint := hapart.disjoint t (mem_of_find?_eq_some ht) s hs hother
    unfold Section.endAddress at hdisjoint
    omega
  refine ⟨s.place rva, rest, ?_, hrest⟩
  rw [PeHeaders.value_rvaToOffset, sectionOf, if_neg hzero, ht, hsame]
  rfl

end Addresses

theorem top_bit_iff {k n : ℕ} (h : n < 2^(k+1)) : n &&& 2^k ≠ 0 ↔ 2^k ≤ n := by
  rw [Nat.and_two_pow]
  by_cases hle : 2^k ≤ n
  · rw [Nat.testBit_of_two_pow_le_and_two_pow_add_one_gt hle h]
    simp [hle]
  · rw [Nat.testBit_lt_two_pow (Nat.lt_of_not_le hle)]
    simp [hle]

theorem resolveThunk_eq {n : ℕ} (h : n < 256^thunkSize headers.is64bit) :
    headers.resolveThunk bytes (UInt64.ofNat n) =
      if 2^(8*thunkSize headers.is64bit-1) ≤ n then pure (some (ordinalText (n%2^16)))
      else if n < u32Limit then headers.symbolAt bytes (UInt32.ofNat n) else pure none := by
  have hlow : n &&& 0xFFFF = n%2^16 := Nat.and_two_pow_sub_one_eq_mod n 16
  unfold resolveThunk
  cases hwidth : headers.is64bit with
  | true =>
    rw [hwidth] at h
    have hto : (UInt64.ofNat n).toNat = n := UInt64.toNat_ofNat_of_lt' h
    have hflag : UInt64.ofNat n &&& 0x8000000000000000 ≠ 0 ↔ 2^63 ≤ n := by
      rw [← UInt64.toNat_inj.ne, UInt64.toNat_and, hto]
      exact top_bit_iff (k := 63) h
    change headers.resolveThunk64 bytes _ = _
    rw [resolveThunk64, UInt64.toNat_and, hto, UInt64.toUInt32_ofNat']
    exact if_congr hflag (congrArg (fun m => pure (some (ordinalText m))) hlow) rfl
  | false =>
    rw [hwidth] at h
    have hto : (UInt32.ofNat n).toNat = n := UInt32.toNat_ofNat_of_lt' h
    have hflag : UInt32.ofNat n &&& 0x80000000 ≠ 0 ↔ 2^31 ≤ n := by
      rw [← UInt32.toNat_inj.ne, UInt32.toNat_and, hto]
      exact top_bit_iff (k := 31) h
    change headers.resolveThunk32 bytes _ = _
    rw [resolveThunk32, UInt64.toUInt32_ofNat', UInt32.toNat_and, hto]
    exact if_congr hflag (congrArg (fun m => pure (some (ordinalText m))) hlow) (if_pos h).symm

section Walk
variable (hapart : headers.SectionsApart)
include hapart

theorem number_bounds {t : Thunk} (h : headers.HoldsSymbol bytes t) :
    0 < t.number headers.is64bit ∧ t.number headers.is64bit < 256^thunkSize headers.is64bit := by
  unfold Thunk.number thunkSize
  cases t with
  | ordinal n =>
    have hn := n.toNat_lt
    cases headers.is64bit with
    | true =>
      change 0 < 2^63+n.toNat ∧ 2^63+n.toNat < 256^8
      omega
    | false =>
      change 0 < 2^31+n.toNat ∧ 2^31+n.toNat < 256^4
      omega
  | byName rva hint name =>
    have hne := h.2.rva_ne_zero hapart
    have hlt := h.1
    rw [← UInt32.toNat_inj.ne, UInt32.toNat_zero] at hne
    dsimp only
    split <;> omega

theorem value_resolveThunk {t : Thunk} (h : headers.HoldsSymbol bytes t) :
    (headers.resolveThunk bytes (UInt64.ofNat (t.number headers.is64bit))).value =
      some t.symbol.text := by
  rw [resolveThunk_eq (number_bounds hapart h).2]
  cases t with
  | ordinal n =>
    have hn := n.toNat_lt
    have hlow : (Thunk.ordinal n).number headers.is64bit % 2^16 = n.toNat := by
      cases headers.is64bit with
      | true =>
        change (2^63+n.toNat)%2^16 = _
        omega
      | false =>
        change (2^31+n.toNat)%2^16 = _
        omega
    rw [hlow]
    exact congrArg Guarded.value (if_pos (Nat.le_add_right _ _))
  | byName rva hint name =>
    obtain ⟨hlt, hat⟩ := h
    obtain ⟨offset, rest, hoffset, hrest⟩ := hat.value_rvaToOffset hapart (by simp)
    rw [append_assoc, append_assoc] at hrest
    have hname := drop_add_of_drop _ hrest
    rw [leBytes_length] at hname
    have hplain : ¬ 2^(8*thunkSize headers.is64bit-1) ≤ rva.toNat := by
      unfold thunkSize
      split <;> omega
    have hsmall : rva.toNat < u32Limit := rva.toNat_lt
    rw [Thunk.number, if_neg hplain, if_pos hsmall, UInt32.ofNat_toNat, symbolAt, value_bind, hoffset]
    change Option.map toAsciiLowercase (readCString bytes (offset+2)).value = _
    rw [value_readCString name hname]
    rfl

theorem value_walkThunks (dll : Text) {thunks : List Thunk} {offset : ℕ} {rest : Bytes} (k : ℕ)
    (out : List Import) (hsymbols : ∀ t ∈ thunks, headers.HoldsSymbol bytes t)
    (h : bytes.drop offset = encodeThunks headers.is64bit thunks ++
      (leBytes (thunkSize headers.is64bit) 0 ++ rest)) :
    (headers.walkThunks bytes dll (k+1+thunks.length) offset out).value =
      out ++ thunks.map fun t => ⟨dll, t.symbol.text⟩ := by
  -- a round of the walk for each entry, and one for the zero that ends the array
  induction thunks generalizing offset out with
  | nil =>
    rw [length_nil, walkThunks, value_bind, value_readThunk (Nat.pow_pos (by decide)) h]
    exact (append_nil out).symm
  | cons t thunks ih =>
    obtain ⟨hsymbol, hsymbols⟩ := forall_mem_cons.mp hsymbols
    obtain ⟨hpos, hlt⟩ := number_bounds hapart hsymbol
    have hnonzero : UInt64.ofNat (t.number headers.is64bit) ≠ 0 := by
      rw [← UInt64.toNat_inj.ne, UInt64.toNat_ofNat_of_lt']
      · exact Nat.pos_iff_ne_zero.mp hpos
      · apply hlt.trans_le
        unfold thunkSize
        split <;> decide
    rw [encodeThunks, flatMap_cons, append_assoc] at h
    have hnext := drop_add_of_drop _ h
    rw [leBytes_length] at hnext
    have hkept : (some (UInt64.ofNat (t.number headers.is64bit))).filter (· ≠ 0) = some _ :=
      if_pos (decide_eq_true hnonzero)
    rw [length_cons, ← Nat.add_assoc, walkThunks, value_bind, value_readThunk hlt h, hkept]
    dsimp only
    rw [value_bind, value_addIn, value_bind, value_resolveThunk hapart hsymbol, ih _ hsymbols hnext,
      append_assoc]
    rfl

theorem value_importsOf {d : DllImports} (h : headers.HoldsDll bytes d) :
    (headers.importsOf bytes d.descriptor).value = d.refs.map ImportRef.resolved := by
  obtain ⟨nameOffset, nameRest, hname, hnameRest⟩ := h.name.value_rvaToOffset hapart (by simp)
  obtain ⟨offset, rest, hoffset, hrest⟩ := h.thunks.value_rvaToOffset hapart (by
    apply ne_nil_of_length_pos
    rw [length_append, leBytes_length, thunkSize]
    split <;> omega)
  rw [append_assoc] at hnameRest hrest
  have hdll : (headers.dllName bytes d.descriptor.nameRva).value =
      some (toAsciiLowercase d.name.text) := by
    rw [dllName, value_bind, hname]
    change Option.map toAsciiLowercase (readCString bytes nameOffset).value = _
    rw [value_readCString d.name hnameRest]
    rfl
  have hrounds : maxImportsPerDll = 4095-d.thunks.length+1+d.thunks.length := by
    have hle := h.length_le
    unfold maxImportsPerDll
    omega
  rw [importsOf, value_bind, hdll]
  dsimp only
  rw [value_bind, hoffset]
  dsimp only
  rw [hrounds, value_walkThunks hapart _ _ [] h.symbols hrest, DllImports.refs, map_map]
  rfl

theorem value_importLoop {table : List DllImports} {offset : ℕ} {rest : Bytes} (k : ℕ)
    (imports : List Import) (hdlls : ∀ d ∈ table, headers.HoldsDll bytes d)
    (h : bytes.drop offset = (table.flatMap fun d => encodeDescriptor d.descriptor d.stamps) ++
      (encodeDescriptor ⟨0, 0, 0⟩ (List.replicate 8 0) ++ rest)) :
    (headers.importLoop bytes (k+1+table.length) offset imports).value =
      imports ++ (table.flatMap DllImports.refs).map ImportRef.resolved := by
  induction table generalizing offset imports with
  | nil =>
    rw [length_nil, importLoop, value_bind, value_readDescriptor length_replicate h]
    exact (append_nil imports).symm
  | cons d table ih =>
    obtain ⟨hdll, hdlls⟩ := forall_mem_cons.mp hdlls
    rw [flatMap_cons, append_assoc] at h
    have hnext := drop_add_of_drop _ h
    have hlength : (encodeDescriptor d.descriptor d.stamps).length = 20 := by
      simp [encodeDescriptor, hdll.stamps]
    rw [hlength] at hnext
    -- a descriptor with a name is not the one that ends the array
    have hname := hdll.name.rva_ne_zero hapart
    rw [length_cons, ← Nat.add_assoc, importLoop, value_bind, value_readDescriptor hdll.stamps h,
      if_neg fun hzero => hname hzero.2.1]
    dsimp only
    rw [value_bind, value_addIn, value_bind, value_importsOf hapart hdll, ih _ hdlls hnext,
      append_assoc, flatMap_cons, map_append]

end Walk

theorem value_dataDirectory {rva size : UInt32} (h : headers.HasDirectory bytes rva size) :
    (headers.dataDirectory directoryImport bytes).value =
      if rva ≠ 0 ∧ size ≠ 0 then some (rva, size) else none := by
  obtain ⟨hcount, rest, hrest⟩ := h
  have hsize := drop_add_of_drop _ hrest
  rw [leBytes_length] at hsize
  have hentry : directoryImport.toNat*8 = 8 := rfl
  have hthere : ¬ headers.numberOfRvaAndSizes ≤ directoryImport := UInt32.not_le.mpr hcount
  rw [dataDirectory, if_neg hthere, value_bind, value_bind, value_mulIn, value_addIn, hentry, value_bind,
    value_u32At hrest]
  dsimp only
  rw [value_bind, value_bind, value_addIn, value_u32At hsize]
  rfl

theorem value_parseImports (hapart : headers.SectionsApart) {table : List DllImports}
    (h : headers.HoldsTable bytes table) :
    (headers.parseImports bytes).value = (table.flatMap DllImports.refs).map ImportRef.resolved := by
  rw [parseImports, value_bind]
  rcases h.directory with ⟨rva, size, hdirectory, hsize, hat⟩ | ⟨rfl, habsent⟩
  · have hrva := hat.rva_ne_zero hapart
    obtain ⟨offset, rest, hoffset, hrest⟩ := hat.value_rvaToOffset hapart (by simp [encodeDescriptor])
    rw [append_assoc] at hrest
    have hrounds : maxImportDescriptors = 4095-table.length+1+table.length := by
      have hle := h.length_le
      unfold maxImportDescriptors
      omega
    rw [value_dataDirectory hdirectory, if_pos ⟨hrva, hsize⟩]
    dsimp only
    rw [value_bind, hoffset]
    dsimp only
    rw [hrounds, value_importLoop hapart _ [] h.dlls hrest, nil_append]
  · have hnone : (headers.dataDirectory directoryImport bytes).value = none := by
      rcases habsent with hfew | ⟨rva, size, hdirectory, hzero⟩
      · exact congrArg Guarded.value (if_pos hfew)
      · rw [value_dataDirectory hdirectory, if_neg fun h => hzero.elim h.1 h.2]
    rw [hnone]
    rfl

end PeHeaders

def noteName (names : List Text) (name : Text) : List Text :=
  if names.contains name then names else names ++ [name]

theorem foldl_noteName (names : List Text) : names.foldl noteName [] = names.eraseDups := by
  induction names using List.reverseRecOn with
  | nil => rfl
  | append_singleton names name ih =>
    rw [foldl_append, ih, eraseDups_append, foldl_cons, foldl_nil, noteName]
    by_cases h : name ∈ names
    · simp [h, List.removeAll]
    · simp [h, List.removeAll, eraseDups_cons]

theorem foldl_refs (d : DllImports) (names : List Text) :
    (d.refs.map ImportRef.resolved).foldl (fun names i => noteName names i.dll) names =
      if d.thunks = [] then names else noteName names (toAsciiLowercase d.name.text) := by
  have htwice (name : Text) : noteName (noteName names name) name = noteName names name := by
    unfold noteName
    split
    · simp_all
    · simp
  rw [DllImports.refs, map_map, foldl_map]
  cases d.thunks with
  | nil => rfl
  | cons t thunks => exact foldl_fixed' (fun _ => htwice _) thunks

theorem dedupDllNames_refs (table : List DllImports) :
    dedupDllNames ((table.flatMap DllImports.refs).map ImportRef.resolved) =
      dllsOf (table.filter fun d => d.thunks ≠ []) := by
  rw [dllsOf, ← foldl_noteName]
  change List.foldl (fun names (i : Import) => noteName names i.dll) [] _ = _
  generalize ([] : List Text) = names
  induction table generalizing names with
  | nil => rfl
  | cons d table ih =>
    rw [flatMap_cons, map_append, foldl_append, foldl_refs, filter_cons]
    by_cases hempty : d.thunks = []
    · rw [if_pos hempty, if_neg (by simpa using hempty), ih]
    · rw [if_neg hempty, if_pos (by simpa using hempty), map_cons, foldl_cons, ih]

/-- The walk returns the imports of the table, and the DLLs are those of the table, exactly if no
address lands past 4 GiB in the file and the DLLs without imports make no difference. -/
theorem imports_exact_iff {bytes : Bytes} {headers : PeHeaders}
    (hparse : (PeHeaders.parse bytes : Parsing Empty PeHeaders).run.outcome = .ok (.ok headers))
    (hapart : headers.SectionsApart) {table : List DllImports}
    (htable : headers.HoldsTable bytes table) :
    (∃ imports, (headers.parseImports bytes).outcome = .ok imports ∧
        imports = (table.flatMap DllImports.refs).map ImportRef.resolved ∧
        dedupDllNames imports = dllsOf table) ↔
      headers.ImportsFit bytes ∧ dllsOf (table.filter fun d => d.thunks ≠ []) = dllsOf table := by
  have hplaced := yields_parse.post headers (outcome_eq_ok_iff.mp hparse).2
  have hvalue := PeHeaders.value_parseImports hapart htable
  rw [← headers.safe_parseImports_iff bytes hplaced, ← dedupDllNames_refs]
  constructor
  · rintro ⟨imports, houtcome, rfl, hdlls⟩
    exact ⟨(outcome_eq_ok_iff.mp houtcome).1, hdlls⟩
  · rintro ⟨hsafe, hdlls⟩
    exact ⟨_, outcome_eq_ok_iff.mpr ⟨hsafe, hvalue⟩, rfl, hdlls⟩

theorem sample_ascii : ∀ b ∈ ([0x62] : Bytes), b ≠ 0 ∧ b.toNat < 0x80 :=
  forall_mem_singleton.mpr (by decide)

def sampleDll : DllImports :=
  ⟨⟨0x1028, 0x102C, 0x1028⟩, List.replicate 8 0, ⟨[0x62], Nat.le_of_ble_eq_true rfl, sample_ascii⟩, []⟩

def samplePe : Bytes :=
  hostilePe.take 192 ++ leBytes 4 0x1000 ++ leBytes 4 40 ++
    -- section header
    List.replicate 8 0 ++ leBytes 4 0x2E ++ leBytes 4 0x1000 ++ leBytes 4 0x2E ++ leBytes 4 0xE0 ++
    -- the descriptor, the one that ends the array, no thunks and the name
    encodeDescriptor sampleDll.descriptor sampleDll.stamps ++ List.replicate 24 0 ++ [0x62, 0]

def sampleHeaders : PeHeaders := ⟨false, 0x98, 2, 0xB8, [⟨0x1000, 0x2E, 0xE0, 0x2E⟩]⟩

theorem sample_apart : sampleHeaders.SectionsApart := by
  refine ⟨by decide, by decide, ?_⟩
  intro s hs t ht hne
  exact absurd ((mem_singleton.mp hs).trans (mem_singleton.mp ht).symm) hne

theorem sample_holdsAt {rva : UInt32} {content : Bytes} (hlow : 0x1000 ≤ rva.toNat)
    (hhigh : rva.toNat+content.length ≤ 0x102E)
    (h : content <+: samplePe.drop (0xE0+(rva.toNat-0x1000))) :
    sampleHeaders.HoldsAt samplePe rva content :=
  ⟨_, mem_singleton_self _, hlow, hhigh, h.imp fun _ => Eq.symm⟩

theorem sample_holdsTable : sampleHeaders.HoldsTable samplePe [sampleDll] := by
  refine ⟨by decide, forall_mem_singleton.mpr ⟨rfl, ?_, by decide, ?_, nofun⟩, .inl ⟨0x1000, 40,
    ⟨by decide, samplePe.drop 200, by decide +kernel⟩, by decide, ?_⟩⟩
  · exact sample_holdsAt (by decide) (by decide) (by decide +kernel)
  · exact sample_holdsAt (by decide) (by decide) (by decide +kernel)
  · exact sample_holdsAt (by decide) (by decide) (by decide +kernel)

theorem imports_exact_iff_sample :
    ¬ ∃ imports, (sampleHeaders.parseImports samplePe).outcome = .ok imports ∧
      imports = ([sampleDll].flatMap DllImports.refs).map ImportRef.resolved ∧
      dedupDllNames imports = dllsOf [sampleDll] := by
  rw [imports_exact_iff (by decide +kernel) sample_apart sample_holdsTable]
  rintro ⟨-, hdlls⟩
  exact absurd hdlls (by decide)

theorem imports_miss_dll : sampleHeaders.HoldsTable samplePe [sampleDll] ∧
    dllsOf [sampleDll] = ["b".toList] ∧ (analyzePeBytes emptyHashes samplePe).run.outcome.toOption.bind
      (fun result => result.toOption.map PeAnalysis.importedDlls) = some [] :=
  ⟨sample_holdsTable, by decide, by decide +kernel⟩

end WindowsErg.File.Pe
