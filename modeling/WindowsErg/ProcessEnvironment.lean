import WindowsErg.DelimitedItems
import WindowsErg.MappedMemory
import WindowsErg.ProcessExit
import WindowsErg.ProcessPeb

/-! Reading the environment of another process, `src/process/peb.rs`. -/
namespace WindowsErg.Process
open TextScan ByteCodec UnicodeText DelimitedItems MappedMemory

abbrev EnvironmentMap := Text → Option Text

def emptyMap : EnvironmentMap := fun _ => none

/-- One entry of the block. An entry without an equals sign is left out. -/
def insertEntry (vars : EnvironmentMap) (units : List UInt16) : EnvironmentMap :=
  let entry := decodeUtf16Lossy units
  match find ['='] entry with
  | none => vars
  | some eqPos => Function.update vars (entry.take eqPos) (some (entry.drop (eqPos+1)))

def parseEnvironment (vars : EnvironmentMap) (data : List UInt16) : EnvironmentMap :=
  if _hdata : data = [] then vars
  else
    let units := data.takeWhile (· ≠ 0)
    -- nothing in front of the terminator: the end of the block
    if units = [] then vars
    else parseEnvironment (insertEntry vars units) (data.drop (units.length+1))
termination_by data.length
decreasing_by
  have hlength := List.length_pos_iff.mpr _hdata
  rw [List.length_drop]
  omega

variable (vars : EnvironmentMap)

theorem parseEnvironment_eq (data : List UInt16) :
    parseEnvironment vars data = (frontItems 0 data).foldl insertEntry vars := by
  induction hlength : data.length using Nat.strong_induction_on generalizing data vars with
  | _ n ih =>
    rw [parseEnvironment, frontItems]
    by_cases hdata : data = []
    · subst hdata
      rfl
    · have hpos := List.length_pos_iff.mpr hdata
      rw [dif_neg hdata]
      dsimp only
      split
      · rfl
      · rw [List.foldl_cons]
        apply ih _ _ _ _ rfl
        rw [List.length_drop]
        omega

structure Splits (units : List UInt16) (name value : Text) : Prop where
  text : decodeUtf16Lossy units = name ++ '=' :: value
  first : '=' ∉ name

variable {name value : Text}

theorem insertEntry_of_splits {units : List UInt16} (h : Splits units name value)
    (vars : EnvironmentMap) : insertEntry vars units = Function.update vars name (some value) := by
  have hdrop : (name ++ '=' :: value).drop (name.length+1) = value := by
    rw [← List.drop_drop, List.drop_left]
    rfl
  rw [insertEntry, h.text, find_char_append '=' name value h.first]
  dsimp only
  rw [List.take_left, hdrop]

variable (units : List UInt16)

theorem insertEntry_cases :
    insertEntry vars units = vars ∨ ∃ name value, Splits units name value ∧
      insertEntry vars units = Function.update vars name (some value) := by
  by_cases hmem : '=' ∈ decodeUtf16Lossy units
  · obtain ⟨name, value, htext, hfirst⟩ := List.eq_append_cons_of_mem hmem
    have hsplits : Splits units name value := ⟨htext, hfirst⟩
    exact Or.inr ⟨name, value, hsplits, insertEntry_of_splits hsplits vars⟩
  · left
    cases hfind : find ['='] (decodeUtf16Lossy units) with
    | none => rw [insertEntry, hfind]
    | some eqPos =>
      have hcontains : contains (decodeUtf16Lossy units) ['='] = true := by
        rw [contains, hfind]
        rfl
      have hpart := (contains_iff_isInfix _ _).mp hcontains
      exact absurd (hpart.subset List.mem_cons_self) hmem

theorem splits_of_foldl {items : List (List UInt16)} {vars : EnvironmentMap}
    (h : items.foldl insertEntry vars name = some value) :
    vars name = some value ∨ ∃ units ∈ items, Splits units name value := by
  -- a later entry of the same name wins, so the last one that inserted it is looked for
  induction items generalizing vars with
  | nil => exact Or.inl h
  | cons units items ih =>
    rcases ih h with hvars | ⟨other, hother, hsplits⟩
    · rcases insertEntry_cases vars units with hsame | ⟨name', value', hsplits, hupdate⟩
      · exact Or.inl (hsame ▸ hvars)
      · rw [hupdate] at hvars
        by_cases hname : name = name'
        · subst hname
          rw [Function.update_self] at hvars
          cases hvars
          exact Or.inr ⟨units, List.mem_cons_self, hsplits⟩
        · rw [Function.update_of_ne hname] at hvars
          exact Or.inl hvars
    · exact Or.inr ⟨other, List.mem_cons_of_mem _ hother, hsplits⟩

variable {data : List UInt16}

theorem splits_of_parseEnvironment (h : parseEnvironment emptyMap data name = some value) :
    ∃ units ∈ frontItems 0 data, Splits units name value := by
  rw [parseEnvironment_eq] at h
  exact (splits_of_foldl h).resolve_left fun hnone => by cases hnone

structure Variable where
  name : List UInt16
  value : List UInt16
  deriving DecidableEq

def Variable.entry (v : Variable) : List UInt16 := v.name ++ 0x3D :: v.value

structure Environment where
  vars : List Variable
  distinct : (vars.map (·.name)).Nodup
  name_ne_nil : ∀ v ∈ vars, v.name ≠ []
  value_nul : ∀ v ∈ vars, 0 ∉ v.value

def Environment.block (env : Environment) : List UInt16 :=
  terminated 0 (env.vars.map (·.entry)) ++ [0]

structure Represents (map : EnvironmentMap) (vars : List Variable) : Prop where
  kept : ∀ v ∈ vars, ∃ name value, v = ⟨encodeUtf16 name, encodeUtf16 value⟩ ∧ map name = some value
  only : ∀ name value, map name = some value → ⟨encodeUtf16 name, encodeUtf16 value⟩ ∈ vars

structure Readable (v : Variable) : Prop where
  name_text : WellFormed v.name
  value_text : WellFormed v.value
  name_nul : 0 ∉ v.name
  name_sign : 0x3D ∉ v.name

theorem Environment.length_block (env : Environment) :
    env.block.length = room (env.vars.map (·.entry))+1 := by
  rw [Environment.block, List.length_append, length_terminated, List.length_singleton]

theorem encodeUtf16_entry (name value : Text) :
    encodeUtf16 (name ++ '=' :: value) = (⟨encodeUtf16 name, encodeUtf16 value⟩ : Variable).entry :=
  encodeUtf16_append name ('=' :: value)

variable {v : Variable}

theorem Readable.exists_splits (h : Readable v) :
    ∃ name value, v = ⟨encodeUtf16 name, encodeUtf16 value⟩ ∧ Splits v.entry name value := by
  obtain ⟨name, hname⟩ := (wellFormed_iff v.name).mp h.name_text
  obtain ⟨value, hvalue⟩ := (wellFormed_iff v.value).mp h.value_text
  have hv : v = ⟨encodeUtf16 name, encodeUtf16 value⟩ := by rw [hname, hvalue]
  refine ⟨name, value, hv, ?_, fun hsign => h.name_sign ?_⟩
  · rw [hv, ← encodeUtf16_entry, decodeUtf16Lossy_encodeUtf16]
  · rw [← hname]
    exact (mem_encodeUtf16_iff (c := '=') (by decide) name).mpr hsign

theorem Splits.readable {units : List UInt16} (h : Splits units name value) (hunits : 0 ∉ units) :
    Readable ⟨encodeUtf16 name, encodeUtf16 value⟩ where
  name_text := (wellFormed_iff _).mpr ⟨name, rfl⟩
  value_text := (wellFormed_iff _).mpr ⟨value, rfl⟩
  name_nul hmem := by
    have hname := (mem_encodeUtf16_iff (c := '\x00') (by decide) name).mp hmem
    apply hunits
    apply mem_of_mem_decodeUtf16Lossy (c := '\x00') _ (by decide)
    rw [h.text]
    exact List.mem_append_left _ hname
  name_sign hmem := h.first ((mem_encodeUtf16_iff (c := '=') (by decide) name).mp hmem)

theorem Readable.nul_notMem_entry (h : Readable v) (hvalue : 0 ∉ v.value) : 0 ∉ v.entry := by
  intro hmem
  rcases List.mem_append.mp hmem with hname | hrest
  · exact h.name_nul hname
  · exact hvalue (List.mem_of_ne_of_mem (by decide) hrest)

theorem Readable.takeWhile_entry (h : Readable v) : v.entry.takeWhile (· ≠ 0x3D) = v.name := by
  rw [Variable.entry, takeWhile_item h.name_sign]
  simp

theorem foldl_insertEntry_iff {vars : List Variable} (hread : ∀ v ∈ vars, Readable v)
    (hdistinct : (vars.map (·.name)).Nodup) (map : EnvironmentMap) (name value : Text) :
    (vars.map (·.entry)).foldl insertEntry map name = some value ↔
      ⟨encodeUtf16 name, encodeUtf16 value⟩ ∈ vars ∨
        encodeUtf16 name ∉ vars.map (·.name) ∧ map name = some value := by
  induction vars generalizing map with
  | nil => simp
  | cons v vars ih =>
    obtain ⟨hv, hrest⟩ := List.forall_mem_cons.mp hread
    rw [List.map_cons, List.nodup_cons] at hdistinct
    obtain ⟨vname, vvalue, hvText, hsplits⟩ := hv.exists_splits
    rw [List.map_cons, List.foldl_cons, insertEntry_of_splits hsplits, ih hrest hdistinct.2,
      List.mem_cons, List.map_cons, List.mem_cons, not_or]
    subst hvText
    rw [Variable.mk.injEq, encodeUtf16_injective.eq_iff, encodeUtf16_injective.eq_iff]
    by_cases hname : name = vname
    · -- no later variable has this name
      subst hname
      rw [Function.update_self]
      simp [hdistinct.1, eq_comm, or_comm]
    · rw [Function.update_of_ne hname]
      simp [hname]

theorem Represents.readable {vars : List Variable}
    (h : Represents (parseEnvironment emptyMap data) vars) (hv : v ∈ vars) :
    Readable v ∧ v.entry ∈ (frontItems 0 data).map fun units => encodeUtf16 (decodeUtf16Lossy units) := by
  obtain ⟨name, value, rfl, hmap⟩ := h.kept v hv
  obtain ⟨units, hunits, hsplits⟩ := splits_of_parseEnvironment hmap
  refine ⟨hsplits.readable (notMem_of_mem_frontItems hunits), ?_⟩
  rw [← encodeUtf16_entry, ← hsplits.text]
  exact List.mem_map_of_mem hunits

variable {env : Environment}

theorem Represents.length_block_le (h : Represents (parseEnvironment emptyMap data) env.vars) :
    env.block.length ≤ data.length+2 := by
  -- every entry was found, and different variables were found in different items
  have hinj : ∀ v ∈ env.vars, ∀ w ∈ env.vars, v.entry = w.entry → v = w := by
    intro v hv w hw hentry
    apply List.inj_on_of_nodup_map env.distinct hv hw
    rw [← (h.readable hv).1.takeWhile_entry, hentry, (h.readable hw).1.takeWhile_entry]
  have hnodup : (env.vars.map (·.entry)).Nodup := env.distinct.of_map.map_on hinj
  have hsubset : env.vars.map (·.entry) ⊆
      (frontItems 0 data).map fun units => encodeUtf16 (decodeUtf16Lossy units) := by
    intro entry hentry
    obtain ⟨v, hv, rfl⟩ := List.mem_map.mp hentry
    exact (h.readable hv).2
  -- decoding and encoding an item keeps its length, also where it is not well formed
  have hroom : room (env.vars.map (·.entry)) ≤ room (frontItems 0 data) := by
    refine (sum_le_of_subset (fun item => item.length+1) hnodup hsubset).trans_eq ?_
    rw [List.map_map, room]
    simp only [Function.comp_def, length_encodeUtf16_decodeUtf16Lossy]
  have hdata : room (frontItems 0 data) ≤ data.length+1 := room_frontItems_le data
  rw [env.length_block]
  omega

theorem represents_parseEnvironment_iff (env : Environment)
    (hdata : data <+: env.block ∨ env.block <+: data) :
    Represents (parseEnvironment emptyMap data) env.vars ↔
      env.block.length ≤ data.length+2 ∧ ∀ v ∈ env.vars, Readable v := by
  refine ⟨fun h => ⟨h.length_block_le, fun v hv => (h.readable hv).1⟩, ?_⟩
  rintro ⟨hlength, hread⟩
  have hitems : ∀ item ∈ env.vars.map (·.entry), item ≠ [] ∧ 0 ∉ item := by
    intro item hitem
    obtain ⟨v, hv, rfl⟩ := List.mem_map.mp hitem
    exact ⟨List.append_ne_nil_of_right_ne_nil _ (List.cons_ne_nil _ _),
      (hread v hv).nul_notMem_entry (env.value_nul v hv)⟩
  have hfront : frontItems 0 data = env.vars.map (·.entry) := by
    rcases hdata with hcut | ⟨rest, rfl⟩
    · rw [env.length_block] at hlength
      exact frontItems_cut hitems hcut (by omega)
    · rw [Environment.block, List.append_assoc, frontItems_terminated hitems, List.singleton_append,
        frontItems_delimiter, List.append_nil]
  have hmap (name value : Text) : parseEnvironment emptyMap data name = some value ↔
      ⟨encodeUtf16 name, encodeUtf16 value⟩ ∈ env.vars := by
    rw [parseEnvironment_eq, hfront, foldl_insertEntry_iff hread env.distinct]
    simp [emptyMap]
  refine ⟨fun v hv => ?_, fun name value => (hmap name value).mp⟩
  obtain ⟨name, value, rfl, -⟩ := (hread v hv).exists_splits
  exact ⟨name, value, rfl, (hmap name value).mpr hv⟩

/-- A block is parsed back exactly if every variable is made of texts and no name has an equals sign
or a NUL in it. -/
theorem environment_parses_back_iff (env : Environment) (rest : List UInt16) :
    Represents (parseEnvironment emptyMap (env.block ++ rest)) env.vars ↔
      ∀ v ∈ env.vars, Readable v := by
  rw [represents_parseEnvironment_iff env (Or.inr (List.prefix_append _ _)), and_iff_right]
  rw [List.length_append]
  omega

def driveEnvironment : Environment where
  vars := [⟨[0x3D, 0x43, 0x3A], [0x43, 0x3A, 0x5C]⟩]
  distinct := List.nodup_singleton _
  name_ne_nil := by decide
  value_nul := by decide

/-- Its entry has its first sign in front of the name, and is found under the empty name. -/
theorem drive_directory_lost :
    driveEnvironment.vars.map (·.entry) = [encodeUtf16 "=C:=C:\\".toList] ∧
      parseEnvironment emptyMap driveEnvironment.block [] = some "C:=C:\\".toList ∧
      ¬ Represents (parseEnvironment emptyMap driveEnvironment.block) driveEnvironment.vars := by
  have hread : ¬ Readable ⟨[0x3D, 0x43, 0x3A], [0x43, 0x3A, 0x5C]⟩ := fun h =>
    h.name_sign List.mem_cons_self
  have hfront : frontItems 0 driveEnvironment.block = [encodeUtf16 "=C:=C:\\".toList] := by
    have hblock : driveEnvironment.block = encodeUtf16 "=C:=C:\\".toList ++ 0 :: [0] := by decide
    rw [hblock, frontItems_cons (by decide) (by decide), frontItems_delimiter]
  refine ⟨by decide, ?_, fun h => hread (h.readable List.mem_cons_self).1⟩
  rw [parseEnvironment_eq, hfront]
  decide

structure TargetProcess where
  id : UInt32
  /-- The `PebBaseAddress` of its basic information. -/
  basicInformation : Except Int32 ℕ
  memory : Memory
  /-- The code of a read that meets a byte that is not mapped. -/
  readError : Int32

namespace TargetProcess

def readProcessMemory (p : TargetProcess) (reason : Text) (address size : ℕ) :
    Except OpenFailed Bytes :=
  match read p.memory address size with
  | none => .error ⟨p.id, reason, some p.readError⟩
  | some bytes => .ok bytes

def readPebAddress (p : TargetProcess) : Except OpenFailed ℕ :=
  match p.basicInformation with
  | .error code => .error ⟨p.id, "Failed to query process information".toList, some code⟩
  | .ok pebBaseAddress => .ok pebBaseAddress

def maxSize : ℕ := 65536

def readEnvironmentBlock (p : TargetProcess) (addr : ℕ) : Except OpenFailed EnvironmentMap :=
  if addr = 0 then .ok emptyMap
  else do
    let bytes ← p.readProcessMemory "Failed to read environment block".toList addr maxSize
    return parseEnvironment emptyMap (unitsOfBytes bytes)

def environmentWithBuffer (p : TargetProcess) : Except OpenFailed EnvironmentMap := do
  let pebAddr ← p.readPebAddress
  let peb ← p.readProcessMemory "Failed to read PEB".toList pebAddr pebSize
  let paramsAddr := numberOf pebFields .processParameters 8 peb 0
  let params ← p.readProcessMemory "Failed to read process parameters".toList paramsAddr parametersSize
  -- through the structure that has its last field at `0x68`
  p.readEnvironmentBlock (partialEnvironment params)

/-- The buffer is filled anew for every read. -/
def environment (p : TargetProcess) : Except OpenFailed EnvironmentMap := p.environmentWithBuffer

end TargetProcess

/-- Where a process has its parameters, with the environment's pointer behind the public fields. -/
structure ParameterBlock (p : TargetProcess) where
  pebAddress : ℕ
  peb : Bytes
  parameters : Bytes
  queried : p.basicInformation = .ok pebAddress
  peb_read : read p.memory pebAddress pebSize = some peb
  parameters_read : read p.memory (numberOf pebFields .processParameters 8 peb 0)
    (environmentOffset+8) = some parameters

namespace ParameterBlock
variable {p : TargetProcess}

def environmentAddress (place : ParameterBlock p) : ℕ := numberAt place.parameters environmentOffset 8

def imagePathAddress (place : ParameterBlock p) : ℕ :=
  (publicStrings place.parameters).imagePathName.buffer

end ParameterBlock

def HoldsBlock (p : TargetProcess) (address : ℕ) (env : Environment) : Prop :=
  read p.memory address (utf16LeBytes env.block).length = some (utf16LeBytes env.block)

theorem numberAt_append {front : Bytes} {offset width : ℕ} (h : offset+width ≤ front.length)
    (back : Bytes) : numberAt (front ++ back) offset width = numberAt front offset width := by
  have hwidth : width ≤ (front.drop offset).length := by
    rw [List.length_drop]
    omega
  rw [numberAt, List.drop_append_of_le_length (by omega), List.take_append_of_le_length hwidth, numberAt]

theorem TargetProcess.environment_eq {p : TargetProcess} (place : ParameterBlock p) :
    p.environment = p.readEnvironmentBlock place.imagePathAddress := by
  have hread := place.parameters_read
  rw [environmentOffset_eq] at hread
  -- the code reads the public fields only, and not the pointer behind them
  obtain ⟨params, back, hparams, -, hsplit⟩ := read_add_eq_some_iff.mp hread
  have hpointer : partialEnvironment params = place.imagePathAddress := by
    have hlength : 0x68+8 ≤ params.length := by
      rw [length_of_read hparams]
      decide
    rw [partialEnvironment_eq, ParameterBlock.imagePathAddress, hsplit]
    exact (numberAt_append hlength back).symm
  rw [environment, environmentWithBuffer, readPebAddress, place.queried]
  simp only [readProcessMemory, place.peb_read, hparams, hpointer, bind, Except.bind]

theorem length_unitsOfBytes (bytes : Bytes) : (unitsOfBytes bytes).length = bytes.length/2 := by
  fun_induction unitsOfBytes bytes with
  | case1 low high rest ih =>
    simp only [List.length_cons, ih]
    omega
  | case2 bytes hshort =>
    match bytes, hshort with
    | [], _ => rfl
    | [_], _ => simp
    | low :: high :: rest, h => exact absurd rfl (h low high rest)

theorem unitsOfBytes_utf16LeBytes (rest : Bytes) :
    unitsOfBytes (utf16LeBytes units ++ rest) = units ++ unitsOfBytes rest := by
  induction units with
  | nil => rfl
  | cons u units ih =>
    obtain ⟨low, high, hbytes, hunit⟩ := utf16LeBytes_cons u units
    rw [hbytes, List.cons_append, List.cons_append, unitsOfBytes, hunit, ih, List.cons_append]

theorem unitsOfBytes_take (size : ℕ) :
    unitsOfBytes ((utf16LeBytes units).take (2*size)) = units.take size := by
  by_cases hsize : size ≤ units.length
  · have hfront : (utf16LeBytes units).take (2*size) = utf16LeBytes (units.take size) := by
      conv_lhs => rw [← List.take_append_drop size units, utf16LeBytes_append]
      rw [List.take_append_of_le_length, List.take_of_length_le] <;>
        rw [length_utf16LeBytes, List.length_take] <;> omega
    rw [hfront]
    simpa [unitsOfBytes] using unitsOfBytes_utf16LeBytes (units.take size) []
  · rw [List.take_of_length_le, List.take_of_length_le (by omega)]
    · simpa [unitsOfBytes] using unitsOfBytes_utf16LeBytes units []
    · rw [length_utf16LeBytes]
      omega

theorem units_of_holdsBlock {p : TargetProcess} {address : ℕ} (hblock : HoldsBlock p address env)
    (size : ℕ) {bytes : Bytes} (h : read p.memory address (2*size) = some bytes) :
    unitsOfBytes bytes <+: env.block ∨ env.block <+: unitsOfBytes bytes := by
  rcases Nat.le_total (2*size) (utf16LeBytes env.block).length with hshort | hlong
  · left
    rw [take_of_read hblock h hshort, unitsOfBytes_take]
    exact List.take_prefix _ _
  · right
    obtain ⟨rest, rfl⟩ := append_of_read hblock h hlong
    rw [unitsOfBytes_utf16LeBytes]
    exact List.prefix_append _ _

section Complete
variable {p : TargetProcess} {address : ℕ} (haddress : address ≠ 0)
include haddress

theorem readEnvironmentBlock_of_read {bytes : Bytes}
    (h : read p.memory address TargetProcess.maxSize = some bytes) :
    p.readEnvironmentBlock address = .ok (parseEnvironment emptyMap (unitsOfBytes bytes)) := by
  rw [TargetProcess.readEnvironmentBlock, if_neg haddress, TargetProcess.readProcessMemory, h]
  rfl

theorem readEnvironmentBlock_of_unmapped (h : read p.memory address TargetProcess.maxSize = none) :
    p.readEnvironmentBlock address =
      .error ⟨p.id, "Failed to read environment block".toList, some p.readError⟩ := by
  rw [TargetProcess.readEnvironmentBlock, if_neg haddress, TargetProcess.readProcessMemory, h]
  rfl

theorem readEnvironmentBlock_ok_iff :
    (∃ map, p.readEnvironmentBlock address = .ok map) ↔
      ∀ i < TargetProcess.maxSize, (p.memory (address+i)).isSome = true := by
  rw [← exists_read_iff]
  cases hread : read p.memory address TargetProcess.maxSize with
  | none => simp [readEnvironmentBlock_of_unmapped haddress hread]
  | some bytes => simp [readEnvironmentBlock_of_read haddress hread]

theorem readEnvironmentBlock_represents_iff (hblock : HoldsBlock p address env)
    {map : EnvironmentMap} (h : p.readEnvironmentBlock address = .ok map) :
    Represents map env.vars ↔ env.block.length ≤ 32770 ∧ ∀ v ∈ env.vars, Readable v := by
  cases hread : read p.memory address TargetProcess.maxSize with
  | none =>
    rw [readEnvironmentBlock_of_unmapped haddress hread] at h
    cases h
  | some bytes =>
    rw [readEnvironmentBlock_of_read haddress hread] at h
    have hlength : (unitsOfBytes bytes).length = 32768 := by
      rw [length_unitsOfBytes, length_of_read hread]
      rfl
    rw [← Except.ok.inj h,
      represents_parseEnvironment_iff env (units_of_holdsBlock hblock 32768 hread), hlength]

end Complete

def sampleByte (page : UInt8) (address : ℕ) : UInt8 :=
  ([(0x1021, 0x20), (0x2069, page), (0x2081, 0x40), (0x3000, 0x61), (0x4000, 0x41), (0x4002, 0x3D),
    (0x4004, 0x31)].lookup address).getD 0

def sampleProcess (page : UInt8) (limit : ℕ) : TargetProcess where
  id := 7
  basicInformation := .ok 0x1000
  memory address := if address < limit then some (sampleByte page address) else none
  readError := -2147024597

def sampleBytes (page : UInt8) (address size : ℕ) : Bytes :=
  (List.range size).map fun i => sampleByte page (address+i)

section Sample
variable {page : UInt8} {limit : ℕ}

theorem sample_memory {address : ℕ} (h : address < limit) :
    (sampleProcess page limit).memory address = some (sampleByte page address) := if_pos h

theorem read_sample {address size : ℕ} (h : address+size ≤ limit) :
    read (sampleProcess page limit).memory address size = some (sampleBytes page address size) := by
  apply read_of_forall
  intro i hi
  exact sample_memory (by omega)

theorem numberAt_sample {address size offset width : ℕ} (h : offset+width ≤ size) :
    numberAt (sampleBytes page address size) offset width =
      ofLe (sampleBytes page (address+offset) width) := by
  have hall : read (sampleProcess page (address+size)).memory address size =
      some (sampleBytes page address size) := read_sample le_rfl
  rw [numberAt, slice_of_read hall (read_sample (by omega)) h]

theorem sample_peb_read (h : 0x2088 ≤ limit) :
    read (sampleProcess page limit).memory 0x1000 pebSize = some (sampleBytes page 0x1000 pebSize) := by
  have hsize : 0x1000+pebSize ≤ 0x2088 := by decide
  exact read_sample (hsize.trans h)

theorem sample_parameters_read (h : 0x2088 ≤ limit) :
    read (sampleProcess page limit).memory
        (numberOf pebFields .processParameters 8 (sampleBytes page 0x1000 pebSize) 0)
        (environmentOffset+8) = some (sampleBytes page 0x2000 0x88) := by
  have hbytes : sampleBytes page (0x1000+0x20) 8 = [0, 0x20, 0, 0, 0, 0, 0, 0] := rfl
  have hpointer : numberAt (sampleBytes page 0x1000 pebSize) 0x20 8 = 0x2000 := by
    rw [numberAt_sample (by decide), hbytes]
    rfl
  have hfield : numberOf pebFields .processParameters 8 (sampleBytes page 0x1000 pebSize) 0 =
      numberAt (sampleBytes page 0x1000 pebSize) 0x20 8 := rfl
  rw [hfield, hpointer]
  exact read_sample h

def samplePlace (page : UInt8) (limit : ℕ) (h : 0x2088 ≤ limit) :
    ParameterBlock (sampleProcess page limit) where
  pebAddress := 0x1000
  peb := sampleBytes page 0x1000 pebSize
  parameters := sampleBytes page 0x2000 0x88
  queried := rfl
  peb_read := sample_peb_read h
  parameters_read := sample_parameters_read h

theorem samplePlace_environmentAddress (page : UInt8) (h : 0x2088 ≤ limit) :
    (samplePlace page limit h).environmentAddress = 0x4000 := by
  have hbytes : sampleBytes page (0x2000+0x80) 8 = [0, 0x40, 0, 0, 0, 0, 0, 0] := rfl
  change numberAt (sampleBytes page 0x2000 0x88) 0x80 8 = _
  rw [numberAt_sample (by decide), hbytes]
  rfl

theorem samplePlace_imagePathAddress (page : UInt8) (h : 0x2088 ≤ limit) :
    (samplePlace page limit h).imagePathAddress = 0x100*page.toNat := by
  have hbytes : sampleBytes page (0x2000+0x68) 8 = [0, page, 0, 0, 0, 0, 0, 0] := rfl
  change numberAt (sampleBytes page 0x2000 0x88) 0x68 8 = _
  rw [numberAt_sample (by decide), hbytes]
  simp [ofLe_cons, ofLe_nil]

def sampleEnvironment : Environment where
  vars := [⟨[0x41], [0x31]⟩]
  distinct := List.nodup_singleton _
  name_ne_nil := by decide
  value_nul := by decide

theorem sample_holdsBlock (h : 0x400A ≤ limit) :
    HoldsBlock (sampleProcess page limit) 0x4000 sampleEnvironment := by
  have hbytes : utf16LeBytes sampleEnvironment.block = sampleBytes page 0x4000 10 := rfl
  rw [HoldsBlock, hbytes]
  exact read_sample h

theorem sample_imagePath (h : 0x3006 ≤ limit) :
    read (sampleProcess page limit).memory 0x3000 (utf16LeBytes [0x61, 0, 0]).length =
      some (utf16LeBytes [0x61, 0, 0]) := by
  have hbytes : utf16LeBytes [0x61, 0, 0] = sampleBytes page 0x3000 6 := rfl
  rw [hbytes]
  exact read_sample h

end Sample

end WindowsErg.Process
