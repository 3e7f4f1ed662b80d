import WindowsErg.EtwSchema
import WindowsErg.MemoTable

/-! The caches of event schemas and value maps, `SchemaCache` of `src/etw/schema.rs`. The
trace data helper (TDH) is a parameter. -/
namespace WindowsErg.Etw
open Option List TextScan ByteCodec UnicodeText MemoTable

structure EventDescriptor where
  id : UInt16
  version : UInt8
  channel : UInt8
  level : UInt8
  opcode : UInt8
  task : UInt16
  keyword : UInt64
  deriving DecidableEq, Repr

structure EventHeader where
  flags : UInt16
  threadId : UInt32
  processId : UInt32
  timeStamp : Int64
  providerId : Guid
  eventDescriptor : EventDescriptor
  deriving DecidableEq

structure ExtendedDataItem where
  extType : UInt16
  data : Bytes
  deriving DecidableEq, Repr

/-- The parts of an `EVENT_RECORD` that are read; `userData` is empty for a null pointer. -/
structure EventRecord where
  eventHeader : EventHeader
  extendedData : List ExtendedDataItem
  userData : Bytes
  deriving DecidableEq

structure SchemaKey where
  provider : Guid
  id : UInt16
  opcode : UInt8
  version : UInt8
  level : UInt8
  deriving DecidableEq

def SchemaKey.fromRecord (record : EventRecord) : SchemaKey :=
  let desc := record.eventHeader.eventDescriptor
  { provider := record.eventHeader.providerId, id := desc.id, opcode := desc.opcode,
    version := desc.version, level := desc.level }

inductive MapKind where
  | value
  | bitmap
  deriving DecidableEq, Repr

inductive MapKey where
  | numeric (v : UInt64)
  | text (v : Text)
  deriving DecidableEq, Repr

structure MapEntry where
  key : MapKey
  label : Text
  deriving DecidableEq, Repr

structure MapDefinition where
  kind : MapKind
  entries : List MapEntry
  deriving DecidableEq, Repr

/-- The answers of TDH: a status with the size it asks for, and a status with the buffer it fills.
-/
structure Tdh where
  eventInformationSize : EventHeader → List ExtendedDataItem → ℕ × ℕ
  eventInformation : EventHeader → List ExtendedDataItem → ℕ × Bytes
  eventMapInformationSize : Guid → Text → ℕ × ℕ
  eventMapInformation : Guid → Text → ℕ × Bytes

def errorInsufficientBuffer : ℕ := 122

def u16At (buffer : Bytes) (offset : ℕ) : ℕ := ofLe ((buffer.drop offset).take 2)

def u32At (buffer : Bytes) (offset : ℕ) : ℕ := ofLe ((buffer.drop offset).take 4)

def readUtf16CstrAt (buffer : Bytes) (offset : ℕ) : Option Text :=
  if buffer.length ≤ offset then none else (parseUtf16Cstr (buffer.drop offset)).map Prod.fst

def propertyStruct : ℕ := 0
def propertyParamLength : ℕ := 1
def propertyParamCount : ℕ := 2
def propertyParamFixedLength : ℕ := 4
def propertyParamFixedCount : ℕ := 5

def sizeOfEventPropertyInfo : ℕ := 24
def sizeOfTraceEventInfo : ℕ := 136

/-- The property whose `EVENT_PROPERTY_INFO` starts at `offset`; the flags are given by the
number of their bit. -/
def propertyAt (buffer : Bytes) (offset : ℕ) : PropertyMeta :=
  let flags := u32At buffer offset
  let hasStruct := flags.testBit propertyStruct
  let hasParamCount := flags.testBit propertyParamCount
  let hasFixedCount := flags.testBit propertyParamFixedCount
  let hasParamLength := flags.testBit propertyParamLength
  let hasFixedLength := flags.testBit propertyParamFixedLength
  let mapNameOffset := u32At buffer (offset+12)
  let count := u16At buffer (offset+16)
  let length := u16At buffer (offset+18)
  { name := (readUtf16CstrAt buffer (u32At buffer (offset+4))).getD [],
    inType := u16At buffer (offset+8),
    outType := u16At buffer (offset+10),
    length := UInt16.ofNat length,
    count := if hasParamCount && hasFixedCount then UInt16.ofNat (max count 1) else 1,
    countPropertyIndex := if hasParamCount && !hasFixedCount then some count else none,
    lengthPropertyIndex := if hasParamLength && !hasFixedLength then some length else none,
    mapName := if !hasStruct && 0 < mapNameOffset then readUtf16CstrAt buffer mapNameOffset
      else none }

def propertiesFrom (buffer : Bytes) : ℕ → ℕ → List PropertyMeta
  | 0, _ => []
  | n+1, offset =>
    if buffer.length < offset+sizeOfEventPropertyInfo then []
    else propertyAt buffer offset :: propertiesFrom buffer n (offset+sizeOfEventPropertyInfo)

def buildSchema (tdh : Tdh) (record : EventRecord) : Option CachedSchema :=
  let (rc, _) := tdh.eventInformationSize record.eventHeader record.extendedData
  if rc ≠ errorInsufficientBuffer then none
  else
    let (rc, buffer) := tdh.eventInformation record.eventHeader record.extendedData
    if rc ≠ 0 then none
    else
      some ⟨propertiesFrom buffer (u32At buffer 100) (sizeOfTraceEventInfo-sizeOfEventPropertyInfo)⟩

def mapEntryAt (buffer : Bytes) (isNumeric : Bool) (offset : ℕ) : Option MapEntry := do
  let key ←
    if isNumeric then some (MapKey.numeric (UInt64.ofNat (u32At buffer (offset+4))))
    else (readUtf16CstrAt buffer (u32At buffer (offset+4))).map MapKey.text
  let label ← readUtf16CstrAt buffer (u32At buffer offset)
  return ⟨key, label⟩

def mapKindOf (flag : ℕ) : Option MapKind :=
  -- manifest bitmap, WBEM bitmap, WBEM flag
  if flag = 2 ∨ flag = 16 ∨ flag = 32 then some .bitmap
  -- manifest value map, WBEM value map, manifest pattern map
  else if flag = 1 ∨ flag = 8 ∨ flag = 4 then some .value
  else none

def loadEventMap (tdh : Tdh) (record : EventRecord) (mapName : Text) : Option MapDefinition :=
  let provider := record.eventHeader.providerId
  let (first, size) := tdh.eventMapInformationSize provider mapName
  if first ≠ errorInsufficientBuffer ∨ size = 0 then none
  else
    let (second, buffer) := tdh.eventMapInformation provider mapName
    if second ≠ 0 then none
    else do
      let valueType := u32At buffer 12
      if valueType ≠ 0 ∧ valueType ≠ 1 then none
      else
        let kind ← mapKindOf (u32At buffer 4)
        let entries ← (List.range (u32At buffer 8)).mapM
          fun i => mapEntryAt buffer (valueType == 0) (16+8*i)
        return ⟨kind, entries⟩

namespace MapDefinition

def findNumeric (map : MapDefinition) (value : UInt64) : Option Text :=
  map.entries.findSome? fun entry => if entry.key = .numeric value then some entry.label else none

def bitLabel (value : UInt64) (entry : MapEntry) : Option Text :=
  match entry.key with
  | .numeric bit => if bit ≠ 0 ∧ value &&& bit = bit then some entry.label else none
  | .text _ => none

def renderNumeric (map : MapDefinition) (value : UInt64) : Option Text :=
  match map.kind with
  | .value => map.findNumeric value
  | .bitmap =>
    let labels := map.entries.filterMap (bitLabel value)
    if labels = [] then map.findNumeric value
    else some (List.intercalate ['|'] labels)

def textLabel (value : Text) (entry : MapEntry) : Option Text :=
  match entry.key with
  | .text k => if eqIgnoreAsciiCase k value then some entry.label else none
  | .numeric _ => none

def renderText (map : MapDefinition) (value : Text) : Option Text :=
  map.entries.findSome? (textLabel value)

def relabel (map : MapDefinition) (field : EventField) : EventField :=
  let mapped := ((extractNumericValue field.value).bind map.renderNumeric).or
    ((extractTextValue field.value).bind map.renderText)
  match mapped with
  | some label => { field with value := .string label }
  | none => field

end MapDefinition

structure SchemaCache where
  cache : Table SchemaKey CachedSchema
  mapCache : Table Text MapDefinition

namespace SchemaCache

def new : SchemaCache := ⟨empty, empty⟩

def applyMapValues (load : Text → Option MapDefinition) :
    List PropertyMeta → List EventField → Table Text MapDefinition →
      List EventField × Table Text MapDefinition
  | _, [], maps => ([], maps)
  | [], field :: fields, maps => (field :: fields, maps)
  | prop :: props, field :: fields, maps =>
    match prop.mapName with
    | none =>
      let rest := applyMapValues load props fields maps
      (field :: rest.1, rest.2)
    | some name =>
      let found := getOrLoad maps name (load name)
      let rest := applyMapValues load props fields found.2
      (found.1.elim field (·.relabel field) :: rest.1, rest.2)

def parseEventFields (tdh : Tdh) (caches : SchemaCache) (record : EventRecord) :
    Option (List EventField) × SchemaCache :=
  let found := getOrLoad caches.cache (SchemaKey.fromRecord record) (buildSchema tdh record)
  match found.1 with
  | none => (none, { caches with cache := found.2 })
  | some schema =>
    let mapped := applyMapValues (loadEventMap tdh record) schema.props
      (parseValues schema record.userData) caches.mapCache
    (some mapped.1, ⟨found.2, mapped.2⟩)

def parseTrace (tdh : Tdh) : SchemaCache → List EventRecord → List (Option (List EventField))
  | _, [] => []
  | caches, record :: records =>
    (parseEventFields tdh caches record).1 ::
      parseTrace tdh (parseEventFields tdh caches record).2 records

def mapNames (props : List PropertyMeta) : List Text := props.filterMap (·.mapName)

def relabelFields (load : Text → Option MapDefinition) :
    List PropertyMeta → List EventField → List EventField
  | _, [] => []
  | [], field :: fields => field :: fields
  | prop :: props, field :: fields =>
    (prop.mapName.bind load).elim field (·.relabel field) :: relabelFields load props fields

section
variable (load : Text → Option MapDefinition) (props : List PropertyMeta) (fields : List EventField)
    (maps : Table Text MapDefinition)

theorem applyMapValues_fst
    (h : Explained maps (fun name map => name ∈ mapNames props → load name = some map)) :
    (applyMapValues load props fields maps).1 = relabelFields load props fields := by
  induction props generalizing fields maps with
  | nil => cases fields <;> rfl
  | cons prop props ih =>
    cases fields with
    | nil => rfl
    | cons field fields =>
      have htail (name : Text) (hname : name ∈ mapNames props) : name ∈ mapNames (prop :: props) := by
        obtain ⟨p, hp, hpn⟩ := mem_filterMap.mp hname
        exact mem_filterMap.mpr ⟨p, mem_cons_of_mem _ hp, hpn⟩
      have hrest : Explained maps (fun name map => name ∈ mapNames props → load name = some map) :=
        h.mono (fun name map hload hname => hload (htail name hname))
      cases hprop : prop.mapName with
      | none =>
        simp only [applyMapValues, relabelFields, hprop, bind_none, elim_none]
        rw [ih fields maps hrest]
      | some name =>
        have hhead : name ∈ mapNames (prop :: props) :=
          mem_filterMap.mpr ⟨prop, mem_cons_self, hprop⟩
        have hfound := getOrLoad_fst maps name (load name) (fun map hmap => h name map hmap hhead)
        have hnext := hrest.getOrLoad name (load name) (fun map hmap _ => hmap)
        simp only [applyMapValues, relabelFields, hprop, bind_some, hfound]
        rw [ih fields _ hnext]

theorem applyMapValues_snd (P : Text → MapDefinition → Prop) (h : Explained maps P)
    (hload : ∀ name ∈ mapNames props, ∀ map, load name = some map → P name map) :
    Explained (applyMapValues load props fields maps).2 P := by
  induction props generalizing fields maps with
  | nil => cases fields <;> exact h
  | cons prop props ih =>
    cases fields with
    | nil => exact h
    | cons field fields =>
      have htail : ∀ name ∈ mapNames props, ∀ map, load name = some map → P name map := by
        intro name hname
        obtain ⟨p, hp, hpn⟩ := mem_filterMap.mp hname
        exact hload name (mem_filterMap.mpr ⟨p, mem_cons_of_mem _ hp, hpn⟩)
      cases hprop : prop.mapName with
      | none =>
        simp only [applyMapValues, hprop]
        exact ih fields maps h htail
      | some name =>
        have hhead : name ∈ mapNames (prop :: props) :=
          mem_filterMap.mpr ⟨prop, mem_cons_self, hprop⟩
        simp only [applyMapValues, hprop]
        exact ih fields _ (h.getOrLoad name (load name) (hload name hhead)) htail

end

def freshFields (tdh : Tdh) (record : EventRecord) : Option (List EventField) :=
  (buildSchema tdh record).map fun schema =>
    relabelFields (loadEventMap tdh record) schema.props (parseValues schema record.userData)

def recordMapNames (tdh : Tdh) (record : EventRecord) : List Text :=
  (buildSchema tdh record).elim [] (mapNames ·.props)

/-- What `earlier` leaves in the caches is right for `later`: under one key they have one
schema, and a map name that both use stands for one map. -/
structure Compatible (tdh : Tdh) (earlier later : EventRecord) : Prop where
  schema : SchemaKey.fromRecord earlier = SchemaKey.fromRecord later →
    ∀ schema, buildSchema tdh earlier = some schema → buildSchema tdh later = some schema
  map : ∀ name ∈ recordMapNames tdh earlier, name ∈ recordMapNames tdh later →
    ∀ map, loadEventMap tdh earlier name = some map → loadEventMap tdh later name = some map

structure FilledBy (tdh : Tdh) (past : List EventRecord) (caches : SchemaCache) : Prop where
  cache : Explained caches.cache fun key schema =>
    ∃ e ∈ past, SchemaKey.fromRecord e = key ∧ buildSchema tdh e = some schema
  mapCache : Explained caches.mapCache fun name map =>
    ∃ e ∈ past, name ∈ recordMapNames tdh e ∧ loadEventMap tdh e name = some map

theorem filledBy_new (tdh : Tdh) : FilledBy tdh [] new :=
  ⟨explained_empty _, explained_empty _⟩

theorem parseEventFields_step (tdh : Tdh) (past : List EventRecord) (caches : SchemaCache)
    (record : EventRecord) (hfilled : FilledBy tdh past caches)
    (hcompat : ∀ e ∈ past, Compatible tdh e record) :
    (parseEventFields tdh caches record).1 = freshFields tdh record ∧
      FilledBy tdh (past ++ [record]) (parseEventFields tdh caches record).2 := by
  have hlast : record ∈ past ++ [record] := mem_append_right _ (mem_singleton.mpr rfl)
  have hschema := getOrLoad_fst caches.cache (SchemaKey.fromRecord record) (buildSchema tdh record)
    (fun schema hs => by
      obtain ⟨e, he, hkey, hbuild⟩ := hfilled.cache _ schema hs
      exact (hcompat e he).schema hkey schema hbuild)
  have hcache : Explained (getOrLoad caches.cache (SchemaKey.fromRecord record)
      (buildSchema tdh record)).2 fun key schema =>
        ∃ e ∈ past ++ [record], SchemaKey.fromRecord e = key ∧ buildSchema tdh e = some schema := by
    apply Explained.getOrLoad
    · exact hfilled.cache.mono (fun key schema ⟨e, he, h⟩ => ⟨e, mem_append_left _ he, h⟩)
    · intro schema hs
      exact ⟨record, hlast, rfl, hs⟩
  have hmaps : Explained caches.mapCache fun name map =>
      ∃ e ∈ past ++ [record], name ∈ recordMapNames tdh e ∧ loadEventMap tdh e name = some map :=
    hfilled.mapCache.mono (fun name map ⟨e, he, h⟩ => ⟨e, mem_append_left _ he, h⟩)
  unfold parseEventFields freshFields
  simp only [hschema]
  cases hbuild : buildSchema tdh record with
  | none =>
    rw [hbuild] at hcache
    exact ⟨rfl, hcache, hmaps⟩
  | some schema =>
    rw [hbuild] at hcache
    have hnames : recordMapNames tdh record = mapNames schema.props := by
      rw [recordMapNames, hbuild, elim_some]
    refine ⟨congrArg some ?_, hcache, ?_⟩
    · apply applyMapValues_fst
      intro name map hmap hname
      obtain ⟨e, he, hused, hload⟩ := hfilled.mapCache name map hmap
      exact (hcompat e he).map name hused (hnames ▸ hname) map hload
    · apply applyMapValues_snd _ _ _ _ _ hmaps
      intro name hname map hload
      exact ⟨record, hlast, hnames ▸ hname, hload⟩

theorem parseTrace_eq (tdh : Tdh) (records past : List EventRecord) (caches : SchemaCache)
    (hfilled : FilledBy tdh past caches) (hcompat : (past ++ records).Pairwise (Compatible tdh)) :
    parseTrace tdh caches records = records.map (freshFields tdh) := by
  induction records generalizing past caches with
  | nil => rfl
  | cons record records ih =>
    have hpast : ∀ e ∈ past, Compatible tdh e record := by
      intro e he
      exact (pairwise_append.mp hcompat).2.2 e he record mem_cons_self
    obtain ⟨hfields, hnext⟩ := parseEventFields_step tdh past caches record hfilled hpast
    rw [parseTrace, map_cons, hfields]
    congr 1
    apply ih (past ++ [record]) _ hnext
    rwa [append_assoc, singleton_append]

theorem parseEventFields_new (tdh : Tdh) (record : EventRecord) :
    (parseEventFields tdh new record).1 = freshFields tdh record :=
  (parseEventFields_step tdh [] new record (filledBy_new tdh)
    (fun _ he => absurd he not_mem_nil)).1

end SchemaCache

/-- In a trace where every event is compatible with those after it, the caches make no
difference to any event's fields. -/
theorem schema_caches_transparent (tdh : Tdh) (records : List EventRecord)
    (h : records.Pairwise (SchemaCache.Compatible tdh)) :
    SchemaCache.parseTrace tdh SchemaCache.new records =
      records.map (fun record => (SchemaCache.parseEventFields tdh SchemaCache.new record).1) := by
  rw [SchemaCache.parseTrace_eq tdh records [] SchemaCache.new (SchemaCache.filledBy_new tdh) h]
  apply map_congr_left
  intro record _
  exact (SchemaCache.parseEventFields_new tdh record).symm

def onePropertyInfo (inType : UInt8) : Bytes :=
  List.replicate 100 0 ++ [1, 0, 0, 0] ++ List.replicate 16 0 ++ [inType, 0] ++
    List.replicate 14 0

def selfDescribingTdh : Tdh where
  eventInformationSize _ _ := (122, 136)
  eventInformation _ items := (0, onePropertyInfo ((items.flatMap (·.data)).headD 0))
  eventMapInformationSize _ _ := (1168, 0)
  eventMapInformation _ _ := (1168, [])

def selfDescribingEvent (id : UInt16) (inType : UInt8) (userData : Bytes) : EventRecord where
  eventHeader :=
    { flags := 0, threadId := 0, processId := 0, timeStamp := 0,
      providerId := ⟨1, 2, 3, [0, 0, 0, 0, 0, 0, 0, 4]⟩,
      eventDescriptor := ⟨id, 0, 11, 5, 0, 0, 0⟩ }
  extendedData := [⟨11, [inType]⟩]
  userData := userData

theorem schema_caches_transparent_two_ids :
    SchemaCache.parseTrace selfDescribingTdh SchemaCache.new
        [selfDescribingEvent 1 8 [5, 0, 0, 0], selfDescribingEvent 2 4 [5]] =
      [some [⟨[], .u32 5⟩], some [⟨[], .u8 5⟩]] := by
  have hcompat : [selfDescribingEvent 1 8 [5, 0, 0, 0], selfDescribingEvent 2 4 [5]].Pairwise
      (SchemaCache.Compatible selfDescribingTdh) := by
    rw [pairwise_pair]
    refine ⟨fun hkey => absurd hkey (by decide), ?_⟩
    intro name hname
    rw [show SchemaCache.recordMapNames selfDescribingTdh (selfDescribingEvent 1 8 [5, 0, 0, 0]) =
      [] by decide +kernel] at hname
    exact absurd hname not_mem_nil
  rw [schema_caches_transparent selfDescribingTdh _ hcompat]
  decide +kernel

/-- Two self-describing events with one provider, id, opcode, version and level and different
schemas: the second is decoded by the schema of the first. -/
theorem schema_cache_confuses_self_describing :
    SchemaCache.parseTrace selfDescribingTdh SchemaCache.new
        [selfDescribingEvent 0 8 [5, 0, 0, 0], selfDescribingEvent 0 4 [5, 0, 0, 0]] =
      [some [⟨[], .u32 5⟩], some [⟨[], .u32 5⟩]] ∧
    (SchemaCache.parseEventFields selfDescribingTdh SchemaCache.new
        (selfDescribingEvent 0 4 [5, 0, 0, 0])).1 = some [⟨[], .u8 5⟩] := by
  decide +kernel

end WindowsErg.Etw
