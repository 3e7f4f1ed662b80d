import WindowsErg.EtwSchemaCache
import WindowsErg.OctetSet

/-! The configuration of a trace session, `src/etw/session.rs`, and the filters of its callback. -/
namespace WindowsErg.Etw
open List TextScan ByteCodec

inductive KernelEventClass where
  | tcpIp
  | udpIp
  | fileIo
  | registry
  deriving DecidableEq, Repr

def KernelEventClass.guid : KernelEventClass → Guid
  | .tcpIp => ⟨0x9a280ac0, 0xc8e0, 0x11d1, [0x84, 0xe2, 0x00, 0xc0, 0x4f, 0xb9, 0x98, 0xa2]⟩
  | .udpIp => ⟨0xbf3a50c5, 0xa9c9, 0x4988, [0xa0, 0x05, 0x2d, 0xf0, 0xb7, 0xc8, 0x0f, 0x80]⟩
  | .fileIo => ⟨0x90cbdc39, 0x4a3e, 0x11d1, [0x84, 0xf4, 0x00, 0x00, 0xf8, 0x04, 0x64, 0xe3]⟩
  | .registry => ⟨0xae53722e, 0xc863, 0x11d2, [0x86, 0x59, 0x00, 0xc0, 0x4f, 0xa3, 0x21, 0xa1]⟩

theorem KernelEventClass.guid_injective : Function.Injective KernelEventClass.guid := by
  intro a b h
  cases a <;> cases b <;> first | rfl | exact absurd h (by decide)

structure OpcodeDrop where
  eventClass : Guid
  opcodes : OctetSet
  deriving DecidableEq, Repr

def OpcodeDrop.contains (drop : OpcodeDrop) (opcode : UInt8) : Bool := drop.opcodes.contains opcode

def isDropped (drops : List OpcodeDrop) (eventClass : Guid) (opcode : UInt8) : Bool :=
  drops.any fun drop => decide (drop.eventClass = eventClass) && drop.contains opcode

def withEntry (drops : List OpcodeDrop) (guid : Guid) : List OpcodeDrop × ℕ :=
  match drops.findIdx? (fun drop => decide (drop.eventClass = guid)) with
  | some index => (drops, index)
  | none => (drops ++ [⟨guid, OctetSet.empty⟩], drops.length)

def OpcodeDrop.insertAll (opcodes : List UInt8) (drop : OpcodeDrop) : OpcodeDrop :=
  { drop with opcodes := drop.opcodes.insertAll opcodes }

def addOpcodes (drops : List OpcodeDrop) (eventClass : KernelEventClass) (opcodes : List UInt8) :
    List OpcodeDrop :=
  let entry := withEntry drops eventClass.guid
  entry.1.modify entry.2 (OpcodeDrop.insertAll opcodes)

theorem withEntry_spec (drops : List OpcodeDrop) (guid : Guid) :
    (∃ drop, (withEntry drops guid).1[(withEntry drops guid).2]? = some drop ∧
      drop.eventClass = guid) ∧
    ∀ cls opcode, isDropped (withEntry drops guid).1 cls opcode = isDropped drops cls opcode := by
  unfold withEntry
  cases hfind : drops.findIdx? (fun drop => decide (drop.eventClass = guid)) with
  | some index =>
    obtain ⟨hlt, hclass, -⟩ := List.findIdx?_eq_some_iff_getElem.mp hfind
    exact ⟨⟨drops[index], List.getElem?_eq_getElem hlt, of_decide_eq_true hclass⟩,
      fun _ _ => rfl⟩
  | none =>
    refine ⟨⟨⟨guid, OctetSet.empty⟩, List.getElem?_concat_length, rfl⟩, ?_⟩
    intro cls opcode
    simp [isDropped, OpcodeDrop.contains]

theorem isDropped_append (xs ys : List OpcodeDrop) (cls : Guid) (opcode : UInt8) :
    isDropped (xs ++ ys) cls opcode = (isDropped xs cls opcode || isDropped ys cls opcode) :=
  any_append

theorem isDropped_cons (drop : OpcodeDrop) (drops : List OpcodeDrop) (cls : Guid) (opcode : UInt8) :
    isDropped (drop :: drops) cls opcode =
      (decide (drop.eventClass = cls) && drop.contains opcode || isDropped drops cls opcode) :=
  any_cons

theorem isDropped_addOpcodes (drops : List OpcodeDrop) (eventClass : KernelEventClass)
    (opcodes : List UInt8) (cls : Guid) (opcode : UInt8) :
    isDropped (addOpcodes drops eventClass opcodes) cls opcode = true ↔
      isDropped drops cls opcode = true ∨ eventClass.guid = cls ∧ opcode ∈ opcodes := by
  obtain ⟨⟨drop, hdrop, hclass⟩, hsame⟩ := withEntry_spec drops eventClass.guid
  obtain ⟨hlt, hget⟩ := List.getElem?_eq_some_iff.mp hdrop
  -- the list around the entry of the class: only this entry changes
  obtain ⟨pre, found, post, hsplit, hlen, hmodify⟩ :=
    exists_of_modify (OpcodeDrop.insertAll opcodes) hlt
  have hfound : found = drop := by
    rw [← hget]
    simp [hsplit, ← hlen]
  have hbefore := hsame cls opcode
  rw [hsplit, isDropped_append, isDropped_cons] at hbefore
  unfold addOpcodes
  rw [hmodify, isDropped_append, isDropped_cons, ← hbefore, hfound]
  simp only [OpcodeDrop.insertAll, OpcodeDrop.contains, OctetSet.contains_insertAll, hclass,
    Bool.or_eq_true, Bool.and_eq_true, decide_eq_true_eq]
  tauto

theorem nodup_addOpcodes {drops : List OpcodeDrop} (eventClass : KernelEventClass)
    (opcodes : List UInt8) (h : (drops.map OpcodeDrop.eventClass).Nodup) :
    ((addOpcodes drops eventClass opcodes).map OpcodeDrop.eventClass).Nodup := by
  have hsame (drops : List OpcodeDrop) (index : ℕ) :
      (drops.modify index (OpcodeDrop.insertAll opcodes)).map OpcodeDrop.eventClass =
        drops.map OpcodeDrop.eventClass := by
    apply ext_getElem?
    intro i
    rw [List.getElem?_map, List.getElem?_modify, List.getElem?_map, Option.map_eq_map, Option.map_map]
    congr 1
    funext drop
    dsimp only [Function.comp]
    split <;> rfl
  rw [addOpcodes, hsame, withEntry]
  split
  · exact h
  · -- a new entry is made only for a class without one
    rename_i hnone
    rw [map_append, map_singleton, ← concat_eq_append]
    refine h.concat fun hmem => ?_
    obtain ⟨drop, hdrop, hclass⟩ := mem_map.mp hmem
    exact absurd hclass (of_decide_eq_false (List.findIdx?_eq_none_iff.mp hnone drop hdrop))

inductive SystemProvider where
  | process
  | thread
  | registry
  | network
  | fileIo
  | fileIoInit
  | imageLoad
  deriving DecidableEq, Repr

def SystemProvider.traceFlags : SystemProvider → UInt32
  | .process => 0x1
  | .thread => 0x2
  | .registry => 0x20000
  | .network => 0x10000
  | .fileIo => 0x2000000 ||| 0x4000000
  | .fileIoInit => 0x4000000
  | .imageLoad => 0x4

inductive TraceLevel where
  | critical
  | error
  | warning
  | info
  | verbose
  deriving DecidableEq, Repr

def TraceLevel.toU8 : TraceLevel → UInt8
  | .critical => 1
  | .error => 2
  | .warning => 3
  | .info => 4
  | .verbose => 5

structure UserProviderSpec where
  guid : Guid
  level : TraceLevel
  matchAnyKeyword : UInt64
  deriving DecidableEq, Repr

inductive EventStreamMode where
  | raw
  | decoded
  | both
  deriving DecidableEq, Repr

/-- The parts of the builder that the session and its start read; the enrichments of raw
events are left to the function that builds them. -/
structure EventTraceBuilder where
  name : Text
  systemProviders : List SystemProvider := []
  userProviders : List UserProviderSpec := []
  bufferSize : UInt32 := 64
  minBuffers : UInt32 := 2
  maxBuffers : UInt32 := 20
  flushInterval : UInt32 := 1
  channelCapacity : ℕ := 10000
  streamMode : EventStreamMode := .raw
  detailedEvents : Bool := false
  processFilter : List UInt32 := []
  opcodeDrops : List OpcodeDrop := []
  privateLoggerGuid : Option Guid := none
  deriving DecidableEq, Repr

namespace EventTraceBuilder

def dropOpcodes (builder : EventTraceBuilder) (eventClass : KernelEventClass)
    (opcodes : List UInt8) : EventTraceBuilder :=
  { builder with opcodeDrops := addOpcodes builder.opcodeDrops eventClass opcodes }

def dropAll (builder : EventTraceBuilder) (calls : List (KernelEventClass × List UInt8)) :
    EventTraceBuilder :=
  calls.foldl (fun b call => b.dropOpcodes call.1 call.2) builder

section
variable (builder : EventTraceBuilder) (calls : List (KernelEventClass × List UInt8))

theorem dropAll_eq :
    ∃ drops, builder.dropAll calls = { builder with opcodeDrops := drops } := by
  induction calls generalizing builder with
  | nil => exact ⟨builder.opcodeDrops, rfl⟩
  | cons call calls ih => exact ih (builder.dropOpcodes call.1 call.2)

theorem isDropped_dropAll (cls : Guid) (opcode : UInt8) :
    isDropped (builder.dropAll calls).opcodeDrops cls opcode = true ↔
      isDropped builder.opcodeDrops cls opcode = true ∨
        ∃ call ∈ calls, call.1.guid = cls ∧ opcode ∈ call.2 := by
  induction calls generalizing builder with
  | nil => simp [dropAll]
  | cons call calls ih =>
    change isDropped ((builder.dropOpcodes call.1 call.2).dropAll calls).opcodeDrops cls opcode =
      true ↔ _
    rw [ih, dropOpcodes, isDropped_addOpcodes, or_assoc, exists_mem_cons_iff]

theorem nodup_dropAll (h : (builder.opcodeDrops.map OpcodeDrop.eventClass).Nodup) :
    ((builder.dropAll calls).opcodeDrops.map OpcodeDrop.eventClass).Nodup := by
  induction calls generalizing builder with
  | nil => exact h
  | cons call calls ih => exact ih _ (nodup_addOpcodes call.1 call.2 h)

end

/-- The calls on a builder without drops make a set of opcodes for each class. -/
theorem opcode_drops_accumulate (builder : EventTraceBuilder)
    (calls : List (KernelEventClass × List UInt8)) :
    (∀ cls opcode, isDropped ({ builder with opcodeDrops := [] }.dropAll calls).opcodeDrops
        (KernelEventClass.guid cls) opcode = true ↔ ∃ call ∈ calls, call.1 = cls ∧ opcode ∈ call.2) ∧
      (({ builder with opcodeDrops := [] }.dropAll calls).opcodeDrops.map OpcodeDrop.eventClass).Nodup := by
  refine ⟨?_, nodup_dropAll { builder with opcodeDrops := [] } calls nodup_nil⟩
  intro cls opcode
  rw [isDropped_dropAll]
  simp only [KernelEventClass.guid_injective.eq_iff]
  exact or_iff_right (by simp [isDropped])

end EventTraceBuilder

end WindowsErg.Etw
