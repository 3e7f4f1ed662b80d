import WindowsErg.BoundedChannel
import WindowsErg.EtwBuilder
import WindowsErg.ObservedMachine

/-! A running trace session of `src/etw/session.rs`: the callback of the `ProcessTrace` thread and
the consumer share two bounded channels and a counter. One action is one channel operation. -/
namespace WindowsErg.Etw
open TextScan ByteCodec BoundedChannel
variable {R D : Type}

def normalizeProcessFilter (pids : List UInt32) : Option (List UInt32) :=
  if pids.isEmpty then none else some pids

def pointerSizeFromHeaderFlags (flags : UInt16) : ℕ :=
  if flags &&& 0x40 ≠ 0 then 8 else if flags &&& 0x20 ≠ 0 then 4 else 8

/-- What this model leaves open: the trace data helper, the decoder of kernel events, and how raw
events are built. -/
structure EventTools (R D : Type) where
  tdh : Tdh
  decodeFromRecordParts : Guid → UInt8 → UInt8 → ℕ → Bytes → Option (List EventField) → D
  traceEvent : EventRecord → Option (List EventField) → R

structure CallbackContext (R D : Type) extends EventTools R D where
  processFilter : Option (List UInt32)
  opcodeDrops : List OpcodeDrop

namespace CallbackContext

def passesProcessFilter (ctx : CallbackContext R D) (record : EventRecord) : Bool :=
  match ctx.processFilter with
  | none => true
  | some pids => pids.contains record.eventHeader.processId

def dropsOpcode (ctx : CallbackContext R D) (record : EventRecord) : Bool :=
  isDropped ctx.opcodeDrops record.eventHeader.providerId record.eventHeader.eventDescriptor.opcode

def accepts (ctx : CallbackContext R D) (record : EventRecord) : Bool :=
  ctx.passesProcessFilter record && !ctx.dropsOpcode record

def decodedEvent (ctx : CallbackContext R D) (record : EventRecord)
    (fields : Option (List EventField)) : D :=
  let desc := record.eventHeader.eventDescriptor
  ctx.decodeFromRecordParts record.eventHeader.providerId desc.version desc.opcode
    (pointerSizeFromHeaderFlags record.eventHeader.flags) record.userData fields

end CallbackContext

def EventTraceBuilder.callbackContext (builder : EventTraceBuilder) (tools : EventTools R D) :
    CallbackContext R D :=
  { tools with processFilter := normalizeProcessFilter builder.processFilter,
               opcodeDrops := builder.opcodeDrops }

/-- Where the callback stands: at a send, or between a failed send and its count. -/
inductive Callback where
  | idle
  | sendDecoded (record : EventRecord) (fields : Option (List EventField))
  | countDecoded (record : EventRecord) (fields : Option (List EventField))
  | sendRaw (record : EventRecord) (fields : Option (List EventField))
  | countRaw

/-- Where the consumer stands: in the loop of a drain, or blocked in `recv_timeout`. -/
inductive Consumer (R D : Type) where
  | idle
  | drainRaw (filter : R → Bool)
  | waitRaw
  | drainWaited
  | drainDecoded (filter : D → Bool)

structure Session (R D : Type) where
  raw : Option (Channel R)
  decoded : Option (Channel D)
  schemaCache : Option SchemaCache
  dropped : UInt64
  callback : Callback
  consumer : Consumer R D
  outRaw : List R
  outDecoded : List D
  eventsProcessed : ℕ

inductive Observation (R D : Type) where
  | discarded (record : EventRecord)
  | accepted (record : EventRecord) (fields : Option (List EventField))
  | sentRaw (event : R) (ok : Bool)
  | sentDecoded (event : D) (ok : Bool)
  | takenRaw (event : R) (kept : Bool)
  | takenDecoded (event : D) (kept : Bool)
  | returnedRaw (outEvents : List R)
  | returnedDecoded (outEvents : List D)
  | consumeFailed (reason : Text)

abbrev StepResult (R D : Type) := Option (Session R D × List (Observation R D))

namespace Session

def started (builder : EventTraceBuilder) : Session R D :=
  let raw := match builder.streamMode with
    | .raw | .both => some (Channel.new builder.channelCapacity)
    | .decoded => none
  let decoded := match builder.streamMode with
    | .decoded | .both => some (Channel.new builder.channelCapacity)
    | .raw => none
  { raw, decoded,
    schemaCache := if builder.detailedEvents || decoded.isSome then some SchemaCache.new else none,
    dropped := 0, callback := .idle, consumer := .idle, outRaw := [], outDecoded := [],
    eventsProcessed := 0 }

def parseFields (tdh : Tdh) (s : Session R D) (record : EventRecord) :
    Option (List EventField) × Option SchemaCache :=
  match s.schemaCache with
  | none => (none, none)
  | some cache =>
    let parsed := cache.parseEventFields tdh record
    (parsed.1, some parsed.2)

/-- `trace_callback_fn` up to its first send. -/
def traceCallbackFn (ctx : CallbackContext R D) (s : Session R D) (record : EventRecord) :
    StepResult R D :=
  match s.callback with
  | .idle =>
    -- both filters come before the fields are parsed
    if ctx.passesProcessFilter record = false then some (s, [.discarded record])
    else if ctx.dropsOpcode record then some (s, [.discarded record])
    else
      let parsed := s.parseFields ctx.tdh record
      some ({ s with schemaCache := parsed.2, callback := .sendDecoded record parsed.1 },
        [.accepted record parsed.1])
  | _ => none

def callbackStep (ctx : CallbackContext R D) (s : Session R D) : StepResult R D :=
  match s.callback with
  | .idle => none
  | .sendDecoded record fields =>
    match s.decoded with
    | none => some ({ s with callback := .sendRaw record fields }, [])
    | some ch =>
      let event := ctx.decodedEvent record fields
      match ch.trySend event with
      | some next =>
        some ({ s with decoded := some next, callback := .sendRaw record fields },
          [.sentDecoded event true])
      | none =>
        some ({ s with callback := .countDecoded record fields }, [.sentDecoded event false])
  | .countDecoded record fields =>
    some ({ s with dropped := s.dropped+1, callback := .sendRaw record fields }, [])
  | .sendRaw record fields =>
    match s.raw with
    | none => some ({ s with callback := .idle }, [])
    | some ch =>
      let event := ctx.traceEvent record fields
      match ch.trySend event with
      | some next => some ({ s with raw := some next, callback := .idle }, [.sentRaw event true])
      -- the event is lost here, the counter is increased in the next step
      | none => some ({ s with callback := .countRaw }, [.sentRaw event false])
  | .countRaw => some ({ s with dropped := s.dropped+1, callback := .idle }, [])

def rawDisabled : Text := "Raw event stream is disabled for this session".toList

def decodedDisabled : Text := "Decoded event stream is disabled for this session".toList

/-- The call up to its first receive, as are those below. -/
def nextBatchWithFilter (s : Session R D) (filter : R → Bool) : StepResult R D :=
  match s.consumer, s.raw with
  | .idle, none => some (s, [.consumeFailed rawDisabled])
  | .idle, some _ => some ({ s with outRaw := [], consumer := .drainRaw filter }, [])
  | _, _ => none

def nextBatch (s : Session R D) : StepResult R D := s.nextBatchWithFilter (fun _ => true)

def nextBatchOrStopped (s : Session R D) (signaled : Bool) : StepResult R D :=
  match s.consumer with
  | .idle => if signaled then some ({ s with outRaw := [] }, [.returnedRaw []]) else s.nextBatch
  | _ => none

def nextBatchTimeout (s : Session R D) : StepResult R D :=
  match s.consumer, s.raw with
  | .idle, none => some (s, [.consumeFailed rawDisabled])
  | .idle, some ch =>
    -- from here on a sender finds a receiver, also where the channel has no room
    some ({ s with raw := some ch.park, outRaw := [], consumer := .waitRaw }, [])
  | _, _ => none

def nextBatchDecodedWithFilter (s : Session R D) (filter : D → Bool) : StepResult R D :=
  match s.consumer, s.decoded with
  | .idle, none => some (s, [.consumeFailed decodedDisabled])
  | .idle, some _ => some ({ s with outDecoded := [], consumer := .drainDecoded filter }, [])
  | _, _ => none

def nextBatchDecoded (s : Session R D) : StepResult R D :=
  s.nextBatchDecodedWithFilter (fun _ => true)

/-- The next receive of the consumer; a drain returns when there is nothing to receive, a
blocked consumer goes on when there is something. -/
def consumerStep (s : Session R D) : StepResult R D :=
  match s.consumer with
  | .idle => none
  | .drainRaw filter =>
    s.raw.bind fun ch =>
      match ch.tryRecv with
      | none => some ({ s with consumer := .idle }, [.returnedRaw s.outRaw])
      | some (event, next) =>
        if filter event then
          some ({ s with raw := some next, outRaw := s.outRaw ++ [event],
                         eventsProcessed := s.eventsProcessed+1 }, [.takenRaw event true])
        else some ({ s with raw := some next }, [.takenRaw event false])
  | .waitRaw =>
    s.raw.bind fun ch =>
      match ch.recvParked with
      | none => none
      | some (event, next) =>
        some ({ s with raw := some next, outRaw := s.outRaw ++ [event],
                       consumer := .drainWaited }, [.takenRaw event true])
  | .drainWaited =>
    s.raw.bind fun ch =>
      match ch.tryRecv with
      | none =>
        -- this call counts its events only when it returns
        some ({ s with eventsProcessed := s.eventsProcessed+s.outRaw.length, consumer := .idle },
          [.returnedRaw s.outRaw])
      | some (event, next) =>
        some ({ s with raw := some next, outRaw := s.outRaw ++ [event] }, [.takenRaw event true])
  | .drainDecoded filter =>
    s.decoded.bind fun ch =>
      match ch.tryRecv with
      | none => some ({ s with consumer := .idle }, [.returnedDecoded s.outDecoded])
      | some (event, next) =>
        if filter event then
          some ({ s with decoded := some next, outDecoded := s.outDecoded ++ [event],
                         eventsProcessed := s.eventsProcessed+1 }, [.takenDecoded event true])
        else some ({ s with decoded := some next }, [.takenDecoded event false])

/-- `recv_timeout` gives up. An event may have been queued since the consumer last looked, but
none has been handed to it. -/
def timeout (s : Session R D) : StepResult R D :=
  match s.consumer, s.raw with
  | .waitRaw, some ch =>
    if ch.handed.isSome then none
    else some ({ s with raw := some ch.unpark, consumer := .idle }, [.returnedRaw s.outRaw])
  | _, _ => none

inductive Action (R D : Type) where
  | traceCallbackFn (record : EventRecord)
  | callbackStep
  | nextBatchWithFilter (filter : R → Bool)
  | nextBatchOrStopped (signaled : Bool)
  | nextBatchTimeout
  | nextBatchDecodedWithFilter (filter : D → Bool)
  | consumerStep
  | timeout

def step (ctx : CallbackContext R D) (s : Session R D) : Action R D → StepResult R D
  | .traceCallbackFn record => s.traceCallbackFn ctx record
  | .callbackStep => s.callbackStep ctx
  | .nextBatchWithFilter filter => s.nextBatchWithFilter filter
  | .nextBatchOrStopped signaled => s.nextBatchOrStopped signaled
  | .nextBatchTimeout => s.nextBatchTimeout
  | .nextBatchDecodedWithFilter filter => s.nextBatchDecodedWithFilter filter
  | .consumerStep => s.consumerStep
  | .timeout => s.timeout

def runFrom (builder : EventTraceBuilder) (tools : EventTools R D) (actions : List (Action R D)) :
    StepResult R D :=
  ObservedMachine.run (step (builder.callbackContext tools)) (started builder) actions

end Session

end WindowsErg.Etw
