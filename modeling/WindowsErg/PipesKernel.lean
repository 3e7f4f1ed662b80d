import Mathlib.Data.List.Basic
import WindowsErg.ByteCodec
import WindowsErg.CallProgram
import WindowsErg.TextScan

/-! One instance of a named pipe: the calls on it, what they may answer, and what happens between
two of them. -/
namespace WindowsErg.Pipes
open TextScan ByteCodec CallProgram

def errorBrokenPipe : UInt32 := 109

def errorNoData : UInt32 := 232

def errorPipeNotConnected : UInt32 := 233

def errorMoreData : UInt32 := 234

def errorPipeConnected : UInt32 := 535

def errorOperationAborted : UInt32 := 995

def errorIoIncomplete : UInt32 := 996

def errorIoPending : UInt32 := 997

def waitObject0 : UInt32 := 0

def waitTimeout : UInt32 := 258

def waitFailed : UInt32 := 0xFFFFFFFF

def infinite : UInt32 := 0xFFFFFFFF

theorem waitFailed_ne_object0 : waitFailed ≠ waitObject0 := by decide

theorem waitFailed_ne_timeout : waitFailed ≠ waitTimeout := by decide

theorem waitFailed_ne_interrupted : waitFailed ≠ waitObject0+1 := by decide

theorem interrupted_ne_object0 : waitObject0+1 ≠ waitObject0 := by decide

theorem waitTimeout_ne_object0 : waitTimeout ≠ waitObject0 := by decide

inductive IoKind where
  | connect
  | read (length : ℕ)
  | write (data : Bytes)
  deriving DecidableEq, Repr

inductive IoStatus where
  | success
  | moreData
  | failed (code : UInt32)
  deriving DecidableEq, Repr

structure Operation where
  kind : IoKind
  moved : Bytes := []
  cancelRequested : Bool := false
  completion : Option IoStatus := none
  deriving DecidableEq, Repr

structure Client where
  processId : UInt32
  deriving DecidableEq, Repr

/-- A client that closes its end leaves the instance `closing` until the server disconnects
it. -/
inductive InstanceState where
  | disconnected
  | listening
  | connected (client : Client)
  | closing (client : Client)
  deriving DecidableEq, Repr

/-- The pipe instance and its history: what the client wrote, what reads consumed, what writes
delivered, whether the server has turned away from a client that may still come, and the image
paths named for processes. -/
structure PipeWorld where
  state : InstanceState
  operations : List Operation := []
  sent : Bytes := []
  consumed : Bytes := []
  inbound : Bytes := []
  delivered : Bytes := []
  turnedAway : Bool := false
  paths : List (UInt32 × Text) := []
  deriving DecidableEq, Repr

/-- What the system is free to do beside the regular course: late clients, failing calls, waits
and disconnects, a `CancelIoEx` that does not wait, and a blocking `ConnectNamedPipe` that returns
early. -/
structure Liberties where
  clientsConnectLate : Bool
  callsFail : Bool
  waitsFail : Bool
  resultWaitFails : Bool
  disconnectFails : Bool
  cancelIsAsync : Bool
  blockingReturnsEarly : Bool
  deriving DecidableEq, Repr

def Liberties.regular : Liberties := ⟨false, false, false, false, false, false, false⟩

def Operation.Pending (op : Operation) : Prop := op.completion = none

instance (op : Operation) : Decidable op.Pending :=
  inferInstanceAs (Decidable (op.completion = none))

def Operation.complete (op : Operation) (status : IoStatus) : Operation :=
  { op with completion := some status }

def Operation.completeConnect (status : IoStatus) (op : Operation) : Operation :=
  if op.kind = .connect ∧ op.Pending then op.complete status else op

namespace PipeWorld

def update (w : PipeWorld) (o : ℕ) (f : Operation → Operation) : PipeWorld :=
  { w with operations := w.operations.modify o f }

def start (w : PipeWorld) (op : Operation) : PipeWorld :=
  { w with operations := w.operations ++ [op] }

def listen (w : PipeWorld) : PipeWorld :=
  { w with state := .listening, turnedAway := false,
           operations := w.operations ++ [{ kind := .connect }] }

def connect (w : PipeWorld) (client : Client) : PipeWorld :=
  { w with state := .connected client,
           operations := w.operations.map (Operation.completeConnect .success) }

def disconnect (w : PipeWorld) : PipeWorld :=
  { w with state := .disconnected,
           operations := w.operations.map
             (Operation.completeConnect (.failed errorPipeNotConnected)) }

def completeRead (w : PipeWorld) (o n : ℕ) (status : IoStatus) : PipeWorld :=
  { w with operations := w.operations.modify o fun op =>
             { op with moved := w.inbound.take n, completion := some status },
           consumed := w.consumed ++ w.inbound.take n,
           inbound := w.inbound.drop n }

def transfer (w : PipeWorld) (o : ℕ) (bytes : Bytes) : PipeWorld :=
  { w with operations := w.operations.modify o fun op => { op with moved := op.moved ++ bytes },
           delivered := w.delivered ++ bytes }

end PipeWorld

inductive PipeMove (lib : Liberties) : PipeWorld → PipeWorld → Prop
  | clientConnects (w : PipeWorld) (client : Client) (hstate : w.state = .listening)
      (hlate : lib.clientsConnectLate = true ∨ w.turnedAway = false) :
      PipeMove lib w (w.connect client)
  | clientCloses (w : PipeWorld) (client : Client) (hstate : w.state = .connected client) :
      PipeMove lib w { w with state := .closing client }
  | clientWrites (w : PipeWorld) (client : Client) (hstate : w.state = .connected client)
      (bytes : Bytes) :
      PipeMove lib w { w with sent := w.sent ++ bytes, inbound := w.inbound ++ bytes }
  | readCompletes (w : PipeWorld) (o n length : ℕ) (op : Operation)
      (hop : w.operations[o]? = some op) (hpending : op.Pending) (hkind : op.kind = .read length)
      (hn : n ≤ length) (status : IoStatus) (hstatus : status = .success ∨ status = .moreData) :
      PipeMove lib w (w.completeRead o n status)
  | writeTransfers (w : PipeWorld) (o n : ℕ) (data : Bytes) (op : Operation)
      (hop : w.operations[o]? = some op) (hpending : op.Pending) (hkind : op.kind = .write data) :
      PipeMove lib w (w.transfer o ((data.drop op.moved.length).take n))
  | writeCompletes (w : PipeWorld) (o : ℕ) (op : Operation) (hop : w.operations[o]? = some op)
      (hpending : op.Pending) (hkind : op.kind = .write op.moved) :
      PipeMove lib w (w.update o (·.complete .success))
  | ioFails (w : PipeWorld) (o : ℕ) (code : UInt32) (op : Operation)
      (hop : w.operations[o]? = some op) (hpending : op.Pending) (hkind : op.kind ≠ .connect) :
      PipeMove lib w (w.update o (·.complete (.failed code)))
  | connectFails (w : PipeWorld) (o : ℕ) (code : UInt32) (op : Operation)
      (hop : w.operations[o]? = some op) (hpending : op.Pending) (hkind : op.kind = .connect)
      (hfails : lib.callsFail = true) :
      PipeMove lib w (w.update o (·.complete (.failed code)))
  | cancels (w : PipeWorld) (o : ℕ) (op : Operation) (hop : w.operations[o]? = some op)
      (hpending : op.Pending) (hcancel : op.cancelRequested = true) :
      PipeMove lib w (w.update o (·.complete (.failed errorOperationAborted)))

/-- `windows::core::Error`, by its `HRESULT`. -/
structure WinError where
  hresult : UInt32
  deriving DecidableEq, Repr

/-- `HRESULT_FROM_WIN32`. -/
def WinError.fromWin32 (code : UInt32) : WinError :=
  ⟨if code = 0 ∨ 0x80000000 ≤ code then code else (code &&& 0xFFFF) ||| 0x80070000⟩

structure Started (ε : Type) where
  result : Except ε Unit
  overlapped : ℕ

/-- `GetOverlappedResult` sets the transferred length also when it fails. The kernel has put
`buffer` into the buffer of a read. -/
structure OverlappedResult where
  result : Except WinError Unit
  transferred : ℕ
  buffer : Bytes

/-- The calls of the server. A blocking `ConnectNamedPipe` is `listen`, which starts the
operation, and `awaitClient`, which waits for it. -/
inductive PipeCall where
  | createEvent
  | resetEvent
  | connectNamedPipe
  | listen
  | awaitClient (o : ℕ)
  | readFile (length : ℕ)
  | writeFile (data : Bytes)
  | waitForSingleObject (o : ℕ) (timeoutMs : UInt32)
  | waitForMultipleObjects (o : ℕ) (interruptible : Bool) (timeoutMs : UInt32)
  | getOverlappedResult (o : ℕ) (wait : Bool)
  | cancelIoEx (o : ℕ)
  | disconnectNamedPipe
  | getNamedPipeClientProcessId
  | openProcess (processId : UInt32)
  | processPath (processId : UInt32)
  | getLastError

abbrev PipeCall.Answer : PipeCall → Type
  | .createEvent => Except UInt32 Unit
  | .resetEvent => Except UInt32 Unit
  | .connectNamedPipe => Started UInt32
  | .listen => Started UInt32
  | .awaitClient _ => Except UInt32 Unit
  | .readFile _ => Started WinError
  | .writeFile _ => Started WinError
  | .waitForSingleObject _ _ => UInt32
  | .waitForMultipleObjects _ _ _ => UInt32
  | .getOverlappedResult _ _ => OverlappedResult
  | .cancelIoEx _ => Unit
  | .disconnectNamedPipe => Except UInt32 Unit
  | .getNamedPipeClientProcessId => Option UInt32
  | .openProcess _ => Bool
  | .processPath _ => Option Text
  | .getLastError => UInt32

def ListenStep (lib : Liberties) (w : PipeWorld) (answer : Started UInt32) (w' : PipeWorld) :
    Prop :=
  answer.overlapped = w.operations.length ∧ answer.result = .error errorIoPending ∧
      w' = w.listen ∧ (w.state = .listening ∨ w.state = .disconnected) ∨
    answer.result = .ok () ∧ (∃ client, w' = w.connect client) ∧
      (w.state = .listening ∨ w.state = .disconnected) ∨
    answer.result = .error errorPipeConnected ∧ w' = w ∧ (∃ client, w.state = .connected client) ∨
    answer.result = .error errorNoData ∧ w' = w ∧ (∃ client, w.state = .closing client) ∨
    lib.callsFail = true ∧ w' = w ∧ ∃ code, answer.result = .error code ∧
      code ≠ errorIoPending ∧ code ≠ errorPipeConnected

def IoStep (kind : IoKind) (w : PipeWorld) (answer : Started WinError) (w' : PipeWorld) :
    Prop :=
  answer.overlapped = w.operations.length ∧
      answer.result = .error (.fromWin32 errorIoPending) ∧ w' = w.start { kind } ∨
    answer.overlapped = w.operations.length ∧
      (match kind with
        | .connect => False
        | .read length => ∃ n ≤ length,
            answer.result = .ok () ∧
              w' = (w.start { kind }).completeRead w.operations.length n .success ∨
            answer.result = .error (.fromWin32 errorMoreData) ∧
              w' = (w.start { kind }).completeRead w.operations.length n .moreData
        | .write data => answer.result = .ok () ∧
            w' = ((w.start { kind }).transfer w.operations.length data).update
              w.operations.length (·.complete .success)) ∨
    w' = w ∧ ∃ err, answer.result = .error err ∧ err ≠ .fromWin32 errorIoPending ∧
      err ≠ .fromWin32 errorMoreData

def Operation.overlappedResult (op : Operation) (status : IoStatus) : OverlappedResult where
  result := match status with
    | .success => .ok ()
    | .moreData => .error (.fromWin32 errorMoreData)
    | .failed code => .error (.fromWin32 code)
  transferred := op.moved.length
  buffer := op.moved

/-- An event is signalled when its operation has completed. A wait on several events reports
the first of them that is signalled. -/
def pipeStep (lib : Liberties) :
    (c : PipeCall) → PipeWorld → c.Answer → PipeWorld → Prop
  | .createEvent, w, answer, w' =>
    w' = w ∧ (answer = .ok () ∨ lib.callsFail = true ∧ ∃ code, answer = .error code)
  | .resetEvent, w, answer, w' =>
    w' = w ∧ (answer = .ok () ∨ lib.callsFail = true ∧ ∃ code, answer = .error code)
  | .connectNamedPipe, w, answer, w' => ListenStep lib w answer w'
  | .listen, w, answer, w' => ListenStep lib w answer w'
  | .awaitClient o, w, answer, w' =>
    w' = w ∧ ((∃ op, w.operations[o]? = some op ∧
        (op.completion = some .success ∧ answer = .ok () ∨
          ∃ code, op.completion = some (.failed code) ∧ answer = .error code)) ∨
      lib.blockingReturnsEarly = true ∧ answer = .ok ())
  | .readFile length, w, answer, w' => IoStep (.read length) w answer w'
  | .writeFile data, w, answer, w' => IoStep (.write data) w answer w'
  | .waitForSingleObject o timeoutMs, w, answer, w' =>
    w' = w ∧ ((∃ op, w.operations[o]? = some op ∧
        (¬ op.Pending ∧ answer = waitObject0 ∨
          op.Pending ∧ timeoutMs ≠ infinite ∧ answer = waitTimeout)) ∨
      lib.waitsFail = true ∧ answer ≠ waitObject0 ∧ answer ≠ waitTimeout)
  | .waitForMultipleObjects o interruptible timeoutMs, w, answer, w' =>
    (∃ op, w.operations[o]? = some op ∧
        (¬ op.Pending ∧ answer = waitObject0 ∧ w' = w ∨
          op.Pending ∧ w' = { w with turnedAway := true } ∧
            (interruptible = true ∧ answer = waitObject0+1 ∨
              timeoutMs ≠ infinite ∧ answer = waitTimeout))) ∨
      lib.waitsFail = true ∧ answer ≠ waitObject0 ∧ answer ≠ waitObject0+1 ∧
        answer ≠ waitTimeout ∧ w' = { w with turnedAway := true }
  | .getOverlappedResult o wait, w, answer, w' =>
    w' = w ∧ ∃ op, w.operations[o]? = some op ∧
      ((∃ status, op.completion = some status ∧ answer = op.overlappedResult status) ∨
        op.Pending ∧ (∃ code, answer = ⟨.error (.fromWin32 code), 0, []⟩) ∧
          (wait = false ∨ lib.resultWaitFails = true))
  | .cancelIoEx o, w, _, w' =>
    ∃ op, w.operations[o]? = some op ∧
      (¬ op.Pending ∧ w' = w ∨
        op.Pending ∧ w' = w.update o (·.complete (.failed errorOperationAborted)) ∨
        op.Pending ∧ lib.cancelIsAsync = true ∧
          w' = w.update o ({ · with cancelRequested := true }))
  | .disconnectNamedPipe, w, answer, w' =>
    answer = .ok () ∧ w' = w.disconnect ∨
      w' = w ∧ (∃ code, answer = .error code) ∧
        (lib.disconnectFails = true ∨ w.state = .disconnected)
  | .getNamedPipeClientProcessId, w, answer, w' =>
    w' = w ∧
      (match w.state with
        | .connected client => answer = some client.processId
        | .closing client => answer = some client.processId
        | _ => answer = none) ∨
      w' = w ∧ lib.callsFail = true ∧ answer = none
  | .openProcess _, w, _, w' => w' = w
  | .processPath processId, w, answer, w' =>
    w' = match answer with
      | some path => { w with paths := w.paths ++ [(processId, path)] }
      | none => w
  | .getLastError, w, _, w' => w' = w

def pipeSystem (lib : Liberties) : System PipeCall PipeCall.Answer PipeWorld where
  step := pipeStep lib
  interfere := PipeMove lib

def idlePipe : PipeWorld := { state := .listening }

def quietPipe : PipeWorld := { state := .connected ⟨4⟩ }

variable {lib : Liberties}

theorem PipeMove.length_operations {w w' : PipeWorld} (h : PipeMove lib w w') :
    w'.operations.length = w.operations.length := by
  cases h <;> simp [PipeWorld.connect, PipeWorld.completeRead, PipeWorld.transfer, PipeWorld.update]

theorem Operation.completeConnect_of_not_pending (status : IoStatus) (op : Operation)
    (h : ¬ op.Pending) : op.completeConnect status = op := by
  rw [Operation.completeConnect, if_neg]
  exact fun hh => h hh.2

theorem PipeMove.completed {w w' : PipeWorld} (h : PipeMove lib w w') (o : ℕ) (op : Operation)
    (hop : w.operations[o]? = some op) (hdone : ¬ op.Pending) : w'.operations[o]? = some op := by
  -- every move that touches one operation only touches a pending one
  have hother (i : ℕ) (pending : Operation) (f : Operation → Operation)
      (hi : w.operations[i]? = some pending) (hpending : pending.Pending) :
      (w.operations.modify i f)[o]? = some op := by
    have hne : i ≠ o := by
      rintro rfl
      rw [hop] at hi
      exact hdone (Option.some.inj hi ▸ hpending)
    rw [List.getElem?_modify, hop]
    simp [hne]
  cases h with
  | clientConnects client hstate hlate =>
    simp only [PipeWorld.connect, List.getElem?_map, hop, Option.map_some]
    rw [Operation.completeConnect_of_not_pending _ _ hdone]
  | clientCloses client hstate => exact hop
  | clientWrites client hstate bytes => exact hop
  | readCompletes i n length pending hi hpending => exact hother i pending _ hi hpending
  | writeTransfers i n data pending hi hpending => exact hother i pending _ hi hpending
  | writeCompletes i pending hi hpending => exact hother i pending _ hi hpending
  | ioFails i code pending hi hpending => exact hother i pending _ hi hpending
  | connectFails i code pending hi hpending => exact hother i pending _ hi hpending
  | cancels i pending hi hpending => exact hother i pending _ hi hpending

end WindowsErg.Pipes
