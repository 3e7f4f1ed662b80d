import WindowsErg.PipesKernel

/-! The server end of a named pipe, `src/pipes/server.rs`. -/
namespace WindowsErg.Pipes
open TextScan ByteCodec CallProgram

inductive PipeServerError where
  | connect (pipeName : Text) (context : Option Text) (errorCode : Option Int32)
  | io (pipeName operation : Text) (errorCode : Option Int32)
  | timeout (pipeName operation : Text)
  | accessDenied (resource operation : Text) (reason : Option Text)
  | other (message : Text)
  deriving DecidableEq

def mapPipeWindowsError (operation pipeName : Text) (errorCode : Int32) : PipeServerError :=
  if errorCode = 121 then .timeout pipeName operation
  else if errorCode = 231 then .connect pipeName (some "pipe is busy".toList) (some errorCode)
  else if errorCode = 535 then
    .connect pipeName (some "pipe is already connected".toList) (some errorCode)
  else if errorCode = 109 then .io pipeName operation (some errorCode)
  else if operation = "connect".toList then .connect pipeName none (some errorCode)
  else .io pipeName operation (some errorCode)

def waitErrorMessage (operation : Text) (code : UInt32) : Text :=
  "wait handle operation '".toList ++ operation ++ "' failed (error code: 0x".toList ++
    padZeros 8 (hexUpper code.toNat) ++ ")".toList

inductive IoError where
  | timedOut (message : Text)
  | brokenPipe
  | os (code : UInt32)
  | other (message : Text)
  | otherWin (err : WinError)
  deriving DecidableEq

/-- The codes that `std` reports as `ErrorKind::TimedOut`. -/
def timeoutCodes : List UInt32 :=
  [121, 258, 594, 995, 1053, 1121, 1460, 5910, 7012, 7040, 8014, 8226, 9705, 13805, 15402, 15403]

def IoError.isTimedOut : IoError → Bool
  | .timedOut _ => true
  | .os code => timeoutCodes.contains code
  | _ => false

def win32Code (err : WinError) : Option UInt32 :=
  if err.hresult &&& 0xFFFF0000 = 0x80070000 then some (err.hresult &&& 0xFFFF) else none

def winToIoError (err : WinError) : IoError :=
  match win32Code err with
  | some code => .os code
  | none => .otherWin err

inductive PipeReadError where
  | endOfStream
  | moreData
  | failed (e : IoError)
  deriving DecidableEq

def classifyPipeReadError (err : WinError) : PipeReadError :=
  if win32Code err = some errorBrokenPipe ∨ win32Code err = some errorPipeNotConnected then
    .endOfStream
  else if win32Code err = some errorMoreData then .moreData
  else .failed (winToIoError err)

abbrev PipeProgram (α : Type) := Program PipeCall PipeCall.Answer α

section Calls
open Program

def createEvent : PipeProgram (Except UInt32 Unit) := request PipeCall.createEvent

def resetEvent : PipeProgram (Except UInt32 Unit) := request PipeCall.resetEvent

def connectNamedPipe : PipeProgram (Started UInt32) := request PipeCall.connectNamedPipe

def listen : PipeProgram (Started UInt32) := request PipeCall.listen

def awaitClient (o : ℕ) : PipeProgram (Except UInt32 Unit) := request (PipeCall.awaitClient o)

def readFile (length : ℕ) : PipeProgram (Started WinError) := request (PipeCall.readFile length)

def writeFile (data : Bytes) : PipeProgram (Started WinError) := request (PipeCall.writeFile data)

def waitForSingleObject (o : ℕ) (timeoutMs : UInt32) : PipeProgram UInt32 :=
  request (PipeCall.waitForSingleObject o timeoutMs)

def waitForMultipleObjects (o : ℕ) (interruptible : Bool) (timeoutMs : UInt32) :
    PipeProgram UInt32 :=
  request (PipeCall.waitForMultipleObjects o interruptible timeoutMs)

def getOverlappedResult (o : ℕ) (wait : Bool) : PipeProgram OverlappedResult :=
  request (PipeCall.getOverlappedResult o wait)

def cancelIoEx (o : ℕ) : PipeProgram Unit := request (PipeCall.cancelIoEx o)

def disconnectNamedPipe : PipeProgram (Except UInt32 Unit) := request PipeCall.disconnectNamedPipe

def getNamedPipeClientProcessId : PipeProgram (Option UInt32) :=
  request PipeCall.getNamedPipeClientProcessId

def openProcess (processId : UInt32) : PipeProgram Bool := request (PipeCall.openProcess processId)

def processPath (processId : UInt32) : PipeProgram (Option Text) :=
  request (PipeCall.processPath processId)

def getLastError : PipeProgram UInt32 := request PipeCall.getLastError

/-- `ConnectNamedPipe` without an `OVERLAPPED`. -/
def connectNamedPipeBlocking : PipeProgram (Except UInt32 Unit) := do
  let started ← listen
  match started.result with
  | .ok () => pure (.ok ())
  | .error code =>
    if code = errorIoPending then awaitClient started.overlapped else pure (.error code)

end Calls

structure Duration where
  nanos : ℕ
  deriving DecidableEq, Repr

def Duration.asMillis (d : Duration) : ℕ := d.nanos/1000000

def Duration.max : Duration := ⟨(2^64-1)*10^9+999999999⟩

def durationToWaitMs (timeout : Duration) : UInt32 :=
  UInt32.ofNat (min timeout.asMillis (2^32-1))

structure NamedPipeServer where
  pipeName : Text
  allowedExecutables : List Text
  ioTimeout : Option Duration

namespace NamedPipeServer
variable (server : NamedPipeServer)

def disconnect : PipeProgram (Except PipeServerError Unit) := do
  match ← disconnectNamedPipe with
  | .ok () => pure (.ok ())
  | .error code =>
    pure (.error (mapPipeWindowsError "disconnect".toList server.pipeName code.toInt32))

def accessDenied (reason : Text) : PipeServerError :=
  .accessDenied server.pipeName "connect".toList (some reason)

def isAllowed (clientPath : Text) : Bool :=
  server.allowedExecutables.any (eqIgnoreAsciiCase · clientPath)

def checkClientExecutable : PipeProgram (Except PipeServerError Unit) := do
  match ← getNamedPipeClientProcessId with
  | none => pure (.error (server.accessDenied "could not determine client process id".toList))
  | some processId =>
    if ← openProcess processId then
      match ← processPath processId with
      | none =>
        pure (.error (server.accessDenied "could not retrieve client executable path".toList))
      | some clientPath =>
        if server.isAllowed clientPath then pure (.ok ())
        else
          pure (.error (server.accessDenied ("client executable '".toList ++ clientPath ++
            "' is not in the allow-list".toList)))
    else pure (.error (server.accessDenied "could not open client process".toList))

def validateConnectedClient : PipeProgram (Except PipeServerError Unit) :=
  if server.allowedExecutables.isEmpty then pure (.ok ())
  else do
    match ← server.checkClientExecutable with
    | .ok () => pure (.ok ())
    | .error e => do
      let _ ← server.disconnect
      pure (.error e)

def connectError (code : UInt32) : PipeServerError :=
  mapPipeWindowsError "connect".toList server.pipeName code.toInt32

def connect : PipeProgram (Except PipeServerError Unit) := do
  match ← connectNamedPipeBlocking with
  | .ok () => server.validateConnectedClient
  | .error code =>
    if code ≠ errorPipeConnected then pure (.error (server.connectError code))
    else server.validateConnectedClient

def interruptedError : PipeServerError :=
  .connect server.pipeName (some "connect interrupted by wait handle signal".toList)
    (some errorOperationAborted.toInt32)

def afterConnectWait (o : ℕ) (waitResult : UInt32) : PipeProgram (Except PipeServerError Unit) :=
  if waitResult = waitObject0 then do
    let answer ← getOverlappedResult o false
    match answer.result with
    | .error err => pure (.error (server.connectError ((win32Code err).getD err.hresult)))
    | .ok () => server.validateConnectedClient
  else if waitResult = waitObject0+1 then do
    cancelIoEx o
    pure (.error server.interruptedError)
  else if waitResult = waitTimeout then do
    cancelIoEx o
    pure (.error (.timeout server.pipeName "connect".toList))
  else do
    cancelIoEx o
    if waitResult = waitFailed then do
      let code ← getLastError
      pure (.error (server.connectError code))
    else pure (.error (server.connectError waitResult))

/-- `connect_with_wait_timeout`; `interruptible` says whether anybody can signal the wait
handle. -/
def connectWithWaitTimeout (interruptible : Bool) (timeout : Duration) :
    PipeProgram (Except PipeServerError Unit) := do
  match ← createEvent with
  | .error code => pure (.error (.other (waitErrorMessage "create".toList code)))
  | .ok () => do
    let started ← connectNamedPipe
    match started.result with
    | .ok () => server.validateConnectedClient
    | .error code =>
      if code ≠ errorIoPending ∧ code ≠ errorPipeConnected then
        pure (.error (server.connectError code))
      else if code = errorPipeConnected then server.validateConnectedClient
      else do
        let waitResult ← waitForMultipleObjects started.overlapped interruptible
          (durationToWaitMs timeout)
        server.afterConnectWait started.overlapped waitResult

/-- The wait handle is made by the call itself, so nobody can signal it. -/
def connectWithTimeout (timeout : Duration) : PipeProgram (Except PipeServerError Unit) := do
  match ← createEvent with
  | .error code => pure (.error (.other (waitErrorMessage "create".toList code)))
  | .ok () => server.connectWithWaitTimeout false timeout

def connectWithWait : PipeProgram (Except PipeServerError Unit) :=
  server.connectWithWaitTimeout true .max

inductive OverlappedOutcome where
  | finished (length : ℕ) (buffer : Bytes)
  | continues (length : ℕ) (buffer : Bytes)
  | endOfStream
  deriving DecidableEq

def startFailure (err : WinError) : Except IoError OverlappedOutcome :=
  match classifyPipeReadError err with
  | .endOfStream => .ok .endOfStream
  | .failed e => .error e
  | .moreData => .error (.other "unexpected ERROR_MORE_DATA".toList)

def outcomeOf (answer : OverlappedResult) : Except IoError OverlappedOutcome :=
  match answer.result with
  | .ok () => .ok (.finished answer.transferred answer.buffer)
  | .error err =>
    match classifyPipeReadError err with
    | .moreData => .ok (.continues answer.transferred answer.buffer)
    | .endOfStream => .ok .endOfStream
    | .failed e => .error e

def ioTimeoutMs : UInt32 :=
  match server.ioTimeout with
  | none => infinite
  | some timeout => durationToWaitMs timeout

def awaitIo (operation : Text) (o : ℕ) : PipeProgram (Except IoError OverlappedOutcome) := do
  let waited ← waitForSingleObject o server.ioTimeoutMs
  if waited = waitTimeout then do
    cancelIoEx o
    let _ ← getOverlappedResult o true
    pure (.error (.timedOut ("pipe ".toList ++ operation ++ " timed out".toList)))
  else do
    let answer ← getOverlappedResult o true
    pure (outcomeOf answer)

def overlappedIo (operation : Text) (start : PipeProgram (Started WinError)) :
    PipeProgram (Except IoError OverlappedOutcome) := do
  match ← resetEvent with
  | .error code => pure (.error (.other (waitErrorMessage "reset".toList code)))
  | .ok () => do
    let started ← start
    match started.result with
    | .ok () => server.awaitIo operation started.overlapped
    | .error err =>
      if win32Code err ≠ some errorIoPending ∧ win32Code err ≠ some errorMoreData then
        pure (startFailure err)
      else server.awaitIo operation started.overlapped

def readResult : Except IoError OverlappedOutcome → Except IoError Bytes
  | .ok (.finished length buffer) => .ok (buffer.take length)
  | .ok (.continues length buffer) => .ok (buffer.take length)
  | .ok .endOfStream => .ok []
  | .error e => .error e

def writeResult : Except IoError OverlappedOutcome → Except IoError ℕ
  | .ok (.finished length _) => .ok length
  | .ok (.continues length _) => .ok length
  | .ok .endOfStream => .error .brokenPipe
  | .error e => .error e

def read (length : ℕ) : PipeProgram (Except IoError Bytes) := do
  let outcome ← server.overlappedIo "read".toList (readFile length)
  pure (readResult outcome)

def write (data : Bytes) : PipeProgram (Except IoError ℕ) := do
  let outcome ← server.overlappedIo "write".toList (writeFile data)
  pure (writeResult outcome)

theorem connectWithTimeout_starts {lib : Liberties} (timeout : Duration)
    {r : Except PipeServerError Unit} {w : PipeWorld}
    (h : Runs (pipeSystem lib) (waitForMultipleObjects 0 false (durationToWaitMs timeout) >>=
      server.afterConnectWait 0) idlePipe.listen r w) :
    Runs (pipeSystem lib) (server.connectWithTimeout timeout) idlePipe r w := by
  have hevent : pipeStep lib .createEvent idlePipe (.ok ()) idlePipe := ⟨rfl, Or.inl rfl⟩
  have hlisten : pipeStep lib .connectNamedPipe idlePipe ⟨.error errorIoPending, 0⟩
      idlePipe.listen := Or.inl ⟨rfl, rfl, rfl, Or.inl rfl⟩
  exact .call hevent (.call hevent (.call hlisten h))

end NamedPipeServer
end WindowsErg.Pipes
