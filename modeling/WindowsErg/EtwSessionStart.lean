import Mathlib
import WindowsErg.EtwBuilder

/-! Starting and stopping a trace session, `src/etw/session.rs`. The state is what the calls have
left in the system. -/
namespace WindowsErg.Etw
open TextScan ByteCodec Std.Do

structure EtwSessionError where
  sessionName : Text
  reason : Text
  errorCode : Option Int32
  deriving DecidableEq

structure EtwProviderError where
  provider : Text
  reason : Text
  errorCode : Option Int32
  deriving DecidableEq

structure EtwConsumeError where
  reason : Text
  errorCode : Option Int32
  deriving DecidableEq

inductive StartError where
  | sessionStartFailed (e : EtwSessionError)
  | providerEnableFailed (e : EtwProviderError)
  | consumeFailed (e : EtwConsumeError)
  | other (message : Text)
  deriving DecidableEq

/-- How a start ends without a session: with an error, or with the panic of `thread::spawn`. -/
inductive StartFailure where
  | err (e : StartError)
  | panic
  deriving DecidableEq

def EtwSessionError.invalidConfig (sessionName field issue : Text) : EtwSessionError :=
  ⟨sessionName, "Invalid ".toList ++ field ++ ": ".toList ++ issue, none⟩

def Guid.debug (guid : Guid) : Text :=
  let octets := guid.data4.map fun octet => padZeros 2 (hexUpper octet.toNat)
  padZeros 8 (hexUpper guid.data1.toNat) ++ '-' :: padZeros 4 (hexUpper guid.data2.toNat) ++
    '-' :: padZeros 4 (hexUpper guid.data3.toNat) ++ '-' :: (octets.take 2).flatten ++
    '-' :: (octets.drop 2).flatten

structure EventTraceProperties where
  wnodeGuid : Guid
  bufferSize : UInt32
  minimumBuffers : UInt32
  maximumBuffers : UInt32
  flushTimer : UInt32
  logFileMode : UInt32
  enableFlags : UInt32
  deriving DecidableEq

def errorSuccess : UInt32 := 0

def errorAlreadyExists : UInt32 := 183

def invalidProcessTraceHandle : UInt64 := UInt64.ofNat (2^64-1)

/-- The statuses of `StartTraceW` (by attempt) and `EnableTraceEx2` (by call), whether
`ControlTraceW` stops the session, the handle of `OpenTraceW`, whether a thread can be spawned,
and the error of `CreateEventW`. -/
structure SystemCalls where
  startTrace : ℕ → Text → EventTraceProperties → UInt32
  enableTrace : ℕ → Guid → UInt8 → UInt64 → UInt32
  controlTraceStops : Bool
  openTrace : Text → UInt64
  spawnsThread : Bool
  createEvent : Option UInt32

/-- What a start has left in the system. The thread runs `ProcessTrace` with a pointer to the
callback context. -/
structure Resources where
  started : Bool := false
  session : Bool := false
  callbackContext : Bool := false
  traceHandle : Option UInt64 := none
  processThread : Bool := false
  deriving DecidableEq, Repr

abbrev StartM := EStateM StartFailure Resources

namespace SystemCalls

def callStartTrace (status : UInt32) : StartM Unit :=
  if status = errorSuccess then modify fun r => { r with started := true, session := true }
  else pure ()

def callEnableTrace (sys : SystemCalls) (i : ℕ) (provider : UserProviderSpec) : UInt32 :=
  sys.enableTrace i provider.guid provider.level.toU8 provider.matchAnyKeyword

def callStop (sys : SystemCalls) : StartM Unit :=
  if sys.controlTraceStops then modify fun r => { r with session := false } else pure ()

def dropCallbackContext : StartM Unit := modify fun r => { r with callbackContext := false }

end SystemCalls

def maxSessionNameLen : ℕ := 1024

def kernelLoggerName : Text := "NT Kernel Logger".toList

def eventTraceRealTimeMode : UInt32 := 0x100

def eventTraceSystemLoggerMode : UInt32 := 0x02000000

def Guid.zeroed : Guid := ⟨0, 0, 0, [0, 0, 0, 0, 0, 0, 0, 0]⟩

structure KernelSessionConfig where
  sessionName : Text
  logFileMode : UInt32
  wnodeGuid : Guid
  deriving DecidableEq

def kernelSessionConfig (builderName : Text) (hasKernelProviders : Bool)
    (privateLoggerGuid : Option Guid) : Option KernelSessionConfig :=
  if !hasKernelProviders then none
  else
    some { sessionName := if privateLoggerGuid.isSome then builderName else kernelLoggerName,
           logFileMode :=
             if privateLoggerGuid.isSome then eventTraceRealTimeMode ||| eventTraceSystemLoggerMode
             else eventTraceRealTimeMode,
           wnodeGuid := privateLoggerGuid.getD Guid.zeroed }

structure EventTrace where
  name : Text
  traceHandle : UInt64
  replacedExistingSession : Bool
  enableFlags : UInt32
  started : Bool
  deriving DecidableEq

variable (sys : SystemCalls) (builder : EventTraceBuilder)

namespace EventTraceBuilder

def isKernelSession (builder : EventTraceBuilder) : Bool := !builder.systemProviders.isEmpty

def kernelConfig (builder : EventTraceBuilder) : Option KernelSessionConfig :=
  kernelSessionConfig builder.name builder.isKernelSession builder.privateLoggerGuid

def sessionName (builder : EventTraceBuilder) : Text :=
  (builder.kernelConfig.map (·.sessionName)).getD builder.name

def enableFlags (builder : EventTraceBuilder) : UInt32 :=
  if builder.isKernelSession then
    builder.systemProviders.foldl (fun acc provider => acc ||| provider.traceFlags) 0
  else 0

def properties (builder : EventTraceBuilder) : EventTraceProperties where
  wnodeGuid := (builder.kernelConfig.map (·.wnodeGuid)).getD Guid.zeroed
  bufferSize := builder.bufferSize
  minimumBuffers := builder.minBuffers
  maximumBuffers := builder.maxBuffers
  flushTimer := builder.flushInterval
  logFileMode := (builder.kernelConfig.map (·.logFileMode)).getD eventTraceRealTimeMode
  enableFlags := builder.enableFlags

def nameLen (builder : EventTraceBuilder) : ℕ := (builder.name.map Char.utf8Size).sum

/-! The errors of the checks and of the calls. -/

def sessionError (name reason : Text) (errorCode : Option Int32) : StartError :=
  .sessionStartFailed ⟨name, reason, errorCode⟩

def emptyNameError : StartError := sessionError [] "Session name cannot be empty".toList none

def longNameError (builder : EventTraceBuilder) : StartError :=
  sessionError builder.name "Session name exceeds 1024 characters".toList none

def noProviderError (builder : EventTraceBuilder) : StartError :=
  sessionError builder.name
    "At least one system provider or user provider GUID must be specified".toList none

def mixedProvidersError (builder : EventTraceBuilder) : StartError :=
  .sessionStartFailed (.invalidConfig builder.name "providers".toList
    "Cannot mix kernel system providers with user-mode provider GUIDs in one session".toList)

def buffersError (builder : EventTraceBuilder) : StartError :=
  sessionError builder.name
    ("min_buffers (".toList ++ decimal builder.minBuffers.toNat ++
      ") cannot exceed max_buffers (".toList ++ decimal builder.maxBuffers.toNat ++ ")".toList) none

def startTraceError (builder : EventTraceBuilder) (status : UInt32) : StartError :=
  sessionError builder.sessionName "Failed to start trace session".toList (some status.toInt32)

def retryTraceError (builder : EventTraceBuilder) (status : UInt32) : StartError :=
  sessionError builder.sessionName "Failed to start trace after stopping stale session".toList
    (some status.toInt32)

def enableTraceError (provider : UserProviderSpec) (status : UInt32) : StartError :=
  .providerEnableFailed ⟨provider.guid.debug,
    "Failed to enable user-mode ETW provider".toList, some status.toInt32⟩

def openTraceError : StartError := .consumeFailed ⟨"OpenTraceW failed".toList, none⟩

def createEventError (code : UInt32) : StartError :=
  .other ("wait handle operation 'create' failed (error code: 0x".toList ++
    padZeros 8 (hexUpper code.toNat) ++ ")".toList)

/-! The steps of a start. -/

def validate (builder : EventTraceBuilder) : StartM Unit := do
  if builder.name.isEmpty then
    throw (.err emptyNameError)
  if builder.nameLen > maxSessionNameLen then
    throw (.err builder.longNameError)
  if builder.systemProviders.isEmpty && builder.userProviders.isEmpty then
    throw (.err builder.noProviderError)
  if !builder.systemProviders.isEmpty && !builder.userProviders.isEmpty then
    throw (.err builder.mixedProvidersError)
  if builder.minBuffers > builder.maxBuffers then
    throw (.err builder.buffersError)

def startSession (builder : EventTraceBuilder) (sys : SystemCalls) : StartM Bool := do
  let startResult := sys.startTrace 0 builder.sessionName builder.properties
  SystemCalls.callStartTrace startResult
  if startResult = errorAlreadyExists ∧ builder.isKernelSession = true then
    -- the stale session is stopped by name and the outcome ignored
    let retryResult := sys.startTrace 1 builder.sessionName builder.properties
    SystemCalls.callStartTrace retryResult
    if retryResult ≠ errorSuccess then
      throw (.err (builder.retryTraceError retryResult))
    pure true
  else if startResult ≠ errorSuccess then
    throw (.err (builder.startTraceError startResult))
  else pure false

def enableProviders (sys : SystemCalls) : ℕ → List UserProviderSpec → StartM Unit
  | _, [] => pure ()
  | i, provider :: providers => do
    let enableResult := sys.callEnableTrace i provider
    if enableResult ≠ errorSuccess then
      sys.callStop
      throw (.err (enableTraceError provider enableResult))
    enableProviders sys (i+1) providers

def enableUserProviders (builder : EventTraceBuilder) (sys : SystemCalls) : StartM Unit :=
  if !builder.isKernelSession then enableProviders sys 0 builder.userProviders else pure ()

def openTrace (builder : EventTraceBuilder) (sys : SystemCalls) : StartM UInt64 := do
  modify fun r => { r with callbackContext := true }
  let traceHandle := sys.openTrace builder.sessionName
  if traceHandle = invalidProcessTraceHandle then
    sys.callStop
    SystemCalls.dropCallbackContext
    throw (.err openTraceError)
  modify fun r => { r with traceHandle := some traceHandle }
  pure traceHandle

def spawnProcessTrace (sys : SystemCalls) : StartM Unit := do
  if !sys.spawnsThread then
    SystemCalls.dropCallbackContext
    throw .panic
  modify fun r => { r with processThread := true }

/-- `Wait::manual_reset` in the literal of the result: on an error the thread's handle is
dropped, which lets it run on, and the guard frees the context. -/
def createStopSignal (sys : SystemCalls) : StartM Unit := do
  match sys.createEvent with
  | none => pure ()
  | some code =>
    SystemCalls.dropCallbackContext
    throw (.err (createEventError code))

def start (builder : EventTraceBuilder) (sys : SystemCalls) : StartM EventTrace := do
  builder.validate
  let replacedExistingSession ← builder.startSession sys
  builder.enableUserProviders sys
  let traceHandle ← builder.openTrace sys
  spawnProcessTrace sys
  createStopSignal sys
  pure { name := builder.sessionName, traceHandle, replacedExistingSession,
         enableFlags := builder.enableFlags, started := true }

structure Valid (builder : EventTraceBuilder) : Prop where
  name_nonempty : builder.name ≠ []
  name_short : builder.nameLen ≤ maxSessionNameLen
  some_provider : builder.systemProviders ≠ [] ∨ builder.userProviders ≠ []
  not_mixed : builder.systemProviders = [] ∨ builder.userProviders = []
  buffers : builder.minBuffers ≤ builder.maxBuffers

def Starts (builder : EventTraceBuilder) (sys : SystemCalls) : Prop :=
  sys.startTrace 0 builder.sessionName builder.properties = errorSuccess ∨
    sys.startTrace 0 builder.sessionName builder.properties = errorAlreadyExists ∧
      builder.isKernelSession = true ∧
      sys.startTrace 1 builder.sessionName builder.properties = errorSuccess

def SomeEnableFails (sys : SystemCalls) (i : ℕ) (providers : List UserProviderSpec) : Prop :=
  ∃ j provider, providers[j]? = some provider ∧ sys.callEnableTrace (i+j) provider ≠ errorSuccess

theorem someEnableFails_cons (i : ℕ) (provider : UserProviderSpec)
    (providers : List UserProviderSpec) :
    SomeEnableFails sys i (provider :: providers) ↔
      sys.callEnableTrace i provider ≠ errorSuccess ∨ SomeEnableFails sys (i+1) providers := by
  constructor
  · rintro ⟨j, failing, hget, hfails⟩
    cases j with
    | zero =>
      cases hget
      exact Or.inl hfails
    | succ j =>
      rw [← Nat.add_assoc, Nat.add_right_comm] at hfails
      exact Or.inr ⟨j, failing, hget, hfails⟩
  · rintro (hfails | ⟨j, failing, hget, hfails⟩)
    · exact ⟨0, provider, rfl, hfails⟩
    · rw [Nat.add_right_comm] at hfails
      exact ⟨j+1, failing, hget, hfails⟩

def EnableFails (builder : EventTraceBuilder) (sys : SystemCalls) : Prop :=
  builder.isKernelSession = false ∧ SomeEnableFails sys 0 builder.userProviders

def OpenFails (builder : EventTraceBuilder) (sys : SystemCalls) : Prop :=
  sys.openTrace builder.sessionName = invalidProcessTraceHandle

section
set_option mvcgen.warning false
attribute [local irreducible] emptyNameError longNameError noProviderError mixedProvidersError
  buffersError startTraceError retryTraceError enableTraceError openTraceError createEventError

variable (r₀ : Resources)

@[spec] theorem validate_spec :
    ⦃fun r => ⌜r = r₀⌝⦄ builder.validate
    ⦃post⟨fun _ r => ⌜r = r₀ ∧ builder.Valid⌝,
      fun e r => ⌜r = r₀ ∧ e ≠ .panic ∧ ¬builder.Valid⌝⟩⦄ := by
  mvcgen [validate]
  case vc1 h _ hr => exact ⟨hr, nofun, fun hv => hv.name_nonempty (List.isEmpty_iff.mp h)⟩
  case vc2 h _ hr => exact ⟨hr, nofun, fun hv => absurd hv.name_short (Nat.not_le.mpr h)⟩
  case vc3 h _ hr =>
    simp only [Bool.and_eq_true, List.isEmpty_iff] at h
    exact ⟨hr, nofun, fun hv => hv.some_provider.elim (absurd h.1) (absurd h.2)⟩
  case vc4 h _ hr =>
    simp only [Bool.and_eq_true, Bool.not_eq_true', List.isEmpty_eq_false_iff] at h
    exact ⟨hr, nofun, fun hv => hv.not_mixed.elim h.1 h.2⟩
  case vc5 h _ hr => exact ⟨hr, nofun, fun hv => absurd hv.buffers (UInt32.not_le.mpr h)⟩
  case vc6 hname _ hlen _ hnone _ hmixed hbuffers _ hr =>
    simp only [Bool.and_eq_true, Bool.not_eq_true', List.isEmpty_iff, List.isEmpty_eq_false_iff,
      not_and_or, not_not] at hname hnone hmixed
    exact ⟨hr, hname, Nat.not_lt.mp hlen, hnone, hmixed, UInt32.not_lt.mp hbuffers⟩

@[spec] theorem startSession_spec (sys : SystemCalls) (r₀ : Resources) :
    ⦃fun r => ⌜r = r₀⌝⦄ builder.startSession sys
    ⦃post⟨fun _ r => ⌜r = { r₀ with started := true, session := true } ∧ builder.Starts sys⌝,
      fun e r => ⌜r = r₀ ∧ e ≠ .panic ∧ ¬builder.Starts sys⌝⟩⦄ := by
  have hne : errorAlreadyExists ≠ errorSuccess := by decide
  mvcgen [startSession, SystemCalls.callStartTrace]
  all_goals simp_all +zetaDelta [Starts]

@[spec] theorem callStop_spec :
    ⦃fun r => ⌜r = r₀⌝⦄ sys.callStop
    ⦃post⟨fun _ r => ⌜r = { r₀ with session := r₀.session && !sys.controlTraceStops }⌝,
      fun _ _ => ⌜False⌝⟩⦄ := by
  mvcgen [SystemCalls.callStop]
  all_goals simp_all +zetaDelta

@[spec] theorem enableProviders_spec (i : ℕ) (providers : List UserProviderSpec) (r₀ : Resources) :
    ⦃fun r => ⌜r = r₀⌝⦄ enableProviders sys i providers
    ⦃post⟨fun _ r => ⌜r = r₀ ∧ ¬SomeEnableFails sys i providers⌝,
      fun e r => ⌜r = { r₀ with session := r₀.session && !sys.controlTraceStops } ∧ e ≠ .panic ∧
        SomeEnableFails sys i providers⌝⟩⦄ := by
  -- by the loop: the first call that fails ends it
  induction providers generalizing i with
  | nil =>
    mvcgen [enableProviders]
    all_goals simp_all [SomeEnableFails]
  | cons provider providers ih =>
    mvcgen [enableProviders, ih]
    all_goals simp_all +zetaDelta [someEnableFails_cons]

@[spec] theorem enableUserProviders_spec (sys : SystemCalls) (r₀ : Resources) :
    ⦃fun r => ⌜r = r₀⌝⦄ builder.enableUserProviders sys
    ⦃post⟨fun _ r => ⌜r = r₀ ∧ ¬builder.EnableFails sys⌝,
      fun e r => ⌜r = { r₀ with session := r₀.session && !sys.controlTraceStops } ∧ e ≠ .panic ∧
        builder.EnableFails sys⌝⟩⦄ := by
  -- a kernel session enables nothing here
  mvcgen [enableUserProviders]
  all_goals simp_all +zetaDelta [EnableFails]

@[spec] theorem openTrace_spec (sys : SystemCalls) (r₀ : Resources) :
    ⦃fun r => ⌜r = r₀⌝⦄ builder.openTrace sys
    ⦃post⟨fun handle r => ⌜r = { r₀ with callbackContext := true, traceHandle := some handle } ∧
        handle = sys.openTrace builder.sessionName ∧ ¬builder.OpenFails sys⌝,
      fun e r => ⌜r = { r₀ with session := r₀.session && !sys.controlTraceStops,
                                callbackContext := false } ∧ e ≠ .panic ∧
        builder.OpenFails sys⌝⟩⦄ := by
  mvcgen [openTrace, SystemCalls.dropCallbackContext]
  all_goals simp_all +zetaDelta [OpenFails]

@[spec] theorem spawnProcessTrace_spec :
    ⦃fun r => ⌜r = r₀⌝⦄ spawnProcessTrace sys
    ⦃post⟨fun _ r => ⌜r = { r₀ with processThread := true } ∧ sys.spawnsThread = true⌝,
      fun e r => ⌜r = { r₀ with callbackContext := false } ∧ e = .panic ∧
        sys.spawnsThread = false⌝⟩⦄ := by
  mvcgen [spawnProcessTrace, SystemCalls.dropCallbackContext]
  all_goals simp_all +zetaDelta

@[spec] theorem createStopSignal_spec :
    ⦃fun r => ⌜r = r₀⌝⦄ createStopSignal sys
    ⦃post⟨fun _ r => ⌜r = r₀ ∧ sys.createEvent = none⌝,
      fun e r => ⌜r = { r₀ with callbackContext := false } ∧ e ≠ .panic ∧
        sys.createEvent ≠ none⌝⟩⦄ := by
  mvcgen [createStopSignal, SystemCalls.dropCallbackContext]
  all_goals simp_all +zetaDelta

structure StartSucceeded (builder : EventTraceBuilder) (sys : SystemCalls) (trace : EventTrace)
    (r : Resources) : Prop where
  resources : r = { started := true, session := true, callbackContext := true,
                    traceHandle := some trace.traceHandle, processThread := true }
  started : trace.started = true
  handle : trace.traceHandle ≠ invalidProcessTraceHandle
  enable : ¬builder.EnableFails sys
  opens : ¬builder.OpenFails sys
  signal : sys.createEvent = none

inductive StartFailed (builder : EventTraceBuilder) (sys : SystemCalls) :
    StartFailure → Resources → Prop
  | notStarted (e : StartFailure) (he : e ≠ .panic) (h : ¬(builder.Valid ∧ builder.Starts sys)) :
    StartFailed builder sys e {}
  | rolledBack (e : StartFailure) (he : e ≠ .panic) (hstarts : builder.Valid ∧ builder.Starts sys)
    (h : builder.EnableFails sys ∨ builder.OpenFails sys) :
    StartFailed builder sys e { started := true, session := !sys.controlTraceStops }
  | noThread (henable : ¬builder.EnableFails sys) (hopen : ¬builder.OpenFails sys)
    (hspawn : sys.spawnsThread = false) (handle : UInt64) :
    StartFailed builder sys .panic { started := true, session := true, traceHandle := some handle }
  | noStopSignal (e : StartFailure) (he : e ≠ .panic)
    (hstarts : builder.Valid ∧ builder.Starts sys) (henable : ¬builder.EnableFails sys)
    (hopen : ¬builder.OpenFails sys) (hspawn : sys.spawnsThread = true)
    (hsignal : sys.createEvent ≠ none) (handle : UInt64) :
    StartFailed builder sys e
      { started := true, session := true, traceHandle := some handle, processThread := true }

theorem start_spec (sys : SystemCalls) :
    ⦃fun r => ⌜r = {}⌝⦄ builder.start sys
    ⦃post⟨fun trace r => ⌜StartSucceeded builder sys trace r⌝,
      fun e r => ⌜StartFailed builder sys e r⌝⟩⦄ := by
  mvcgen [start]
  -- the seven ways out, from success back to the first check
  case vc1 _ h₀ _ _ h₁ _ _ h₂ _ _ h₃ handle _ h₄ _ _ h₅ _ _ h₆ =>
    obtain ⟨rfl, hsignal⟩ := h₆
    obtain ⟨rfl, hspawn⟩ := h₅
    obtain ⟨rfl, rfl, hopen⟩ := h₄
    obtain ⟨rfl, henable⟩ := h₃
    obtain ⟨rfl, -⟩ := h₂
    exact ⟨rfl, rfl, hopen, henable, hopen, hsignal⟩
  case vc2 _ h₀ _ _ h₁ _ _ h₂ _ _ h₃ handle _ h₄ _ _ h₅ _ _ =>
    obtain ⟨rfl, hspawn⟩ := h₅
    obtain ⟨rfl, -, hopen⟩ := h₄
    obtain ⟨rfl, henable⟩ := h₃
    obtain ⟨rfl, hstarts⟩ := h₂
    obtain ⟨rfl, hvalid⟩ := h₁
    subst h₀
    rintro rfl he hsignal
    exact .noStopSignal _ he ⟨hvalid, hstarts⟩ henable hopen hspawn hsignal handle
  case vc3 _ h₀ _ _ h₁ _ _ h₂ _ _ h₃ handle _ h₄ _ _ =>
    obtain ⟨rfl, -, hopen⟩ := h₄
    obtain ⟨rfl, henable⟩ := h₃
    obtain ⟨rfl, -⟩ := h₂
    obtain ⟨rfl, -⟩ := h₁
    subst h₀
    rintro rfl rfl hspawn
    exact .noThread henable hopen hspawn handle
  case vc4 _ h₀ _ _ h₁ _ _ h₂ _ _ h₃ _ _ =>
    obtain ⟨rfl, -⟩ := h₃
    obtain ⟨rfl, hstarts⟩ := h₂
    obtain ⟨rfl, hvalid⟩ := h₁
    subst h₀
    rintro rfl he hopen
    exact .rolledBack _ he ⟨hvalid, hstarts⟩ (Or.inr hopen)
  case vc5 _ h₀ _ _ h₁ _ _ h₂ _ _ =>
    obtain ⟨rfl, hstarts⟩ := h₂
    obtain ⟨rfl, hvalid⟩ := h₁
    subst h₀
    rintro rfl he henable
    exact .rolledBack _ he ⟨hvalid, hstarts⟩ (Or.inl henable)
  case vc6 _ h₀ _ _ h₁ _ _ =>
    obtain ⟨rfl, -⟩ := h₁
    subst h₀
    rintro rfl he hstarts
    exact .notStarted _ he (fun h => hstarts h.2)
  case vc7 _ h₀ _ _ =>
    subst h₀
    rintro rfl he hvalid
    exact .notStarted _ he (fun h => hvalid h.1)

end

theorem start_run (sys : SystemCalls) :
    match (builder.start sys).run {} with
    | .ok trace r => StartSucceeded builder sys trace r
    | .error e r => StartFailed builder sys e r := by
  have hspec := start_spec builder sys {} rfl
  simp only [WP.wp, PredTrans.apply] at hspec
  cases hrun : (builder.start sys).run {} with
  | ok trace r =>
    rw [hrun] at hspec
    exact hspec
  | error e r =>
    rw [hrun] at hspec
    exact hspec

end EventTraceBuilder

/-- The session has been stopped, every trace handle closed, and no thread is left that runs
`ProcessTrace` with a freed callback context. -/
def Resources.LeavesNothing (r : Resources) : Prop :=
  r.session = false ∧ r.traceHandle = none ∧ ¬(r.processThread = true ∧ r.callbackContext = false)

structure StopCalls where
  controlTraceStops : Bool
  closeTraceCloses : Bool

/-- `EventTrace::stop`; none if it waits for ever. `ProcessTrace` returns once the session is
stopped or its handle closed. -/
def EventTrace.stop (trace : EventTrace) (sys : StopCalls) (r : Resources) :
    Option (EventTrace × Resources) :=
  if !trace.started then some (trace, r)
  else
    let session := r.session && !sys.controlTraceStops
    let handle := if trace.traceHandle ≠ invalidProcessTraceHandle ∧ sys.closeTraceCloses = true
      then none else r.traceHandle
    -- the join of the `ProcessTrace` thread
    if r.processThread && session && handle.isSome then none
    else
      some ({ trace with traceHandle := invalidProcessTraceHandle, started := false },
        { r with session, traceHandle := handle, processThread := false })

def FailsCleanly (builder : EventTraceBuilder) (sys : SystemCalls) : Prop :=
  ∀ e r, (builder.start sys).run {} = .error (.err e) r → r.started = true → r.LeavesNothing

/-- A start fails cleanly exactly if, once the session is started, the rollback stops it, and the
stop signal can be created where all else succeeds. -/
theorem trace_start_fails_cleanly_iff (builder : EventTraceBuilder) (sys : SystemCalls) :
    FailsCleanly builder sys ↔
      (builder.Valid ∧ builder.Starts sys →
        (builder.EnableFails sys ∨ builder.OpenFails sys → sys.controlTraceStops = true) ∧
        (¬builder.EnableFails sys → ¬builder.OpenFails sys → sys.spawnsThread = true →
          sys.createEvent = none)) := by
  have hcases := builder.start_run sys
  constructor
  · intro hclean hstarts
    cases hrun : (builder.start sys).run {} with
    | ok trace r =>
      rw [hrun] at hcases
      exact ⟨fun h => absurd h (not_or.mpr ⟨hcases.enable, hcases.opens⟩),
        fun _ _ _ => hcases.signal⟩
    | error e r =>
      rw [hrun] at hcases
      cases hcases with
      | notStarted _ he h => exact absurd hstarts h
      | rolledBack _ he _ h =>
        refine ⟨fun _ => ?_, fun henable hopen => absurd h (not_or.mpr ⟨henable, hopen⟩)⟩
        cases e with
        | panic => exact absurd rfl he
        | err e =>
          have hstopped := (hclean e _ hrun rfl).1
          simpa using hstopped
      | noThread henable hopen hspawn handle =>
        refine ⟨fun h => absurd h (not_or.mpr ⟨henable, hopen⟩), fun _ _ hspawned => ?_⟩
        cases hspawn.symm.trans hspawned
      | noStopSignal _ he _ _ _ _ _ handle =>
        -- the session still runs, so this failure is not clean
        cases e with
        | panic => exact absurd rfl he
        | err e => cases (hclean e _ hrun rfl).1
  · intro hcond e r hrun hstarted
    rw [hrun] at hcases
    cases hcases with
    | notStarted => cases hstarted
    | rolledBack _ he hstarts h =>
      have hstops := (hcond hstarts).1 h
      refine ⟨?_, rfl, fun hthread => Bool.noConfusion hthread.1⟩
      change (!sys.controlTraceStops) = false
      rw [hstops]
      rfl
    | noStopSignal _ he hstarts henable hopen hspawn hsignal handle =>
      exact absurd ((hcond hstarts).2 henable hopen hspawn) hsignal

def noStopSignalCalls : SystemCalls where
  startTrace := fun _ _ _ => errorSuccess
  enableTrace := fun _ _ _ _ => errorSuccess
  controlTraceStops := true
  openTrace := fun _ => 1
  spawnsThread := true
  createEvent := some 1450

/-- The error leaves the session running, its trace open and the thread reading the freed
callback context. -/
theorem trace_start_leaks_without_stop_signal :
    ¬FailsCleanly { name := "Trace".toList, userProviders := [⟨Guid.zeroed, .verbose, 1⟩] }
      noStopSignalCalls := by
  intro h
  have hleft := h _ { started := true, session := true, traceHandle := some 1,
                      processThread := true } rfl rfl
  exact Bool.noConfusion hleft.1

end WindowsErg.Etw
