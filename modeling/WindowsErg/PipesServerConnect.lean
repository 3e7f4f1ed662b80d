import WindowsErg.PipesServer

/-! Whether a client can stay connected to a pipe server without having passed the allow-list
check. -/
namespace WindowsErg.Pipes
open List TextScan ByteCodec CallProgram

variable {lib : Liberties}

/-- The system named an allowed image path for the client's process, or no list was given. -/
def NamedPipeServer.Passed (server : NamedPipeServer) (w : PipeWorld) (client : Client) : Prop :=
  server.allowedExecutables = [] ∨
    ∃ path, (client.processId, path) ∈ w.paths ∧ server.isAllowed path = true

def NamedPipeServer.Admitted (server : NamedPipeServer) (result : Except PipeServerError Unit)
    (w : PipeWorld) : Prop :=
  (result = .ok () ∧ ∀ client, w.state = .connected client → server.Passed w client) ∨
    ∀ client, w.state ≠ .connected client

/-- No client is connected, and none can come before the server listens again. -/
def Gone (w : PipeWorld) : Prop := w.state = .disconnected ∨ ∃ client, w.state = .closing client

def Vacant (w : PipeWorld) : Prop :=
  w.turnedAway = true ∧ ∀ client, w.state ≠ .connected client

def Known (processId : UInt32) (w : PipeWorld) : Prop :=
  ∃ client : Client, client.processId = processId ∧
    (w.state = .connected client ∨ w.state = .closing client)

def Listens (o : ℕ) (w : PipeWorld) : Prop :=
  ∃ op, w.operations[o]? = some op ∧ op.kind = .connect ∧ op.cancelRequested = false ∧
    (op.Pending ∧ w.state = .listening ∨ op.completion = some .success)

theorem PipeMove.state_cases {w w' : PipeWorld} (h : PipeMove lib w w') :
    w'.paths = w.paths ∧ w'.turnedAway = w.turnedAway ∧
      (w'.state = w.state ∨
        (w.state = .listening ∧ (lib.clientsConnectLate = true ∨ w.turnedAway = false) ∧
          ∃ client, w'.state = .connected client) ∨
        ∃ client, w.state = .connected client ∧ w'.state = .closing client) := by
  cases h with
  | clientConnects client hstate hlate =>
    exact ⟨rfl, rfl, Or.inr (Or.inl ⟨hstate, hlate, client, rfl⟩)⟩
  | clientCloses client hstate => exact ⟨rfl, rfl, Or.inr (Or.inr ⟨client, hstate, rfl⟩)⟩
  | clientWrites => exact ⟨rfl, rfl, Or.inl rfl⟩
  | readCompletes => exact ⟨rfl, rfl, Or.inl rfl⟩
  | writeTransfers => exact ⟨rfl, rfl, Or.inl rfl⟩
  | writeCompletes => exact ⟨rfl, rfl, Or.inl rfl⟩
  | ioFails => exact ⟨rfl, rfl, Or.inl rfl⟩
  | connectFails => exact ⟨rfl, rfl, Or.inl rfl⟩
  | cancels => exact ⟨rfl, rfl, Or.inl rfl⟩

theorem stable_gone : Stable (pipeSystem lib) Gone := by
  intro w w' hmove hw
  obtain ⟨-, -, hs | ⟨hlistening, -⟩ | ⟨client, hconnected, -⟩⟩ := PipeMove.state_cases hmove
  · rwa [Gone, hs]
  · rcases hw with hw | ⟨client, hw⟩
    · cases hw.symm.trans hlistening
    · cases hw.symm.trans hlistening
  · rcases hw with hw | ⟨client', hw⟩
    · cases hw.symm.trans hconnected
    · cases hw.symm.trans hconnected

theorem stable_vacant (hlate : lib.clientsConnectLate = false) :
    Stable (pipeSystem lib) Vacant := by
  rintro w w' hmove ⟨haway, hw⟩
  obtain ⟨-, ht, hs | ⟨-, hallowed, -⟩ | ⟨client, hconnected, -⟩⟩ := PipeMove.state_cases hmove
  · exact ⟨ht.trans haway, by rwa [hs]⟩
  · rw [hlate, haway] at hallowed
    simp at hallowed
  · exact absurd hconnected (hw client)

theorem stable_known (processId : UInt32) : Stable (pipeSystem lib) (Known processId) := by
  rintro w w' hmove ⟨client, hpid, hw⟩
  obtain ⟨-, -, hs | ⟨hlistening, -⟩ | ⟨client', hconnected, hclosing⟩⟩ :=
    PipeMove.state_cases hmove
  · exact ⟨client, hpid, by rwa [hs]⟩
  · rcases hw with hw | hw
    · cases hw.symm.trans hlistening
    · cases hw.symm.trans hlistening
  · rcases hw with hw | hw
    · rw [hw] at hconnected
      exact ⟨client, hpid, Or.inr (by rw [hclosing, InstanceState.connected.inj hconnected])⟩
    · cases hw.symm.trans hconnected

theorem stable_listens (o : ℕ) (hcalls : lib.callsFail = false) :
    Stable (pipeSystem lib) (Listens o) := by
  rintro w w' hmove ⟨op, hop, hkind, hcancel, hw⟩
  -- a move on another operation, or one that does not concern the instance's state
  have hkeep (i : ℕ) (other : Operation) (f : Operation → Operation)
      (hi : w.operations[i]? = some other) (hother : other ≠ op)
      (hops : w'.operations = w.operations.modify i f) (hstate : w'.state = w.state) :
      Listens o w' := by
    have hne : i ≠ o := by
      rintro rfl
      rw [hop] at hi
      exact hother (Option.some.inj hi).symm
    refine ⟨op, ?_, hkind, hcancel, by rwa [hstate]⟩
    rw [hops, List.getElem?_modify, hop]
    simp [hne]
  cases hmove with
  | clientConnects client hstate hlate =>
    refine ⟨op.completeConnect .success, ?_, ?_, ?_, Or.inr ?_⟩
    · simp [PipeWorld.connect, hop]
    · unfold Operation.completeConnect
      split_ifs
      · exact hkind
      · exact hkind
    · unfold Operation.completeConnect
      split_ifs
      · exact hcancel
      · exact hcancel
    · unfold Operation.completeConnect
      split_ifs with hpending
      · rfl
      · rcases hw with ⟨hp, -⟩ | hdone
        · exact absurd ⟨hkind, hp⟩ hpending
        · exact hdone
  | clientCloses client hstate =>
    refine ⟨op, hop, hkind, hcancel, Or.inr ?_⟩
    rcases hw with ⟨-, hlistening⟩ | hdone
    · cases hstate.symm.trans hlistening
    · exact hdone
  | clientWrites client hstate bytes => exact ⟨op, hop, hkind, hcancel, hw⟩
  | readCompletes i n length other hi hpending hread =>
    exact hkeep i other _ hi (by rintro rfl; rw [hkind] at hread; contradiction) rfl rfl
  | writeTransfers i n data other hi hpending hwrite =>
    exact hkeep i other _ hi (by rintro rfl; rw [hkind] at hwrite; contradiction) rfl rfl
  | writeCompletes i other hi hpending hwrite =>
    exact hkeep i other _ hi (by rintro rfl; rw [hkind] at hwrite; contradiction) rfl rfl
  | ioFails i code other hi hpending hio =>
    exact hkeep i other _ hi (by rintro rfl; exact hio hkind) rfl rfl
  | connectFails i code other hi hpending hconnect hfails =>
    cases hcalls.symm.trans hfails
  | cancels i other hi hpending hrequested =>
    exact hkeep i other _ hi (by rintro rfl; rw [hcancel] at hrequested; contradiction) rfl rfl

theorem Gone.not_connected {w : PipeWorld} (h : Gone w) (client : Client) :
    w.state ≠ .connected client := by
  intro hc
  rcases h with h | ⟨other, h⟩
  · cases h.symm.trans hc
  · cases h.symm.trans hc

theorem stable_true : Stable (pipeSystem lib) fun _ => True := stable_const True

theorem done_gone (server : NamedPipeServer) (e : PipeServerError) :
    Triple (pipeSystem lib) Gone (pure (.error e)) server.Admitted :=
  Triple.done stable_gone fun _ hw => Or.inr hw.not_connected

theorem done_vacant (server : NamedPipeServer) (e : PipeServerError)
    (hlate : lib.clientsConnectLate = false) :
    Triple (pipeSystem lib) Vacant (pure (.error e)) server.Admitted :=
  Triple.done (stable_vacant hlate) fun _ hw => Or.inr hw.2

theorem NamedPipeServer.disconnect_gone (server : NamedPipeServer)
    (hdisconnect : lib.disconnectFails = false) :
    Triple (pipeSystem lib) (fun _ => True) server.disconnect fun _ => Gone := by
  apply Triple.bind (fun _ => Gone)
  · apply Triple.request stable_true (fun _ => stable_gone)
    rintro w answer w' - (⟨-, rfl⟩ | ⟨rfl, -, hfails | hstate⟩)
    · exact Or.inl rfl
    · cases hdisconnect.symm.trans hfails
    · exact Or.inl hstate
  · rintro (code | ⟨⟩)
    · exact Triple.done stable_gone fun _ hw => hw
    · exact Triple.done stable_gone fun _ hw => hw

def Named (processId : UInt32) (path : Text) (w : PipeWorld) : Prop := (processId, path) ∈ w.paths

theorem stable_named (processId : UInt32) (path : Text) :
    Stable (pipeSystem lib) (Named processId path) := by
  intro w w' hmove hw
  rwa [Named, (PipeMove.state_cases hmove).1]

def NamedPipeServer.Vouched (server : NamedPipeServer) (w : PipeWorld) : Prop :=
  ∃ processId path, Known processId w ∧ Named processId path w ∧ server.isAllowed path = true

theorem NamedPipeServer.stable_vouched (server : NamedPipeServer) :
    Stable (pipeSystem lib) server.Vouched := by
  rintro w w' hmove ⟨processId, path, hknown, hnamed, hallowed⟩
  exact ⟨processId, path, stable_known _ _ _ hmove hknown, stable_named _ _ _ _ hmove hnamed,
    hallowed⟩

theorem NamedPipeServer.Vouched.passed {server : NamedPipeServer} {w : PipeWorld}
    (h : server.Vouched w) (client : Client) (hconnected : w.state = .connected client) :
    server.Passed w client := by
  obtain ⟨processId, path, ⟨known, rfl, hstate⟩, hnamed, hallowed⟩ := h
  -- the client that is connected is the one whose process was asked for
  have hsame : known = client := by
    rcases hstate with hstate | hstate
    · rw [hconnected] at hstate
      exact (InstanceState.connected.inj hstate).symm
    · cases hconnected.symm.trans hstate
  exact Or.inr ⟨path, hsame ▸ hnamed, hallowed⟩

theorem getNamedPipeClientProcessId_known :
    Triple (pipeSystem lib) (fun _ => True) getNamedPipeClientProcessId
      fun answer w => ∀ processId, answer = some processId → Known processId w := by
  apply Triple.request stable_true
  · intro answer w w' hmove hw processId ha
    exact stable_known processId w w' hmove (hw processId ha)
  rintro w answer w' - (⟨rfl, hstate⟩ | ⟨rfl, -, ha⟩) processId rfl
  · split at hstate
    · rename_i client hconnected
      exact ⟨client, (Option.some.inj hstate).symm, Or.inl hconnected⟩
    · rename_i client hclosing
      exact ⟨client, (Option.some.inj hstate).symm, Or.inr hclosing⟩
    · contradiction
  · contradiction

theorem NamedPipeServer.checkClientExecutable_vouched (server : NamedPipeServer) :
    Triple (pipeSystem lib) (fun _ => True) server.checkClientExecutable
      fun result w => result = .ok () → server.Vouched w := by
  have hfailed (P : PipeWorld → Prop) (e : PipeServerError) :
      Triple (pipeSystem lib) P (pure (Except.error e))
        fun (result : Except PipeServerError Unit) w => result = .ok () → server.Vouched w :=
    Triple.pre (R := fun _ => True) (Triple.done stable_true fun _ _ he => by contradiction)
      fun _ _ => trivial
  apply Triple.bind _ getNamedPipeClientProcessId_known
  rintro (_ | processId)
  · exact hfailed _ _
  apply Triple.pre (R := Known processId) _ fun _ hw => hw processId rfl
  apply Triple.bind (fun _ => Known processId)
  · apply Triple.request (stable_known _) (fun _ => stable_known _)
    rintro w answer w' hw rfl
    exact hw
  rintro (_ | _)
  · exact hfailed _ _
  apply Triple.bind fun answer w =>
    Known processId w ∧ ∀ path, answer = some path → Named processId path w
  · apply Triple.request (stable_known _)
    · rintro answer w w' hmove ⟨hw, hnamed⟩
      exact ⟨stable_known _ _ _ hmove hw, fun path ha =>
        stable_named _ _ _ _ hmove (hnamed path ha)⟩
    · rintro w (_ | path) w' hw rfl
      · exact ⟨hw, fun path ha => by contradiction⟩
      · refine ⟨hw, fun path' ha => ?_⟩
        rw [← Option.some.inj ha]
        exact mem_append_right _ (mem_singleton_self _)
  rintro (_ | path)
  · exact hfailed _ _
  dsimp only
  split_ifs with hallowed
  · apply Triple.pre (R := fun w => Known processId w ∧ Named processId path w) _
      fun _ hw => ⟨hw.1, hw.2 path rfl⟩
    apply Triple.done ((stable_known _).and (stable_named _ _))
    rintro w ⟨hknown, hnamed⟩ -
    exact ⟨processId, path, hknown, hnamed, hallowed⟩
  · exact hfailed _ _

theorem NamedPipeServer.validateConnectedClient_admitted (server : NamedPipeServer)
    (P : PipeWorld → Prop)
    (hdisconnect : lib.disconnectFails = false ∨ server.allowedExecutables = []) :
    Triple (pipeSystem lib) P server.validateConnectedClient server.Admitted := by
  apply Triple.pre (R := fun _ => True) _ fun _ _ => trivial
  unfold NamedPipeServer.validateConnectedClient
  split_ifs with hempty
  · have hnone := isEmpty_iff.mp hempty
    exact Triple.done stable_true fun _ _ => Or.inl ⟨rfl, fun _ _ => Or.inl hnone⟩
  have hdisconnects : lib.disconnectFails = false :=
    hdisconnect.resolve_right fun h => hempty (isEmpty_iff.mpr h)
  apply Triple.bind _ server.checkClientExecutable_vouched
  rintro (e | ⟨⟩)
  · apply Triple.pre (R := fun _ => True) _ fun _ _ => trivial
    exact Triple.bind _ (server.disconnect_gone hdisconnects) fun _ => done_gone server e
  · apply Triple.pre (R := server.Vouched) _ fun _ hw => hw rfl
    exact Triple.done server.stable_vouched fun _ hw => Or.inl ⟨rfl, hw.passed⟩

def AfterConnectStart (answer : Started UInt32) (w : PipeWorld) : Prop :=
  answer.result = .error errorIoPending ∧ Listens answer.overlapped w ∨
    answer.result = .ok () ∨ answer.result = .error errorPipeConnected ∨
    answer.result = .error errorNoData ∧ Gone w

theorem stable_afterConnectStart (answer : Started UInt32) (hcalls : lib.callsFail = false) :
    Stable (pipeSystem lib) (AfterConnectStart answer) := by
  rintro w w' hmove (⟨hr, hw⟩ | hr | hr | ⟨hr, hw⟩)
  · exact Or.inl ⟨hr, stable_listens _ hcalls _ _ hmove hw⟩
  · exact Or.inr (Or.inl hr)
  · exact Or.inr (Or.inr (Or.inl hr))
  · exact Or.inr (Or.inr (Or.inr ⟨hr, stable_gone _ _ hmove hw⟩))

theorem listenStep_afterConnectStart {w w' : PipeWorld} {answer : Started UInt32}
    (hcalls : lib.callsFail = false) (h : ListenStep lib w answer w') :
    AfterConnectStart answer w' := by
  rcases h with ⟨ho, hr, rfl, -⟩ | ⟨hr, -⟩ | ⟨hr, -⟩ | ⟨hr, rfl, hclosing⟩ | ⟨hfails, -⟩
  · left
    refine ⟨hr, { kind := .connect }, ?_, rfl, rfl, Or.inl ⟨rfl, rfl⟩⟩
    rw [ho]
    simp [PipeWorld.listen]
  · exact Or.inr (Or.inl hr)
  · exact Or.inr (Or.inr (Or.inl hr))
  · exact Or.inr (Or.inr (Or.inr ⟨hr, Or.inr hclosing⟩))
  · cases hcalls.symm.trans hfails

def AfterClientWait (o : ℕ) (answer : UInt32) (w : PipeWorld) : Prop :=
  answer = waitObject0 ∧ (∃ op, w.operations[o]? = some op ∧ op.completion = some .success) ∨
    answer ≠ waitObject0 ∧ Vacant w

theorem stable_afterClientWait (o : ℕ) (answer : UInt32) (hlate : lib.clientsConnectLate = false) :
    Stable (pipeSystem lib) (AfterClientWait o answer) := by
  rintro w w' hmove (⟨ha, op, hop, hdone⟩ | ⟨ha, hw⟩)
  · have hnot : ¬ op.Pending := by
      rw [Operation.Pending, hdone]
      exact Option.some_ne_none _
    exact Or.inl ⟨ha, op, PipeMove.completed hmove o op hop hnot, hdone⟩
  · exact Or.inr ⟨ha, stable_vacant hlate _ _ hmove hw⟩

theorem waitForMultipleObjects_client (o : ℕ) (interruptible : Bool) (timeoutMs : UInt32)
    (hlate : lib.clientsConnectLate = false) (hcalls : lib.callsFail = false)
    (hwaits : lib.waitsFail = false) :
    Triple (pipeSystem lib) (Listens o) (waitForMultipleObjects o interruptible timeoutMs)
      (AfterClientWait o) := by
  apply Triple.request (stable_listens o hcalls)
  · exact fun answer => stable_afterClientWait o answer hlate
  rintro w answer w' ⟨op, hop, -, -, hw⟩ (⟨op', hop', hcases⟩ | ⟨hfails, -⟩)
  · rw [hop] at hop'
    cases hop'
    rcases hcases with ⟨hnot, ha, rfl⟩ | ⟨hpending, rfl, ha⟩
    · rcases hw with ⟨hpending, -⟩ | hdone
      · exact absurd hpending hnot
      · exact Or.inl ⟨ha, op, hop, hdone⟩
    · rcases hw with ⟨-, hlistening⟩ | hdone
      · right
        refine ⟨?_, rfl, fun client hc => ?_⟩
        · rcases ha with ⟨-, rfl⟩ | ⟨-, rfl⟩
          · exact interrupted_ne_object0
          · exact waitTimeout_ne_object0
        · have hboth : InstanceState.listening = .connected client := hlistening.symm.trans hc
          contradiction
      · rw [Operation.Pending, hdone] at hpending
        contradiction
  · cases hwaits.symm.trans hfails

theorem cancelIoEx_vacant (o : ℕ) (hlate : lib.clientsConnectLate = false) :
    Triple (pipeSystem lib) Vacant (cancelIoEx o) fun _ => Vacant := by
  apply Triple.request (stable_vacant hlate) fun _ => stable_vacant hlate
  rintro w answer w' hw ⟨op, hop, ⟨-, rfl⟩ | ⟨-, rfl⟩ | ⟨-, -, rfl⟩⟩
  · exact hw
  · exact hw
  · exact hw

theorem getOverlappedResult_success (o : ℕ) (answer : UInt32)
    (hlate : lib.clientsConnectLate = false) :
    Triple (pipeSystem lib) (fun w => AfterClientWait o answer w ∧ answer = waitObject0)
      (getOverlappedResult o false) fun result _ => result.result = .ok () := by
  apply Triple.request ((stable_afterClientWait o answer hlate).and (stable_const _))
    (fun _ => stable_const _)
  rintro w result w' ⟨⟨-, op, hop, hdone⟩ | ⟨hne, -⟩, ha⟩ ⟨rfl, op', hop', hresult⟩
  · rw [hop] at hop'
    cases hop'
    rcases hresult with ⟨status, hstatus, rfl⟩ | ⟨hpending, -⟩
    · cases hdone.symm.trans hstatus
      rfl
    · rw [Operation.Pending, hdone] at hpending
      contradiction
  · exact absurd ha hne

theorem NamedPipeServer.afterConnectWait_admitted (server : NamedPipeServer) (o : ℕ)
    (waitResult : UInt32) (hlate : lib.clientsConnectLate = false)
    (hdisconnect : lib.disconnectFails = false ∨ server.allowedExecutables = []) :
    Triple (pipeSystem lib) (AfterClientWait o waitResult)
      (server.afterConnectWait o waitResult) server.Admitted := by
  unfold NamedPipeServer.afterConnectWait
  by_cases hwait : waitResult = waitObject0
  · rw [if_pos hwait]
    apply Triple.pre (R := fun w => AfterClientWait o waitResult w ∧ waitResult = waitObject0) _
      fun _ hw => ⟨hw, hwait⟩
    apply Triple.bind _ (getOverlappedResult_success o waitResult hlate)
    intro answer
    split
    · rename_i err herr
      constructor
      intro w r w' hok
      cases herr.symm.trans hok
    · exact server.validateConnectedClient_admitted _ hdisconnect
  · rw [if_neg hwait]
    apply Triple.pre (R := Vacant)
    · -- all three branches cancel and fail
      have hcancelled := cancelIoEx_vacant o hlate
      split_ifs
      · exact Triple.bind _ hcancelled fun _ => done_vacant server _ hlate
      · exact Triple.bind _ hcancelled fun _ => done_vacant server _ hlate
      · apply Triple.bind _ hcancelled
        intro _
        apply Triple.bind (fun _ => Vacant) _ fun _ => done_vacant server _ hlate
        apply Triple.request (stable_vacant hlate) fun _ => stable_vacant hlate
        rintro w code w' hw rfl
        exact hw
      · exact Triple.bind _ hcancelled fun _ => done_vacant server _ hlate
    · rintro w (⟨ha, -⟩ | ⟨-, hw⟩)
      · exact absurd ha hwait
      · exact hw

theorem createEvent_ok (hcalls : lib.callsFail = false) :
    Triple (pipeSystem lib) (fun _ => True) createEvent fun answer _ => answer = .ok () := by
  apply Triple.request stable_true fun _ => stable_const _
  rintro w answer w' - ⟨-, ha | ⟨hfails, -⟩⟩
  · exact ha
  · cases hcalls.symm.trans hfails

section Connect
variable (hlate : lib.clientsConnectLate = false) (hcalls : lib.callsFail = false)
  (hwaits : lib.waitsFail = false)
include hlate hcalls hwaits

theorem NamedPipeServer.connectWithWaitTimeout_admitted (server : NamedPipeServer)
    (interruptible : Bool) (timeout : Duration)
    (hdisconnect : lib.disconnectFails = false ∨ server.allowedExecutables = []) :
    Triple (pipeSystem lib) (fun _ => True)
      (server.connectWithWaitTimeout interruptible timeout) server.Admitted := by
  apply Triple.bind _ (createEvent_ok hcalls)
  rintro (code | ⟨⟩)
  · constructor
    intro w r w' he
    contradiction
  apply Triple.bind AfterConnectStart
  · exact Triple.request (stable_const _) (fun answer => stable_afterConnectStart answer hcalls)
      fun w answer w' _ hstep => listenStep_afterConnectStart hcalls hstep
  rintro ⟨code | ⟨⟩, o⟩
  · dsimp only
    split_ifs with hother hconnected
    · -- the client has come and gone
      apply Triple.pre (R := Gone) (done_gone server _)
      rintro w (⟨hr, -⟩ | hr | hr | ⟨-, hw⟩)
      · exact absurd (Except.error.inj hr) hother.1
      · contradiction
      · exact absurd (Except.error.inj hr) hother.2
      · exact hw
    · exact server.validateConnectedClient_admitted _ hdisconnect
    · apply Triple.pre (R := Listens o)
      · exact Triple.bind _ (waitForMultipleObjects_client o interruptible _ hlate hcalls hwaits)
          fun answer => server.afterConnectWait_admitted o answer hlate hdisconnect
      · rintro w (⟨-, hw⟩ | hr | hr | ⟨hr, -⟩)
        · exact hw
        · contradiction
        · exact absurd (Except.error.inj hr) hconnected
        · refine absurd ⟨?_, hconnected⟩ hother
          rw [show code = errorNoData from Except.error.inj hr]
          decide
  · exact server.validateConnectedClient_admitted _ hdisconnect

theorem NamedPipeServer.connectWithTimeout_admitted (server : NamedPipeServer) (timeout : Duration)
    (hdisconnect : lib.disconnectFails = false ∨ server.allowedExecutables = []) :
    Triple (pipeSystem lib) (fun _ => True) (server.connectWithTimeout timeout)
      server.Admitted := by
  apply Triple.bind _ (createEvent_ok hcalls)
  rintro (code | ⟨⟩)
  · constructor
    intro w r w' he
    contradiction
  · exact (server.connectWithWaitTimeout_admitted hlate hcalls hwaits false timeout hdisconnect).pre
      fun _ _ => trivial

end Connect

theorem awaitClient_ok (o : ℕ) (hcalls : lib.callsFail = false) :
    Triple (pipeSystem lib) (Listens o) (awaitClient o) fun answer _ => answer = .ok () := by
  apply Triple.request (stable_listens o hcalls) fun _ => stable_const _
  rintro w answer w' ⟨op, hop, -, -, hw⟩ ⟨rfl, ⟨op', hop', hcases⟩ | ⟨-, ha⟩⟩
  · rw [hop] at hop'
    cases hop'
    rcases hcases with ⟨-, ha⟩ | ⟨code, hfailed, -⟩
    · exact ha
    · -- nobody has made the operation fail
      rcases hw with ⟨hpending, -⟩ | hdone
      · rw [Operation.Pending, hfailed] at hpending
        contradiction
      · cases hdone.symm.trans hfailed
  · exact ha

theorem connectNamedPipeBlocking_client (hcalls : lib.callsFail = false) :
    Triple (pipeSystem lib) (fun _ => True) connectNamedPipeBlocking fun answer w =>
      answer = .ok () ∨ answer = .error errorPipeConnected ∨ Gone w := by
  apply Triple.bind AfterConnectStart
  · exact Triple.request (stable_const _) (fun answer => stable_afterConnectStart answer hcalls)
      fun w answer w' _ hstep => listenStep_afterConnectStart hcalls hstep
  rintro ⟨code | ⟨⟩, o⟩
  · dsimp only
    split_ifs with hpending
    · apply (awaitClient_ok o hcalls).weaken _ fun _ _ h => Or.inl h
      subst hpending
      rintro w (⟨-, hw⟩ | hr | hr | ⟨hr, -⟩)
      · exact hw
      · contradiction
      · exact absurd (Except.error.inj hr) (by decide)
      · exact absurd (Except.error.inj hr) (by decide)
    · apply Triple.done (stable_afterConnectStart _ hcalls)
      rintro w (⟨hr, -⟩ | hr | hr | ⟨-, hw⟩)
      · exact absurd (Except.error.inj hr) hpending
      · exact Or.inl hr
      · exact Or.inr (Or.inl hr)
      · exact Or.inr (Or.inr hw)
  · exact Triple.done (stable_afterConnectStart _ hcalls) fun _ _ => Or.inl rfl

theorem NamedPipeServer.connect_admitted (server : NamedPipeServer) (hcalls : lib.callsFail = false)
    (hdisconnect : lib.disconnectFails = false ∨ server.allowedExecutables = []) :
    Triple (pipeSystem lib) (fun _ => True) server.connect server.Admitted := by
  apply Triple.bind _ (connectNamedPipeBlocking_client hcalls)
  rintro (code | ⟨⟩)
  · dsimp only
    split_ifs with hconnected
    · apply Triple.pre (R := Gone) (done_gone server _)
      rintro w (hr | hr | hw)
      · contradiction
      · exact absurd (Except.error.inj hr) hconnected
      · exact hw
    · exact server.validateConnectedClient_admitted _ hdisconnect
  · exact server.validateConnectedClient_admitted _ hdisconnect

def NamedPipeServer.Admits (lib : Liberties) (server : NamedPipeServer)
    (p : PipeProgram (Except PipeServerError Unit)) : Prop :=
  ∀ w r w', w.paths = [] → Runs (pipeSystem lib) p w r w' → server.Admitted r w'

structure NamedPipeServer.ConnectsAdmit (lib : Liberties) (server : NamedPipeServer) : Prop where
  connect : server.Admits lib server.connect
  connectWithTimeout : ∀ timeout, server.Admits lib (server.connectWithTimeout timeout)
  connectWithWait : server.Admits lib server.connectWithWait
  connectWithWaitTimeout : ∀ timeout,
    server.Admits lib (server.connectWithWaitTimeout true timeout)

theorem admits_of_triple {server : NamedPipeServer} {p : PipeProgram (Except PipeServerError Unit)}
    (h : Triple (pipeSystem lib) (fun _ => True) p server.Admitted) : server.Admits lib p :=
  fun w r w' _ hrun => h.sound w r w' trivial hrun

theorem NamedPipeServer.Admits.not_connected {server : NamedPipeServer}
    {p : PipeProgram (Except PipeServerError Unit)} (h : server.Admits lib p) {w w' : PipeWorld}
    {e : PipeServerError} (hpaths : w.paths = []) (hrun : Runs (pipeSystem lib) p w (.error e) w')
    (client : Client) : w'.state ≠ .connected client := by
  rcases h _ _ _ hpaths hrun with ⟨he, -⟩ | hnone
  · contradiction
  · exact hnone client

section
variable (server : NamedPipeServer) (timeout : Duration) (client : Client)

theorem connect_times_out_connected (htime : durationToWaitMs timeout ≠ infinite)
    (hlate : lib.clientsConnectLate = true) :
    ∃ w, Runs (pipeSystem lib) (server.connectWithTimeout timeout) idlePipe
      (.error (.timeout server.pipeName "connect".toList)) w ∧ w.state = .connected client := by
  let turned : PipeWorld := { idlePipe.listen with turnedAway := true }
  have hwait : pipeStep lib (.waitForMultipleObjects 0 false (durationToWaitMs timeout))
      idlePipe.listen waitTimeout turned :=
    Or.inl ⟨_, rfl, Or.inr ⟨rfl, rfl, Or.inr ⟨htime, rfl⟩⟩⟩
  have hconnects : PipeMove lib turned (turned.connect client) :=
    .clientConnects turned client rfl (Or.inl hlate)
  -- the operation has completed, so there is nothing left to cancel
  have hcancel : pipeStep lib (.cancelIoEx 0) (turned.connect client) () (turned.connect client) :=
    ⟨_, rfl, Or.inl ⟨Option.some_ne_none _, rfl⟩⟩
  refine ⟨turned.connect client, ?_, rfl⟩
  exact server.connectWithTimeout_starts timeout (.call hwait (.interfere hconnects
    (.call (x := ()) hcancel (.done _ _))))

theorem connect_without_event_connected (hcalls : lib.callsFail = true) :
    ∃ e w, Runs (pipeSystem lib) (server.connectWithTimeout timeout) idlePipe (.error e) w ∧
      w.state = .connected client := by
  have hconnects : PipeMove lib idlePipe (idlePipe.connect client) :=
    .clientConnects idlePipe client rfl (Or.inr rfl)
  have hevent : pipeStep lib .createEvent (idlePipe.connect client) (.error 8)
      (idlePipe.connect client) := ⟨rfl, Or.inr ⟨hcalls, 8, rfl⟩⟩
  exact ⟨_, idlePipe.connect client, .interfere hconnects (.call hevent (.done _ _)), rfl⟩

theorem connect_wait_fails_connected (hwaits : lib.waitsFail = true) :
    ∃ e w, Runs (pipeSystem lib) (server.connectWithTimeout timeout) idlePipe (.error e) w ∧
      w.state = .connected client := by
  let taken : PipeWorld := idlePipe.listen.connect client
  let turned : PipeWorld := { taken with turnedAway := true }
  have hconnects : PipeMove lib idlePipe.listen taken :=
    .clientConnects idlePipe.listen client rfl (Or.inr rfl)
  have hwait : pipeStep lib (.waitForMultipleObjects 0 false (durationToWaitMs timeout))
      taken waitFailed turned :=
    Or.inr ⟨hwaits, waitFailed_ne_object0, waitFailed_ne_interrupted, waitFailed_ne_timeout, rfl⟩
  have hcancel : pipeStep lib (.cancelIoEx 0) turned () turned :=
    ⟨_, rfl, Or.inl ⟨Option.some_ne_none _, rfl⟩⟩
  have hcode : pipeStep lib .getLastError turned (6 : UInt32) turned := rfl
  refine ⟨server.connectError 6, turned, ?_, rfl⟩
  exact server.connectWithTimeout_starts timeout (.interfere hconnects (.call hwait
    (.call (x := ()) hcancel (.call (x := (6 : UInt32)) hcode (.done _ _)))))

end

theorem connect_disconnect_fails_connected (server : NamedPipeServer)
    (hallowed : server.allowedExecutables ≠ []) (hdisconnect : lib.disconnectFails = true) :
    ∃ e w, Runs (pipeSystem lib) server.connect quietPipe (.error e) w ∧
      w.state = .connected ⟨4⟩ := by
  have hlisten : pipeStep lib .listen quietPipe ⟨.error errorPipeConnected, 0⟩ quietPipe :=
    Or.inr (Or.inr (Or.inl ⟨rfl, rfl, ⟨4⟩, rfl⟩))
  have hprocess : pipeStep lib .getNamedPipeClientProcessId quietPipe (some 4) quietPipe :=
    Or.inl ⟨rfl, rfl⟩
  have hopen : pipeStep lib (.openProcess 4) quietPipe false quietPipe := rfl
  have hkept : pipeStep lib .disconnectNamedPipe quietPipe (.error 5) quietPipe :=
    Or.inr ⟨rfl, ⟨5, rfl⟩, Or.inl hdisconnect⟩
  have hcheck : Runs (pipeSystem lib) server.checkClientExecutable quietPipe
      (.error (server.accessDenied "could not open client process".toList)) quietPipe :=
    .call hprocess (.call (x := false) hopen (.done _ _))
  have hvalidate : Runs (pipeSystem lib) server.validateConnectedClient quietPipe
      (.error (server.accessDenied "could not open client process".toList)) quietPipe := by
    unfold NamedPipeServer.validateConnectedClient
    rw [if_neg (by simpa using hallowed)]
    exact hcheck.bind (.call hkept (.done _ _))
  exact ⟨_, quietPipe, .call hlisten hvalidate, rfl⟩

/-- No connect leaves a client that has not passed the allow-list check exactly when no client
comes after the server has stopped waiting, no call and no wait fails, and a refused client can be
disconnected. -/
theorem connects_admit_iff (lib : Liberties) (server : NamedPipeServer) :
    server.ConnectsAdmit lib ↔ lib.clientsConnectLate = false ∧ lib.callsFail = false ∧
      lib.waitsFail = false ∧ (lib.disconnectFails = false ∨ server.allowedExecutables = []) := by
  constructor
  · intro h
    refine ⟨?_, ?_, ?_, ?_⟩
    · apply Bool.eq_false_iff.mpr
      intro hlate
      obtain ⟨w, hrun, hstate⟩ :=
        connect_times_out_connected server ⟨0⟩ ⟨4⟩ (by decide) hlate
      exact (h.connectWithTimeout _).not_connected rfl hrun _ hstate
    · apply Bool.eq_false_iff.mpr
      intro hcalls
      obtain ⟨e, w, hrun, hstate⟩ := connect_without_event_connected server ⟨0⟩ ⟨4⟩ hcalls
      exact (h.connectWithTimeout _).not_connected rfl hrun _ hstate
    · apply Bool.eq_false_iff.mpr
      intro hwaits
      obtain ⟨e, w, hrun, hstate⟩ := connect_wait_fails_connected server ⟨0⟩ ⟨4⟩ hwaits
      exact (h.connectWithTimeout _).not_connected rfl hrun _ hstate
    · by_contra hnot
      rw [not_or, Bool.not_eq_false] at hnot
      obtain ⟨e, w, hrun, hstate⟩ := connect_disconnect_fails_connected server hnot.2 hnot.1
      exact h.connect.not_connected rfl hrun _ hstate
  · rintro ⟨hlate, hcalls, hwaits, hdisconnect⟩
    exact {
      connect := admits_of_triple (server.connect_admitted hcalls hdisconnect)
      connectWithTimeout := fun timeout => admits_of_triple
        (server.connectWithTimeout_admitted hlate hcalls hwaits timeout hdisconnect)
      connectWithWait := admits_of_triple
        (server.connectWithWaitTimeout_admitted hlate hcalls hwaits true .max hdisconnect)
      connectWithWaitTimeout := fun timeout => admits_of_triple
        (server.connectWithWaitTimeout_admitted hlate hcalls hwaits true timeout hdisconnect) }

/-- The connect has reported a timeout, and a client whose executable nobody has looked at is
connected to the instance. -/
theorem connect_timeout_keeps_unchecked_client :
    ∃ w, Runs (pipeSystem { Liberties.regular with clientsConnectLate := true })
      (NamedPipeServer.connectWithTimeout
        ⟨"\\\\.\\pipe\\agent".toList, ["C:\\agent.exe".toList], none⟩ ⟨10^9⟩) idlePipe
      (.error (.timeout "\\\\.\\pipe\\agent".toList "connect".toList)) w ∧
      w.state = .connected ⟨4242⟩ :=
  connect_times_out_connected _ _ _ (by decide) rfl

end WindowsErg.Pipes
