import WindowsErg.PipesServer

/-! Which calls of a pipe server can return while the operation they started is still pending
in the kernel. -/
namespace WindowsErg.Pipes
open Option List TextScan ByteCodec CallProgram

variable {lib : Liberties}

def Settled (first : ℕ) (w : PipeWorld) : Prop :=
  ∀ o op, first ≤ o → w.operations[o]? = some op → ¬ op.Pending

variable {w w' : PipeWorld}

theorem settled_of_operations {first : ℕ} (h : Settled first w)
    (he : w'.operations = w.operations) : Settled first w' := by
  intro o op ho hop
  rw [he] at hop
  exact h o op ho hop

variable (first : ℕ)

theorem stable_settled : Stable (pipeSystem lib) (Settled first) := by
  intro w w' hmove hw o op ho hop
  have hlt : o < w.operations.length := by
    rw [← PipeMove.length_operations hmove]
    exact (List.getElem?_eq_some_iff.mp hop).1
  have hsome : w.operations[o]? = some w.operations[o] := List.getElem?_eq_getElem hlt
  have hdone := hw o _ ho hsome
  rw [PipeMove.completed hmove o _ hsome hdone] at hop
  exact Option.some.inj hop ▸ hdone

def Count (count : ℕ) (w : PipeWorld) : Prop := w.operations.length = count

variable (count : ℕ)

theorem stable_count : Stable (pipeSystem lib) (Count count) := by
  intro w w' hmove hw
  exact (PipeMove.length_operations hmove).trans hw

theorem Count.settled {first : ℕ} (h : Count first w) : Settled first w := by
  intro o op ho hop
  have hlt := (List.getElem?_eq_some_iff.mp hop).1
  rw [h] at hlt
  omega

theorem Count.settled_of_last {first : ℕ} (h : Count (first+1) w)
    (hlast : ∀ op, w.operations[first]? = some op → ¬ op.Pending) : Settled first w := by
  intro o op ho hop
  have hlt := (List.getElem?_eq_some_iff.mp hop).1
  rw [h] at hlt
  have he : o = first := by omega
  subst he
  exact hlast op hop

section
variable {c : PipeCall}
    (hc : ∀ w answer w', pipeStep lib c w answer w' → w'.operations = w.operations)
include hc

theorem triple_request_settled :
    Triple (pipeSystem lib) (Settled first) (Program.request c) fun _ => Settled first :=
  Triple.request (stable_settled first) (fun _ => stable_settled first)
    fun w answer w' hw hstep => settled_of_operations hw (hc w answer w' hstep)

theorem triple_request_count :
    Triple (pipeSystem lib) (Count count) (Program.request c) fun _ => Count count :=
  Triple.request (stable_count count) (fun _ => stable_count count)
    fun w answer w' hw hstep => (congrArg List.length (hc w answer w' hstep)).trans hw

end

theorem createEvent_count :
    Triple (pipeSystem lib) (Count count) createEvent fun _ => Count count :=
  triple_request_count count fun _ _ _ h => by rw [h.1]

theorem resetEvent_count : Triple (pipeSystem lib) (Count count) resetEvent fun _ => Count count :=
  triple_request_count count fun _ _ _ h => by rw [h.1]

theorem getOverlappedResult_settled (o : ℕ) (wait : Bool) :
    Triple (pipeSystem lib) (Settled first) (getOverlappedResult o wait) fun _ => Settled first :=
  triple_request_settled first fun _ _ _ h => by rw [h.1]

theorem getLastError_settled :
    Triple (pipeSystem lib) (Settled first) getLastError fun _ => Settled first :=
  triple_request_settled first fun _ _ _ h => by rw [show _ = _ from h]

theorem done_settled {α : Type} (a : α) :
    Triple (pipeSystem lib) (Settled first) (pure a) fun _ => Settled first :=
  Triple.done (stable_settled first) fun _ hw => hw

theorem done_count {α : Type} (a : α) :
    Triple (pipeSystem lib) (Count first) (pure a) fun _ => Settled first :=
  Triple.done (stable_count first) fun _ hw => hw.settled

theorem settled_disconnect {first : ℕ} (h : Settled first w) : Settled first w.disconnect := by
  intro o op ho hop
  simp only [PipeWorld.disconnect, List.getElem?_map, map_eq_some_iff] at hop
  obtain ⟨before, hbefore, rfl⟩ := hop
  have hdone := h o before ho hbefore
  rwa [Operation.completeConnect_of_not_pending _ _ hdone]

variable (server : NamedPipeServer)

theorem NamedPipeServer.disconnect_settled (first : ℕ) :
    Triple (pipeSystem lib) (Settled first) server.disconnect fun _ => Settled first := by
  apply Triple.bind (fun _ => Settled first)
  · apply Triple.request (stable_settled first) (fun _ => stable_settled first)
    rintro w answer w' hw (⟨-, rfl⟩ | ⟨rfl, -⟩)
    · exact settled_disconnect hw
    · exact hw
  · rintro (code | ⟨⟩)
    · exact done_settled first _
    · exact done_settled first _

theorem NamedPipeServer.checkClientExecutable_settled (first : ℕ) :
    Triple (pipeSystem lib) (Settled first) server.checkClientExecutable
      fun _ => Settled first := by
  apply Triple.bind (fun _ => Settled first)
  · apply triple_request_settled first
    rintro w answer w' (⟨rfl, -⟩ | ⟨rfl, -⟩) <;> rfl
  rintro (_ | processId)
  · exact done_settled first _
  apply Triple.bind (fun _ => Settled first)
  · exact triple_request_settled first fun _ _ _ h => by rw [show _ = _ from h]
  rintro (_ | _)
  · exact done_settled first _
  apply Triple.bind (fun _ => Settled first)
  · apply triple_request_settled first
    rintro w (_ | path) w' rfl <;> rfl
  rintro (_ | clientPath)
  · exact done_settled first _
  dsimp only
  split_ifs
  · exact done_settled first _
  · exact done_settled first _

theorem NamedPipeServer.validateConnectedClient_settled (first : ℕ) :
    Triple (pipeSystem lib) (Settled first) server.validateConnectedClient
      fun _ => Settled first := by
  unfold NamedPipeServer.validateConnectedClient
  split_ifs
  · exact done_settled first _
  apply Triple.bind (fun _ => Settled first) (server.checkClientExecutable_settled first)
  rintro (e | ⟨⟩)
  · apply Triple.bind (fun _ => Settled first) (server.disconnect_settled first)
    exact fun _ => done_settled first _
  · exact done_settled first _

theorem listenStep_count {first : ℕ} {answer : Started UInt32} (hw : Count first w)
    (h : ListenStep lib w answer w') :
    answer.result = .error errorIoPending ∧ answer.overlapped = first ∧ Count (first+1) w' ∨
      answer.result ≠ .error errorIoPending ∧ Count first w' := by
  rcases h with ⟨ho, hr, rfl, -⟩ | ⟨hr, ⟨client, rfl⟩, -⟩ | ⟨hr, rfl, -⟩ | ⟨hr, rfl, -⟩ |
    ⟨-, rfl, code, hr, hcode, -⟩
  · left
    refine ⟨hr, ho.trans hw, ?_⟩
    simp only [Count, PipeWorld.listen, length_append, length_singleton]
    rw [hw]
  · right
    refine ⟨by simp [hr], ?_⟩
    simp only [Count, PipeWorld.connect, length_map]
    exact hw
  · exact Or.inr ⟨by rw [hr]; decide, hw⟩
  · exact Or.inr ⟨by rw [hr]; decide, hw⟩
  · right
    refine ⟨?_, hw⟩
    rw [hr]
    exact fun he => hcode (Except.error.inj he)

def AfterListen (first : ℕ) (answer : Started UInt32) (w : PipeWorld) : Prop :=
  answer.result = .error errorIoPending ∧ answer.overlapped = first ∧ Count (first+1) w ∨
    answer.result ≠ .error errorIoPending ∧ Count first w

theorem stable_afterListen (answer : Started UInt32) :
    Stable (pipeSystem lib) (AfterListen first answer) := by
  rintro w w' hmove (⟨hr, ho, hw⟩ | ⟨hr, hw⟩)
  · exact Or.inl ⟨hr, ho, stable_count _ _ _ hmove hw⟩
  · exact Or.inr ⟨hr, stable_count _ _ _ hmove hw⟩

theorem cancelIoEx_settled (hcancel : lib.cancelIsAsync = false) :
    Triple (pipeSystem lib) (Count (first+1)) (cancelIoEx first) fun _ => Settled first := by
  apply Triple.request (stable_count _) (fun _ => stable_settled first)
  rintro w answer w' hw ⟨op, hop, ⟨hdone, rfl⟩ | ⟨hpending, rfl⟩ | ⟨-, hasync, -⟩⟩
  · apply Count.settled_of_last hw
    intro op' hop'
    rw [hop] at hop'
    exact Option.some.inj hop' ▸ hdone
  · apply Count.settled_of_last
    · simpa [Count, PipeWorld.update] using hw
    · intro op' hop'
      simp only [PipeWorld.update, List.getElem?_modify, hop] at hop'
      have he : op.complete (.failed errorOperationAborted) = op' := by simpa using hop'
      rw [← he]
      simp [Operation.Pending, Operation.complete]
  · cases hcancel.symm.trans hasync

def AfterWait (first : ℕ) (answer : UInt32) (w : PipeWorld) : Prop :=
  answer = waitObject0 ∧ Settled first w ∨ answer ≠ waitObject0 ∧ Count (first+1) w

theorem waitForMultipleObjects_settled (interruptible : Bool) (timeoutMs : UInt32) :
    Triple (pipeSystem lib) (Count (first+1))
      (waitForMultipleObjects first interruptible timeoutMs) (AfterWait first) := by
  apply Triple.request (stable_count _)
  · rintro answer w w' hmove (⟨ha, hw⟩ | ⟨ha, hw⟩)
    · exact Or.inl ⟨ha, stable_settled _ _ _ hmove hw⟩
    · exact Or.inr ⟨ha, stable_count _ _ _ hmove hw⟩
  · rintro w answer w' hw (⟨op, hop, ⟨hdone, ha, rfl⟩ | ⟨-, rfl, ha⟩⟩ | ⟨-, ha, -, -, rfl⟩)
    · left
      refine ⟨ha, Count.settled_of_last hw ?_⟩
      intro op' hop'
      rw [hop] at hop'
      exact Option.some.inj hop' ▸ hdone
    · right
      refine ⟨?_, hw⟩
      rcases ha with ⟨-, rfl⟩ | ⟨-, rfl⟩
      · exact interrupted_ne_object0
      · exact waitTimeout_ne_object0
    · exact Or.inr ⟨ha, hw⟩

theorem NamedPipeServer.afterConnectWait_settled (first : ℕ) (waitResult : UInt32)
    (hcancel : lib.cancelIsAsync = false) :
    Triple (pipeSystem lib) (AfterWait first waitResult)
      (server.afterConnectWait first waitResult) fun _ => Settled first := by
  unfold NamedPipeServer.afterConnectWait
  by_cases hwait : waitResult = waitObject0
  · rw [if_pos hwait]
    have hpre : ∀ w, AfterWait first waitResult w → Settled first w := by
      rintro w (⟨-, hw⟩ | ⟨hne, -⟩)
      · exact hw
      · exact absurd hwait hne
    apply Triple.weaken _ hpre (fun _ _ hw => hw)
    apply Triple.bind (fun _ => Settled first) (getOverlappedResult_settled first first false)
    intro answer
    split
    · exact done_settled first _
    · exact server.validateConnectedClient_settled first
  · rw [if_neg hwait]
    have hpre : ∀ w, AfterWait first waitResult w → Count (first+1) w := by
      rintro w (⟨he, -⟩ | ⟨-, hw⟩)
      · exact absurd he hwait
      · exact hw
    apply Triple.weaken _ hpre (fun _ _ hw => hw)
    -- all three branches cancel first
    have hcancelled := cancelIoEx_settled first hcancel
    split_ifs
    · exact Triple.bind _ hcancelled fun _ => done_settled first _
    · exact Triple.bind _ hcancelled fun _ => done_settled first _
    · apply Triple.bind _ hcancelled
      intro _
      exact Triple.bind _ (getLastError_settled first) fun _ => done_settled first _
    · exact Triple.bind _ hcancelled fun _ => done_settled first _

theorem NamedPipeServer.connectWithWaitTimeout_settled (first : ℕ) (interruptible : Bool)
    (timeout : Duration) (hcancel : lib.cancelIsAsync = false) :
    Triple (pipeSystem lib) (Count first) (server.connectWithWaitTimeout interruptible timeout)
      fun _ => Settled first := by
  apply Triple.bind _ (createEvent_count first)
  rintro (code | ⟨⟩)
  · exact done_count first _
  apply Triple.bind (AfterListen first)
  · exact Triple.request (stable_count first) (stable_afterListen first)
      fun w answer w' hw hstep => listenStep_count hw hstep
  rintro ⟨result, o⟩
  have hnone (hne : result ≠ .error errorIoPending) (w : PipeWorld)
      (hw : AfterListen first ⟨result, o⟩ w) : Settled first w := by
    rcases hw with ⟨he, -⟩ | ⟨-, hw⟩
    · exact absurd he hne
    · exact hw.settled
  rcases result with code | ⟨⟩
  · by_cases hpending : code = errorIoPending
    · subst hpending
      -- the operation is in flight and has the number that the wait is given
      apply Triple.weaken (R := fun w => o = first ∧ Count (first+1) w) _ _ (fun _ _ hw => hw)
      · constructor
        rintro w r w' ⟨rfl, hw⟩ hrun
        have hwait : Triple (pipeSystem lib) (Count (o+1))
            (waitForMultipleObjects o interruptible (durationToWaitMs timeout)) (AfterWait o) :=
          waitForMultipleObjects_settled o interruptible _
        have hrest := Triple.bind _ hwait fun answer =>
          server.afterConnectWait_settled o answer hcancel
        exact hrest.sound w r w' hw hrun
      · rintro w (⟨-, ho, hw⟩ | ⟨hne, -⟩)
        · exact ⟨ho, hw⟩
        · exact absurd rfl hne
    · apply Triple.weaken _ (hnone fun he => hpending (Except.error.inj he)) (fun _ _ hw => hw)
      dsimp only
      split_ifs with hother hconnected
      · exact done_settled first _
      · exact server.validateConnectedClient_settled first
      · exact absurd ⟨hpending, hconnected⟩ hother
  · apply Triple.weaken _ (hnone (by simp)) (fun _ _ hw => hw)
    exact server.validateConnectedClient_settled first

theorem NamedPipeServer.connectWithTimeout_settled (first : ℕ) (timeout : Duration)
    (hcancel : lib.cancelIsAsync = false) :
    Triple (pipeSystem lib) (Count first) (server.connectWithTimeout timeout)
      fun _ => Settled first := by
  apply Triple.bind _ (createEvent_count first)
  rintro (code | ⟨⟩)
  · exact done_count first _
  · exact server.connectWithWaitTimeout_settled first false timeout hcancel

theorem connectNamedPipeBlocking_settled (hearly : lib.blockingReturnsEarly = false) :
    Triple (pipeSystem lib) (Count first) connectNamedPipeBlocking fun _ => Settled first := by
  apply Triple.bind (AfterListen first)
  · exact Triple.request (stable_count first) (stable_afterListen first)
      fun w answer w' hw hstep => listenStep_count hw hstep
  rintro ⟨code | ⟨⟩, o⟩
  · by_cases hpending : code = errorIoPending
    · subst hpending
      apply Triple.weaken (R := fun w => o = first ∧ Count (first+1) w) _ _ (fun _ _ hw => hw)
      · apply Triple.request ((stable_const _).and (stable_count _))
          (fun _ => stable_settled first)
        rintro w answer w' ⟨rfl, hw⟩ ⟨rfl, ⟨op, hop, hdone⟩ | ⟨he, -⟩⟩
        · apply Count.settled_of_last hw
          intro op' hop'
          rw [hop] at hop'
          rw [← Option.some.inj hop', Operation.Pending]
          rcases hdone with ⟨hs, -⟩ | ⟨code, hs, -⟩
          · rw [hs]
            exact some_ne_none _
          · rw [hs]
            exact some_ne_none _
        · cases hearly.symm.trans he
      · rintro w (⟨-, ho, hw⟩ | ⟨hne, -⟩)
        · exact ⟨ho, hw⟩
        · exact absurd rfl hne
    · apply Triple.weaken (R := Count first) _ _ (fun _ _ hw => hw)
      · dsimp only
        rw [if_neg hpending]
        exact done_count first _
      · rintro w (⟨he, -⟩ | ⟨-, hw⟩)
        · exact absurd (Except.error.inj he) hpending
        · exact hw
  · apply Triple.weaken (R := Count first) (done_count first _) _ (fun _ _ hw => hw)
    rintro w (⟨he, -⟩ | ⟨-, hw⟩)
    · contradiction
    · exact hw

theorem NamedPipeServer.connect_settled (first : ℕ) (hearly : lib.blockingReturnsEarly = false) :
    Triple (pipeSystem lib) (Count first) server.connect fun _ => Settled first := by
  apply Triple.bind _ (connectNamedPipeBlocking_settled first hearly)
  rintro (code | ⟨⟩)
  · dsimp only
    split_ifs
    · exact done_settled first _
    · exact server.validateConnectedClient_settled first
  · exact server.validateConnectedClient_settled first

theorem hresult_of_win32Code (err : WinError) (code : UInt32) (h : win32Code err = some code) :
    err.hresult = 0x80070000 ||| code := by
  unfold win32Code at h
  split_ifs at h with hhead
  have hlow : err.hresult &&& 0xFFFF = code := Option.some.inj h
  calc
    err.hresult = err.hresult &&& (0xFFFF0000 ||| 0xFFFF) := by
      rw [show (0xFFFF0000 ||| 0xFFFF : UInt32) = -1 by decide, UInt32.and_neg_one]
    _ = err.hresult &&& 0xFFFF0000 ||| err.hresult &&& 0xFFFF :=
      UInt32.toBitVec_inj.mp BitVec.and_or_distrib_left
    _ = 0x80070000 ||| code := by rw [hhead, hlow]

theorem win32Code_eq_iff (err : WinError) (code : UInt32)
    (hcode : win32Code (.fromWin32 code) = some code) :
    win32Code err = some code ↔ err = .fromWin32 code := by
  constructor
  · intro h
    have he := hresult_of_win32Code err code h
    rw [← hresult_of_win32Code _ code hcode] at he
    cases err
    exact congrArg WinError.mk he
  · rintro rfl
    exact hcode

def StartFails (answer : Started WinError) : Prop :=
  ∃ err, answer.result = .error err ∧ win32Code err ≠ some errorIoPending ∧
    win32Code err ≠ some errorMoreData

variable {answer : Started WinError}

theorem not_startFails_of_code {code : UInt32} (hr : answer.result = .error (.fromWin32 code))
    (hcode : code = errorIoPending ∨ code = errorMoreData) : ¬ StartFails answer := by
  rintro ⟨err, he, hpending, hmore⟩
  rw [hr] at he
  rw [← Except.error.inj he] at hpending hmore
  rcases hcode with rfl | rfl
  · exact hpending (by decide)
  · exact hmore (by decide)

theorem not_startFails_of_ok (hr : answer.result = .ok ()) : ¬ StartFails answer := by
  rintro ⟨err, he, -⟩
  cases hr.symm.trans he

theorem IoStep.cases {kind : IoKind} (h : IoStep kind w answer w') :
    StartFails answer ∧ w' = w ∨
      ¬ StartFails answer ∧ answer.overlapped = w.operations.length ∧
        w'.operations.length = w.operations.length+1 := by
  rcases h with ⟨ho, hr, rfl⟩ | ⟨ho, hdone⟩ | ⟨rfl, err, hr, hpending, hmore⟩
  · exact Or.inr ⟨not_startFails_of_code hr (Or.inl rfl), ho, by simp [PipeWorld.start]⟩
  · right
    cases kind with
    | connect => contradiction
    | read length =>
      obtain ⟨n, -, ⟨hr, rfl⟩ | ⟨hr, rfl⟩⟩ := hdone
      · exact ⟨not_startFails_of_ok hr, ho, by simp [PipeWorld.start, PipeWorld.completeRead]⟩
      · exact ⟨not_startFails_of_code hr (Or.inr rfl), ho,
          by simp [PipeWorld.start, PipeWorld.completeRead]⟩
    | write data =>
      obtain ⟨hr, rfl⟩ := hdone
      exact ⟨not_startFails_of_ok hr, ho,
        by simp [PipeWorld.start, PipeWorld.transfer, PipeWorld.update]⟩
  · left
    refine ⟨⟨err, hr, ?_, ?_⟩, rfl⟩
    · exact fun hc => hpending ((win32Code_eq_iff err _ (by decide)).mp hc)
    · exact fun hc => hmore ((win32Code_eq_iff err _ (by decide)).mp hc)

def AfterStart (first : ℕ) (answer : Started WinError) (w : PipeWorld) : Prop :=
  StartFails answer ∧ Count first w ∨
    ¬ StartFails answer ∧ answer.overlapped = first ∧ Count (first+1) w

theorem stable_afterStart (answer : Started WinError) :
    Stable (pipeSystem lib) (AfterStart first answer) := by
  rintro w w' hmove (⟨hr, hw⟩ | ⟨hr, ho, hw⟩)
  · exact Or.inl ⟨hr, stable_count _ _ _ hmove hw⟩
  · exact Or.inr ⟨hr, ho, stable_count _ _ _ hmove hw⟩

theorem IoStep.afterStart {kind : IoKind} {first : ℕ} (hw : Count first w)
    (h : IoStep kind w answer w') : AfterStart first answer w' := by
  rcases h.cases with ⟨hfails, rfl⟩ | ⟨hstarts, ho, hlen⟩
  · exact Or.inl ⟨hfails, hw⟩
  · exact Or.inr ⟨hstarts, ho.trans hw, by rw [Count, hlen, hw]⟩

theorem readFile_afterStart (length : ℕ) :
    Triple (pipeSystem lib) (Count first) (readFile length) (AfterStart first) :=
  Triple.request (stable_count first) (stable_afterStart first)
    fun _ _ _ hw hstep => IoStep.afterStart hw hstep

theorem writeFile_afterStart (data : Bytes) :
    Triple (pipeSystem lib) (Count first) (writeFile data) (AfterStart first) :=
  Triple.request (stable_count first) (stable_afterStart first)
    fun _ _ _ hw hstep => IoStep.afterStart hw hstep

def AfterIoWait (lib : Liberties) (first : ℕ) (answer : UInt32) (w : PipeWorld) : Prop :=
  Settled first w ∨ Count (first+1) w ∧ (answer = waitTimeout ∨ lib.waitsFail = true)

theorem waitForSingleObject_afterIoWait (timeoutMs : UInt32) :
    Triple (pipeSystem lib) (Count (first+1)) (waitForSingleObject first timeoutMs)
      fun answer w => AfterIoWait lib first answer w ∧ Count (first+1) w := by
  apply Triple.request (stable_count _)
  · rintro answer w w' hmove ⟨hw | ⟨hw, ha⟩, hcount⟩
    · exact ⟨Or.inl (stable_settled _ _ _ hmove hw), stable_count _ _ _ hmove hcount⟩
    · exact ⟨Or.inr ⟨stable_count _ _ _ hmove hw, ha⟩, stable_count _ _ _ hmove hcount⟩
  · rintro w answer w' hw ⟨rfl, ⟨op, hop, ⟨hdone, -⟩ | ⟨-, -, ha⟩⟩ | ⟨hfails, -⟩⟩
    · refine ⟨Or.inl (Count.settled_of_last hw ?_), hw⟩
      intro op' hop'
      rw [hop] at hop'
      exact Option.some.inj hop' ▸ hdone
    · exact ⟨Or.inr ⟨hw, Or.inl ha⟩, hw⟩
    · exact ⟨Or.inr ⟨hw, Or.inr hfails⟩, hw⟩

theorem getOverlappedResult_waits (hwait : lib.resultWaitFails = false) :
    Triple (pipeSystem lib) (Count (first+1)) (getOverlappedResult first true)
      fun _ => Settled first := by
  apply Triple.request (stable_count _) (fun _ => stable_settled first)
  rintro w answer w' hw ⟨rfl, op, hop, ⟨status, hs, -⟩ | ⟨-, -, hno | hno⟩⟩
  · apply Count.settled_of_last hw
    intro op' hop'
    rw [hop] at hop'
    rw [← Option.some.inj hop', Operation.Pending, hs]
    exact some_ne_none _
  · contradiction
  · cases hwait.symm.trans hno

theorem NamedPipeServer.awaitIo_settled (operation : Text) (first : ℕ)
    (hcancel : lib.cancelIsAsync = false)
    (hwait : ¬ (lib.waitsFail = true ∧ lib.resultWaitFails = true)) :
    Triple (pipeSystem lib) (Count (first+1)) (server.awaitIo operation first)
      fun _ => Settled first := by
  apply Triple.bind _ (waitForSingleObject_afterIoWait first _)
  intro waited
  by_cases htime : waited = waitTimeout
  · rw [if_pos htime]
    apply Triple.weaken (R := Count (first+1)) _ (fun _ hw => hw.2) (fun _ _ hw => hw)
    apply Triple.bind _ (cancelIoEx_settled first hcancel)
    intro _
    exact Triple.bind _ (getOverlappedResult_settled first first true)
      fun _ => done_settled first _
  · rw [if_neg htime]
    apply Triple.bind (fun _ => Settled first) _ (fun _ => done_settled first _)
    constructor
    rintro w answer w' ⟨hw | ⟨hw, ha⟩, -⟩ hrun
    · exact (getOverlappedResult_settled first first true).sound w answer w' hw hrun
    · -- the wait has failed, so `GetOverlappedResult` does not
      have hfails : lib.waitsFail = true := ha.resolve_left htime
      have hresult : lib.resultWaitFails = false :=
        Bool.eq_false_iff.mpr fun hr => hwait ⟨hfails, hr⟩
      exact (getOverlappedResult_waits first hresult).sound w answer w' hw hrun

theorem NamedPipeServer.overlappedIo_settled (operation : Text)
    (start : PipeProgram (Started WinError)) (first : ℕ)
    (hstart : Triple (pipeSystem lib) (Count first) start (AfterStart first))
    (hcancel : lib.cancelIsAsync = false)
    (hwait : ¬ (lib.waitsFail = true ∧ lib.resultWaitFails = true)) :
    Triple (pipeSystem lib) (Count first) (server.overlappedIo operation start)
      fun _ => Settled first := by
  apply Triple.bind _ (resetEvent_count first)
  rintro (code | ⟨⟩)
  · exact done_count first _
  apply Triple.bind _ hstart
  rintro ⟨result, o⟩
  have hawait (hstarts : ¬ StartFails ⟨result, o⟩) :
      Triple (pipeSystem lib) (AfterStart first ⟨result, o⟩) (server.awaitIo operation o)
        fun _ => Settled first := by
    constructor
    rintro w r w' (⟨hfails, -⟩ | ⟨-, ho, hw⟩) hrun
    · exact absurd hfails hstarts
    · have ho' : o = first := ho
      subst ho'
      exact (server.awaitIo_settled operation o hcancel hwait).sound w r w' hw hrun
  rcases result with err | ⟨⟩
  · dsimp only
    split_ifs with hcode
    · apply Triple.weaken (R := Count first) (done_count first _) _ (fun _ _ hw => hw)
      rintro w (⟨-, hw⟩ | ⟨hstarts, -⟩)
      · exact hw
      · exact absurd ⟨err, rfl, hcode⟩ hstarts
    · apply hawait
      rintro ⟨err', he, hne⟩
      exact hcode (Except.error.inj he ▸ hne)
  · exact hawait (not_startFails_of_ok rfl)

def Settles {α : Type} (lib : Liberties) (p : PipeProgram α) : Prop :=
  ∀ w r w', Runs (pipeSystem lib) p w r w' → Settled w.operations.length w'

theorem settles_of_triple {α : Type} {p : PipeProgram α}
    (h : ∀ first, Triple (pipeSystem lib) (Count first) p fun _ => Settled first) :
    Settles lib p :=
  fun w r w' hrun => (h w.operations.length).sound w r w' rfl hrun

structure CallsSettle (lib : Liberties) : Prop where
  connect : ∀ server : NamedPipeServer, Settles lib server.connect
  connectWithTimeout : ∀ (server : NamedPipeServer) (timeout : Duration),
    Settles lib (server.connectWithTimeout timeout)
  connectWithWait : ∀ server : NamedPipeServer, Settles lib server.connectWithWait
  connectWithWaitTimeout : ∀ (server : NamedPipeServer) (timeout : Duration),
    Settles lib (server.connectWithWaitTimeout true timeout)
  read : ∀ (server : NamedPipeServer) (length : ℕ), Settles lib (server.read length)
  write : ∀ (server : NamedPipeServer) (data : Bytes), Settles lib (server.write data)

theorem callsSettle (hcancel : lib.cancelIsAsync = false)
    (hearly : lib.blockingReturnsEarly = false)
    (hwait : ¬ (lib.waitsFail = true ∧ lib.resultWaitFails = true)) : CallsSettle lib where
  connect server := settles_of_triple fun first => server.connect_settled first hearly
  connectWithTimeout server timeout := settles_of_triple fun first =>
    server.connectWithTimeout_settled first timeout hcancel
  connectWithWait server := settles_of_triple fun first =>
    server.connectWithWaitTimeout_settled first true .max hcancel
  connectWithWaitTimeout server timeout := settles_of_triple fun first =>
    server.connectWithWaitTimeout_settled first true timeout hcancel
  read server length := settles_of_triple fun first =>
    Triple.bind _ (server.overlappedIo_settled _ _ first (readFile_afterStart first length)
      hcancel hwait) fun _ => done_settled first _
  write server data := settles_of_triple fun first =>
    Triple.bind _ (server.overlappedIo_settled _ _ first (writeFile_afterStart first data)
      hcancel hwait) fun _ => done_settled first _

theorem connect_times_out_pending (timeout : Duration) (htime : durationToWaitMs timeout ≠ infinite)
    (hcancel : lib.cancelIsAsync = true) :
    ∃ w op, Runs (pipeSystem lib) (server.connectWithTimeout timeout) idlePipe
      (.error (.timeout server.pipeName "connect".toList)) w ∧
      w.operations[0]? = some op ∧ op.Pending := by
  let op : Operation := { kind := .connect, cancelRequested := true }
  let last : PipeWorld := { state := .listening, operations := [op], turnedAway := true }
  have hwait : pipeStep lib (.waitForMultipleObjects 0 false (durationToWaitMs timeout))
      idlePipe.listen waitTimeout { idlePipe.listen with turnedAway := true } :=
    Or.inl ⟨_, rfl, Or.inr ⟨rfl, rfl, Or.inr ⟨htime, rfl⟩⟩⟩
  have hasked : pipeStep lib (.cancelIoEx 0) { idlePipe.listen with turnedAway := true } () last :=
    ⟨_, rfl, Or.inr (Or.inr ⟨rfl, hcancel, rfl⟩)⟩
  refine ⟨last, op, ?_, rfl, rfl⟩
  exact server.connectWithTimeout_starts timeout (.call hwait (.call (x := ()) hasked (.done _ _)))

theorem blocking_connect_leaves_pending (pipeName : Text)
    (hearly : lib.blockingReturnsEarly = true) :
    ¬ Settles lib (NamedPipeServer.connect ⟨pipeName, [], none⟩) := by
  intro hsettles
  have hlisten : pipeStep lib .listen idlePipe ⟨.error errorIoPending, 0⟩ idlePipe.listen :=
    Or.inl ⟨rfl, rfl, rfl, Or.inl rfl⟩
  have hreturns : pipeStep lib (.awaitClient 0) idlePipe.listen (.ok ()) idlePipe.listen :=
    ⟨rfl, Or.inr ⟨hearly, rfl⟩⟩
  have hrun : Runs (pipeSystem lib) (NamedPipeServer.connect ⟨pipeName, [], none⟩) idlePipe
      (.ok ()) idlePipe.listen :=
    .call hlisten (.call hreturns (.done _ _))
  exact hsettles _ _ _ hrun 0 { kind := .connect } (Nat.le_refl 0) rfl rfl

theorem read_leaves_pending (hwaits : lib.waitsFail = true) (hresult : lib.resultWaitFails = true) :
    ¬ Settles lib (server.read 1) := by
  intro hsettles
  let op : Operation := { kind := .read 1 }
  have hreset : pipeStep lib .resetEvent quietPipe (.ok ()) quietPipe := ⟨rfl, Or.inl rfl⟩
  have hread : pipeStep lib (.readFile 1) quietPipe ⟨.error (.fromWin32 errorIoPending), 0⟩
      (quietPipe.start op) := Or.inl ⟨rfl, rfl, rfl⟩
  have hwait : pipeStep lib (.waitForSingleObject 0 server.ioTimeoutMs) (quietPipe.start op)
      waitFailed (quietPipe.start op) :=
    ⟨rfl, Or.inr ⟨hwaits, waitFailed_ne_object0, waitFailed_ne_timeout⟩⟩
  have hgiveUp : pipeStep lib (.getOverlappedResult 0 true) (quietPipe.start op)
      ⟨.error (.fromWin32 6), 0, []⟩ (quietPipe.start op) :=
    ⟨rfl, op, rfl, Or.inr ⟨rfl, ⟨6, rfl⟩, Or.inr hresult⟩⟩
  have hrun : Runs (pipeSystem lib) (server.read 1) quietPipe (.error (.os 6))
      (quietPipe.start op) :=
    .call hreset (.call hread (.call hwait (.call hgiveUp (.done _ _))))
  exact hsettles _ _ _ hrun 0 op (Nat.le_refl 0) rfl rfl

/-- No call of the server returns before its operation has ended exactly when `CancelIoEx` waits
for the cancelled operation, a blocking `ConnectNamedPipe` for its client, and
`GetOverlappedResult` where the wait before it has failed. -/
theorem pipe_calls_settle_iff (lib : Liberties) :
    CallsSettle lib ↔ lib.cancelIsAsync = false ∧ lib.blockingReturnsEarly = false ∧
      ¬ (lib.waitsFail = true ∧ lib.resultWaitFails = true) := by
  constructor
  · intro h
    refine ⟨?_, ?_, ?_⟩
    · apply Bool.eq_false_iff.mpr
      intro hcancel
      obtain ⟨w, op, hrun, hop, hpending⟩ :=
        connect_times_out_pending ⟨[], [], none⟩ ⟨0⟩ (by decide) hcancel
      exact h.connectWithTimeout _ _ _ _ _ hrun 0 op (Nat.le_refl 0) hop hpending
    · apply Bool.eq_false_iff.mpr
      intro hearly
      exact blocking_connect_leaves_pending [] hearly (h.connect _)
    · rintro ⟨hwaits, hresult⟩
      exact read_leaves_pending ⟨[], [], none⟩ hwaits hresult (h.read _ _)
  · rintro ⟨hcancel, hearly, hwait⟩
    exact callsSettle hcancel hearly hwait

/-- The connect has reported its timeout and dropped the `OVERLAPPED` and its event, and the
kernel still holds them. -/
theorem connect_timeout_leaves_operation_pending :
    ∃ w op, Runs (pipeSystem { Liberties.regular with cancelIsAsync := true })
      (NamedPipeServer.connectWithTimeout ⟨"\\\\.\\pipe\\agent".toList, [], none⟩ ⟨10^9⟩) idlePipe
      (.error (.timeout "\\\\.\\pipe\\agent".toList "connect".toList)) w ∧
      w.operations[0]? = some op ∧ op.Pending :=
  connect_times_out_pending _ _ (by decide) rfl

end WindowsErg.Pipes
