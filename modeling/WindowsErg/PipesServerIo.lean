import WindowsErg.PipesServerPending

/-! What becomes of the bytes that a client and the server write, over any number of reads and
writes with a time limit. -/
namespace WindowsErg.Pipes
open Option List TextScan ByteCodec CallProgram

variable {lib : Liberties}

def Conserved (w : PipeWorld) : Prop := w.sent = w.consumed ++ w.inbound

theorem conserved_completeRead {w : PipeWorld} (o n : ℕ) (status : IoStatus) (h : Conserved w) :
    Conserved (w.completeRead o n status) := by
  unfold Conserved PipeWorld.completeRead
  rw [append_assoc, take_append_drop]
  exact h

theorem stable_conserved : Stable (pipeSystem lib) Conserved := by
  intro w w' hmove hw
  cases hmove with
  | clientWrites client hstate bytes =>
    unfold Conserved at hw ⊢
    rw [hw, append_assoc]
  | readCompletes o n length op hop hpending hkind hn status hstatus =>
    exact conserved_completeRead o n status hw
  | clientConnects => exact hw
  | clientCloses => exact hw
  | writeTransfers => exact hw
  | writeCompletes => exact hw
  | ioFails => exact hw
  | connectFails => exact hw
  | cancels => exact hw

theorem listenStep_conserved {w w' : PipeWorld} {answer : Started UInt32}
    (h : ListenStep lib w answer w') (hw : Conserved w) : Conserved w' := by
  rcases h with ⟨-, -, rfl, -⟩ | ⟨-, ⟨client, rfl⟩, -⟩ | ⟨-, rfl, -⟩ | ⟨-, rfl, -⟩ | ⟨-, rfl, -⟩
  · exact hw
  · exact hw
  · exact hw
  · exact hw
  · exact hw

theorem ioStep_conserved {kind : IoKind} {w w' : PipeWorld} {answer : Started WinError}
    (h : IoStep kind w answer w') (hw : Conserved w) : Conserved w' := by
  rcases h with ⟨-, -, rfl⟩ | ⟨-, hdone⟩ | ⟨rfl, -⟩
  · exact hw
  · cases kind with
    | connect => contradiction
    | read length =>
      obtain ⟨n, -, ⟨-, rfl⟩ | ⟨-, rfl⟩⟩ := hdone
      · exact conserved_completeRead _ n _ hw
      · exact conserved_completeRead _ n _ hw
    | write data =>
      obtain ⟨-, rfl⟩ := hdone
      exact hw
  · exact hw

theorem pipeStep_conserved (c : PipeCall) (w : PipeWorld) (answer : c.Answer) (w' : PipeWorld)
    (hw : Conserved w) (h : pipeStep lib c w answer w') : Conserved w' := by
  cases c with
  | createEvent => exact h.1 ▸ hw
  | resetEvent => exact h.1 ▸ hw
  | connectNamedPipe => exact listenStep_conserved h hw
  | listen => exact listenStep_conserved h hw
  | awaitClient o => exact h.1 ▸ hw
  | readFile length => exact ioStep_conserved h hw
  | writeFile data => exact ioStep_conserved h hw
  | waitForSingleObject o timeoutMs => exact h.1 ▸ hw
  | waitForMultipleObjects o interruptible timeoutMs =>
    rcases h with ⟨op, -, ⟨-, -, rfl⟩ | ⟨-, rfl, -⟩⟩ | ⟨-, -, -, -, rfl⟩
    · exact hw
    · exact hw
    · exact hw
  | getOverlappedResult o wait => exact h.1 ▸ hw
  | cancelIoEx o =>
    rcases h with ⟨op, -, ⟨-, rfl⟩ | ⟨-, rfl⟩ | ⟨-, -, rfl⟩⟩
    · exact hw
    · exact hw
    · exact hw
  | disconnectNamedPipe =>
    rcases h with ⟨-, rfl⟩ | ⟨rfl, -⟩
    · exact hw
    · exact hw
  | getNamedPipeClientProcessId =>
    rcases h with ⟨rfl, -⟩ | ⟨rfl, -⟩
    · exact hw
    · exact hw
  | openProcess processId =>
    have he : w' = w := h
    rwa [he]
  | processPath processId =>
    cases answer with
    | none =>
      have he : w' = w := h
      rwa [he]
    | some path =>
      have he : w' = { w with paths := w.paths ++ [(processId, path)] } := h
      rw [he]
      exact hw
  | getLastError =>
    have he : w' = w := h
    rwa [he]

def Operation.taken (op : Operation) : Bytes :=
  match op.kind with
  | .read _ => op.moved
  | _ => []

def Operation.Inert (op : Operation) : Prop := op.kind = .connect ∨ ¬ op.Pending

def InertBut (busy : Option ℕ) (w : PipeWorld) : Prop :=
  ∀ i op, busy ≠ some i → w.operations[i]? = some op → op.Inert

theorem PipeMove.kind_eq {w w' : PipeWorld} (h : PipeMove lib w w') (i : ℕ) (op' : Operation)
    (hop' : w'.operations[i]? = some op') :
    ∃ op, w.operations[i]? = some op ∧ op'.kind = op.kind := by
  have hmodify (o : ℕ) (f : Operation → Operation)
      (hops : (w.operations.modify o f)[i]? = some op') (hf : ∀ op, (f op).kind = op.kind) :
      ∃ op, w.operations[i]? = some op ∧ op'.kind = op.kind := by
    rw [List.getElem?_modify] at hops
    obtain ⟨op, hop, rfl⟩ := map_eq_some_iff.mp hops
    refine ⟨op, hop, ?_⟩
    split_ifs
    · exact hf op
    · rfl
  cases h with
  | clientConnects client hstate hlate =>
    have hops : (w.operations.map (Operation.completeConnect .success))[i]? = some op' := hop'
    rw [List.getElem?_map] at hops
    obtain ⟨op, hop, rfl⟩ := map_eq_some_iff.mp hops
    refine ⟨op, hop, ?_⟩
    unfold Operation.completeConnect
    split_ifs
    · rfl
    · rfl
  | clientCloses => exact ⟨op', hop', rfl⟩
  | clientWrites => exact ⟨op', hop', rfl⟩
  | readCompletes o n => exact hmodify o _ hop' fun _ => rfl
  | writeTransfers o n => exact hmodify o _ hop' fun _ => rfl
  | writeCompletes o => exact hmodify o _ hop' fun _ => rfl
  | ioFails o => exact hmodify o _ hop' fun _ => rfl
  | connectFails o => exact hmodify o _ hop' fun _ => rfl
  | cancels o => exact hmodify o _ hop' fun _ => rfl

theorem stable_inertBut (busy : Option ℕ) : Stable (pipeSystem lib) (InertBut busy) := by
  intro w w' hmove hw i op' hi hop'
  obtain ⟨op, hop, hkind⟩ := PipeMove.kind_eq hmove i op' hop'
  rcases hw i op hi hop with hconnect | hdone
  · exact Or.inl (hkind.trans hconnect)
  · right
    rw [PipeMove.completed hmove i op hop hdone] at hop'
    exact Option.some.inj hop' ▸ hdone

def Idle (before : Bytes) (w : PipeWorld) : Prop := InertBut none w ∧ w.consumed = before

def InFlight (o : ℕ) (kind : IoKind) (before : Bytes) (w : PipeWorld) : Prop :=
  InertBut (some o) w ∧ ∃ op, w.operations[o]? = some op ∧ op.kind = kind ∧
    w.consumed = before ++ op.taken ∧
    ((op.Pending ∨ ∃ code, op.completion = some (.failed code)) → op.taken = [])

theorem PipeMove.consumed_cases {w w' : PipeWorld} (h : PipeMove lib w w') :
    w'.consumed = w.consumed ∨ ∃ (o : ℕ) (op : Operation) (length : ℕ),
      w.operations[o]? = some op ∧ op.Pending ∧ op.kind = .read length := by
  cases h with
  | readCompletes o n length op hop hpending hkind =>
    exact Or.inr ⟨o, op, length, hop, hpending, hkind⟩
  | clientConnects => exact Or.inl rfl
  | clientCloses => exact Or.inl rfl
  | clientWrites => exact Or.inl rfl
  | writeTransfers => exact Or.inl rfl
  | writeCompletes => exact Or.inl rfl
  | ioFails => exact Or.inl rfl
  | connectFails => exact Or.inl rfl
  | cancels => exact Or.inl rfl

theorem stable_idle (before : Bytes) : Stable (pipeSystem lib) (Idle before) := by
  rintro w w' hmove ⟨hinert, hw⟩
  refine ⟨stable_inertBut none w w' hmove hinert, ?_⟩
  rcases PipeMove.consumed_cases hmove with hsame | ⟨o, op, length, hop, hpending, hkind⟩
  · exact hsame.trans hw
  · exfalso
    rcases hinert o op (by simp) hop with hconnect | hdone
    · cases hkind.symm.trans hconnect
    · exact hdone hpending

theorem Operation.taken_eq_nil_of_write {op : Operation} {data : Bytes}
    (h : op.kind = .write data) : op.taken = [] := by
  rw [Operation.taken, h]

theorem Operation.completeConnect_of_kind {op : Operation} (status : IoStatus)
    (h : op.kind ≠ .connect) : op.completeConnect status = op := by
  rw [Operation.completeConnect, if_neg]
  exact fun hh => h hh.1

section InFlight
variable {kind : IoKind} (hio : kind ≠ .connect)
include hio

theorem stable_inFlight (o : ℕ) (before : Bytes) :
    Stable (pipeSystem lib) (InFlight o kind before) := by
  rintro w w' hmove ⟨hinert, op, hop, hkind, hconsumed, hnone⟩
  refine ⟨stable_inertBut _ w w' hmove hinert, ?_⟩
  -- a pending read or write is the one in flight
  have hbusy (i : ℕ) (other : Operation) (hi : w.operations[i]? = some other)
      (hpending : other.Pending) (hother : other.kind ≠ .connect) : i = o ∧ other = op := by
    have ho : i = o := by
      by_contra hne
      rcases hinert i other (by simpa using Ne.symm hne) hi with hc | hdone
      · exact hother hc
      · exact hdone hpending
    subst ho
    rw [hop] at hi
    exact ⟨rfl, (Option.some.inj hi).symm⟩
  -- the end of an operation moves nothing
  have hends (i : ℕ) (other : Operation) (status : IoStatus)
      (hi : w.operations[i]? = some other) (hpending : other.Pending) :
      ∃ op', (w.update i (·.complete status)).operations[o]? = some op' ∧ op'.kind = kind ∧
        w.consumed = before ++ op'.taken ∧
        ((op'.Pending ∨ ∃ code, op'.completion = some (.failed code)) → op'.taken = []) := by
    by_cases ho : i = o
    · subst ho
      cases hop.symm.trans hi
      refine ⟨op.complete status, ?_, hkind, hconsumed, fun _ => hnone (Or.inl hpending)⟩
      simp [PipeWorld.update, hop]
    · refine ⟨op, ?_, hkind, hconsumed, hnone⟩
      simp [PipeWorld.update, ho, hop]
  cases hmove with
  | clientConnects client hstate hlate =>
    refine ⟨op, ?_, hkind, hconsumed, hnone⟩
    simp [PipeWorld.connect, hop, Operation.completeConnect_of_kind _ (hkind ▸ hio)]
  | clientCloses client hstate => exact ⟨op, hop, hkind, hconsumed, hnone⟩
  | clientWrites client hstate bytes => exact ⟨op, hop, hkind, hconsumed, hnone⟩
  | readCompletes i n length other hi hpending hread hn status hstatus =>
    obtain ⟨rfl, rfl⟩ := hbusy i other hi hpending (by rw [hread]; exact IoKind.noConfusion)
    have hempty : other.taken = [] := hnone (Or.inl hpending)
    let after : Operation := { other with moved := w.inbound.take n, completion := some status }
    have htaken : after.taken = w.inbound.take n := by
      simp [Operation.taken, after, hread]
    refine ⟨after, ?_, hkind, ?_, ?_⟩
    · simp [PipeWorld.completeRead, hop, after]
    · rw [htaken]
      change w.consumed ++ w.inbound.take n = before ++ w.inbound.take n
      rw [hconsumed, hempty, append_nil]
    · rintro (hp | ⟨code, hfailed⟩)
      · contradiction
      · have hs : status = .failed code := Option.some.inj hfailed
        rw [hs] at hstatus
        rcases hstatus with hstatus | hstatus
        · contradiction
        · contradiction
  | writeTransfers i n data other hi hpending hwrite =>
    obtain ⟨rfl, rfl⟩ := hbusy i other hi hpending (by rw [hwrite]; exact IoKind.noConfusion)
    have hempty := Operation.taken_eq_nil_of_write hwrite
    let moved := other.moved ++ (data.drop other.moved.length).take n
    have hempty' : Operation.taken { other with moved } = [] :=
      Operation.taken_eq_nil_of_write hwrite
    refine ⟨{ other with moved }, ?_, hkind, ?_, fun _ => hempty'⟩
    · simp [PipeWorld.transfer, hop, moved]
    · rw [hempty']
      rw [hempty] at hconsumed
      exact hconsumed
  | writeCompletes i other hi hpending hwrite => exact hends i other _ hi hpending
  | ioFails i code other hi hpending hio => exact hends i other _ hi hpending
  | connectFails i code other hi hpending hconnect hfails => exact hends i other _ hi hpending
  | cancels i other hi hpending hrequested => exact hends i other _ hi hpending

omit hio in
theorem resetEvent_idle (before : Bytes) :
    Triple (pipeSystem lib) (Idle before) resetEvent fun _ => Idle before := by
  apply Triple.request (stable_idle before) fun _ => stable_idle before
  rintro w answer w' hw ⟨rfl, -⟩
  exact hw

def AfterIoStart (kind : IoKind) (before : Bytes) (answer : Started WinError) (w : PipeWorld) :
    Prop :=
  StartFails answer ∧ Idle before w ∨
    ¬ StartFails answer ∧ InFlight answer.overlapped kind before w

theorem stable_afterIoStart (before : Bytes) (answer : Started WinError) :
    Stable (pipeSystem lib) (AfterIoStart kind before answer) := by
  rintro w w' hmove (⟨hr, hw⟩ | ⟨hr, hw⟩)
  · exact Or.inl ⟨hr, stable_idle _ _ _ hmove hw⟩
  · exact Or.inr ⟨hr, stable_inFlight hio _ _ _ _ hmove hw⟩

omit hio in
theorem Idle.inFlight {before : Bytes} {w w' : PipeWorld} (h : Idle before w) (op : Operation)
    (hops : w'.operations = w.operations ++ [op]) (hconsumed : w'.consumed = before ++ op.taken)
    (hnone : (op.Pending ∨ ∃ code, op.completion = some (.failed code)) → op.taken = []) :
    InFlight w.operations.length op.kind before w' := by
  refine ⟨?_, op, ?_, rfl, hconsumed, hnone⟩
  · intro i other hi hother
    have hne : i ≠ w.operations.length := by simpa using Ne.symm hi
    have hlt : i < w.operations.length := by
      have hbound := (List.getElem?_eq_some_iff.mp hother).1
      rw [hops, length_append, length_singleton] at hbound
      omega
    rw [hops, List.getElem?_append_left hlt] at hother
    exact h.1 i other (by simp) hother
  · rw [hops]
    simp

omit hio in
theorem modify_append_singleton {α : Type} (l : List α) (a : α) (f : α → α) :
    (l ++ [a]).modify l.length f = l ++ [f a] := by
  induction l with
  | nil => rfl
  | cons b l ih => simp [ih]

omit hio in
theorem IoStep.afterIoStart {before : Bytes} {w w' : PipeWorld} {answer : Started WinError}
    (hw : Idle before w) (h : IoStep kind w answer w') : AfterIoStart kind before answer w' := by
  rcases h.cases with ⟨hfails, rfl⟩ | ⟨hstarts, ho, -⟩
  · exact Or.inl ⟨hfails, hw⟩
  right
  refine ⟨hstarts, ?_⟩
  rw [ho]
  rcases h with ⟨-, -, rfl⟩ | ⟨-, hdone⟩ | ⟨-, err, hr, hne, hmore⟩
  · have hpending : ({ kind } : Operation).taken = [] := by
      cases kind <;> rfl
    apply hw.inFlight { kind } rfl
    · rw [hpending, append_nil]
      exact hw.2
    · exact fun _ => hpending
  · cases kind with
    | connect => contradiction
    | read length =>
      -- the read has taken its bytes at once
      have hread (n : ℕ) (status : IoStatus) (hstatus : status = .success ∨ status = .moreData) :
          InFlight w.operations.length (.read length) before
            ((w.start { kind := .read length }).completeRead w.operations.length n status) := by
        apply hw.inFlight ⟨.read length, w.inbound.take n, false, some status⟩
        · exact modify_append_singleton _ _ _
        · change w.consumed ++ w.inbound.take n = before ++ w.inbound.take n
          rw [hw.2]
        · rintro (hp | ⟨code, hfailed⟩)
          · contradiction
          · have hs : status = .failed code := Option.some.inj hfailed
            rw [hs] at hstatus
            rcases hstatus with hstatus | hstatus
            · contradiction
            · contradiction
      obtain ⟨n, -, ⟨-, rfl⟩ | ⟨-, rfl⟩⟩ := hdone
      · exact hread n _ (Or.inl rfl)
      · exact hread n _ (Or.inr rfl)
    | write data =>
      obtain ⟨-, rfl⟩ := hdone
      apply hw.inFlight ⟨.write data, data, false, some .success⟩
      · simp only [PipeWorld.update, PipeWorld.transfer, PipeWorld.start]
        rw [modify_append_singleton, modify_append_singleton]
        rfl
      · change w.consumed = before ++ []
        rw [append_nil]
        exact hw.2
      · exact fun _ => rfl
  · exact absurd ⟨err, hr, fun hc => hne ((win32Code_eq_iff err _ (by decide)).mp hc),
      fun hc => hmore ((win32Code_eq_iff err _ (by decide)).mp hc)⟩ hstarts

theorem waitForSingleObject_inFlight (o : ℕ) (before : Bytes) (timeoutMs : UInt32) :
    Triple (pipeSystem lib) (InFlight o kind before) (waitForSingleObject o timeoutMs)
      fun _ => InFlight o kind before := by
  apply Triple.request (stable_inFlight hio o before) fun _ => stable_inFlight hio o before
  rintro w answer w' hw ⟨rfl, -⟩
  exact hw

theorem cancelIoEx_inFlight (o : ℕ) (before : Bytes) :
    Triple (pipeSystem lib) (InFlight o kind before) (cancelIoEx o)
      fun _ => InFlight o kind before := by
  apply Triple.request (stable_inFlight hio o before) fun _ => stable_inFlight hio o before
  rintro w answer w' ⟨hinert, op, hop, hkind, hconsumed, hnone⟩ ⟨op', hop', hcases⟩
  rw [hop] at hop'
  cases hop'
  -- cancelling changes the operation itself, and not what it has taken
  have hchange (f : Operation → Operation) (hpending : op.Pending) (hf : (f op).kind = op.kind)
      (htaken : (f op).taken = op.taken) : InFlight o kind before (w.update o f) := by
    refine ⟨?_, f op, ?_, hf.trans hkind, ?_, ?_⟩
    · intro i other hi hother
      have hne : o ≠ i := by simpa using hi
      simp only [PipeWorld.update, List.getElem?_modify, if_neg hne] at hother
      exact hinert i other hi (by simpa using hother)
    · simp [PipeWorld.update, hop]
    · rw [htaken]
      exact hconsumed
    · rw [htaken]
      exact fun _ => hnone (Or.inl hpending)
  rcases hcases with ⟨-, rfl⟩ | ⟨hpending, rfl⟩ | ⟨hpending, -, rfl⟩
  · exact ⟨hinert, op, hop, hkind, hconsumed, hnone⟩
  · exact hchange _ hpending rfl rfl
  · exact hchange _ hpending rfl rfl

def Ended (kind : IoKind) (before : Bytes) (answer : OverlappedResult) (w : PipeWorld) : Prop :=
  ∃ (op : Operation) (status : IoStatus), op.kind = kind ∧ Idle (before ++ op.taken) w ∧
    answer = op.overlappedResult status ∧ (∀ code, status = .failed code → op.taken = [])

omit hio in
theorem stable_ended (before : Bytes) (answer : OverlappedResult) :
    Stable (pipeSystem lib) (Ended kind before answer) := by
  rintro w w' hmove ⟨op, status, hkind, hw, hanswer, hfailed⟩
  exact ⟨op, status, hkind, stable_idle _ _ _ hmove hw, hanswer, hfailed⟩

theorem getOverlappedResult_ended (o : ℕ) (before : Bytes) (hwait : lib.resultWaitFails = false) :
    Triple (pipeSystem lib) (InFlight o kind before) (getOverlappedResult o true)
      (Ended kind before) := by
  apply Triple.request (stable_inFlight hio o before)
  · exact fun answer => stable_ended before answer
  rintro w answer w' ⟨hinert, op, hop, hkind, hconsumed, hnone⟩ ⟨rfl, op', hop', hcases⟩
  rw [hop] at hop'
  cases hop'
  rcases hcases with ⟨status, hstatus, hanswer⟩ | ⟨-, -, hno | hno⟩
  · refine ⟨op, status, hkind, ⟨?_, hconsumed⟩, hanswer, ?_⟩
    · intro i other _ hother
      by_cases ho : o = i
      · subst ho
        cases hop.symm.trans hother
        right
        rw [Operation.Pending, hstatus]
        exact some_ne_none _
      · exact hinert i other (by simpa using ho) hother
    · rintro code rfl
      exact hnone (Or.inr ⟨code, hstatus⟩)
  · contradiction
  · cases hwait.symm.trans hno

/-- However a call comes to its end: it started nothing, or its operation has ended, and it
reports a time-out or the operation's result. -/
def IoEnds (kind : IoKind) (before : Bytes) (outcome : Except IoError NamedPipeServer.OverlappedOutcome)
    (w : PipeWorld) : Prop :=
  Idle before w ∧ ((∃ e, outcome = .error e) ∨ outcome = .ok .endOfStream) ∨
    ∃ answer, Ended kind before answer w ∧
      ((∃ message, outcome = .error (.timedOut message)) ∨
        outcome = NamedPipeServer.outcomeOf answer)

omit hio in
theorem stable_ioEnds (before : Bytes) (outcome : Except IoError NamedPipeServer.OverlappedOutcome) :
    Stable (pipeSystem lib) (IoEnds kind before outcome) := by
  rintro w w' hmove (⟨hw, ho⟩ | ⟨answer, hw, ho⟩)
  · exact Or.inl ⟨stable_idle _ _ _ hmove hw, ho⟩
  · exact Or.inr ⟨answer, stable_ended _ _ _ _ hmove hw, ho⟩

theorem NamedPipeServer.awaitIo_ends (server : NamedPipeServer) (operation : Text) (o : ℕ)
    (before : Bytes) (hwait : lib.resultWaitFails = false) :
    Triple (pipeSystem lib) (InFlight o kind before) (server.awaitIo operation o)
      (IoEnds kind before) := by
  apply Triple.bind _ (waitForSingleObject_inFlight hio o before _)
  intro waited
  have hresult := getOverlappedResult_ended hio o before hwait
  split_ifs
  · apply Triple.bind _ (cancelIoEx_inFlight hio o before)
    intro _
    apply Triple.bind _ hresult
    intro answer
    exact Triple.done (stable_ended before answer) fun _ hw =>
      Or.inr ⟨answer, hw, Or.inl ⟨_, rfl⟩⟩
  · apply Triple.bind _ hresult
    intro answer
    exact Triple.done (stable_ended before answer) fun _ hw => Or.inr ⟨answer, hw, Or.inr rfl⟩

theorem NamedPipeServer.overlappedIo_ends (server : NamedPipeServer) (operation : Text)
    (start : PipeProgram (Started WinError)) (before : Bytes)
    (hstart : Triple (pipeSystem lib) (Idle before) start (AfterIoStart kind before))
    (hwait : lib.resultWaitFails = false) :
    Triple (pipeSystem lib) (Idle before) (server.overlappedIo operation start)
      (IoEnds kind before) := by
  apply Triple.bind _ (resetEvent_idle before)
  rintro (code | ⟨⟩)
  · exact Triple.done (stable_idle before) fun _ hw => Or.inl ⟨hw, Or.inl ⟨_, rfl⟩⟩
  apply Triple.bind _ hstart
  rintro ⟨result, o⟩
  have hawait (hstarts : ¬ StartFails ⟨result, o⟩) :
      Triple (pipeSystem lib) (AfterIoStart kind before ⟨result, o⟩) (server.awaitIo operation o)
        (IoEnds kind before) := by
    apply Triple.weaken (server.awaitIo_ends hio operation o before hwait) _ fun _ _ h => h
    rintro w (⟨hfails, -⟩ | ⟨-, hw⟩)
    · exact absurd hfails hstarts
    · exact hw
  rcases result with err | ⟨⟩
  · dsimp only
    split_ifs with hcode
    · apply Triple.weaken (R := Idle before) _ _ fun _ _ h => h
      · apply Triple.done (stable_idle before)
        intro w hw
        refine Or.inl ⟨hw, ?_⟩
        unfold NamedPipeServer.startFailure
        split
        · exact Or.inr rfl
        · exact Or.inl ⟨_, rfl⟩
        · exact Or.inl ⟨_, rfl⟩
      · rintro w (⟨-, hw⟩ | ⟨hstarts, -⟩)
        · exact hw
        · exact absurd ⟨err, rfl, hcode⟩ hstarts
    · apply hawait
      rintro ⟨err', he, hne⟩
      exact hcode (Except.error.inj he ▸ hne)
  · exact hawait (not_startFails_of_ok rfl)

end InFlight

def ReadAccounts (result : Except IoError Bytes) (taken : Bytes) : Prop :=
  (∀ bytes, result = .ok bytes → bytes = taken) ∧
    ∀ e, result = .error e → e.isTimedOut = false → taken = []

theorem readAccounts_error_nil (e : IoError) : ReadAccounts (.error e) [] :=
  ⟨fun _ h => by contradiction, fun _ _ _ => rfl⟩

theorem readAccounts_ok (taken : Bytes) : ReadAccounts (.ok taken) taken :=
  ⟨fun _ h => (Except.ok.inj h).symm, fun _ h => by contradiction⟩

theorem classifyPipeReadError_moreData :
    classifyPipeReadError (.fromWin32 errorMoreData) = .moreData := by decide

theorem readAccounts_outcomeOf {op : Operation} {status : IoStatus} {length : ℕ}
    (hkind : op.kind = .read length) (hfailed : ∀ code, status = .failed code → op.taken = []) :
    ReadAccounts (NamedPipeServer.readResult
      (NamedPipeServer.outcomeOf (op.overlappedResult status))) op.taken := by
  have htaken : op.taken = op.moved := by rw [Operation.taken, hkind]
  have hall : op.moved.take op.moved.length = op.taken := by rw [take_length, htaken]
  cases status with
  | success =>
    change ReadAccounts (.ok (op.moved.take op.moved.length)) op.taken
    rw [hall]
    exact readAccounts_ok _
  | moreData =>
    have hread : NamedPipeServer.readResult (NamedPipeServer.outcomeOf
        (op.overlappedResult .moreData)) = .ok (op.moved.take op.moved.length) := by
      simp only [NamedPipeServer.outcomeOf, Operation.overlappedResult,
        classifyPipeReadError_moreData, NamedPipeServer.readResult]
    rw [hread, hall]
    exact readAccounts_ok _
  | failed code =>
    have hnone : op.taken = [] := hfailed code rfl
    rw [hnone]
    simp only [NamedPipeServer.outcomeOf, Operation.overlappedResult]
    split
    · change ReadAccounts (.ok (op.moved.take op.moved.length)) []
      rw [hall, hnone]
      exact readAccounts_ok []
    · exact readAccounts_ok []
    · exact readAccounts_error_nil _

theorem NamedPipeServer.read_accounts (server : NamedPipeServer) (length : ℕ) (before : Bytes)
    (hwait : lib.resultWaitFails = false) :
    Triple (pipeSystem lib) (Idle before) (server.read length)
      fun result w => ∃ taken, Idle (before ++ taken) w ∧ ReadAccounts result taken := by
  have hio : IoKind.read length ≠ .connect := IoKind.noConfusion
  have hstart : Triple (pipeSystem lib) (Idle before) (readFile length)
      (AfterIoStart (.read length) before) := by
    apply Triple.request (stable_idle before)
    · exact fun answer => stable_afterIoStart hio before answer
    · exact fun w answer w' hw hstep => IoStep.afterIoStart hw hstep
  apply Triple.bind _ (server.overlappedIo_ends hio _ _ before hstart hwait)
  intro outcome
  apply Triple.done (stable_ioEnds before outcome)
  rintro w (⟨hw, ho⟩ | ⟨answer, ⟨op, status, hkind, hw, rfl, hfailed⟩, ho⟩)
  · refine ⟨[], by rwa [append_nil], ?_⟩
    rcases ho with ⟨e, rfl⟩ | rfl
    · exact readAccounts_error_nil e
    · exact readAccounts_ok []
  · refine ⟨op.taken, hw, ?_⟩
    rcases ho with ⟨message, rfl⟩ | rfl
    · refine ⟨fun _ h => by contradiction, fun e he hnot => ?_⟩
      rw [← Except.error.inj he] at hnot
      contradiction
    · exact readAccounts_outcomeOf hkind hfailed

theorem NamedPipeServer.write_idle (server : NamedPipeServer) (data before : Bytes)
    (hwait : lib.resultWaitFails = false) :
    Triple (pipeSystem lib) (Idle before) (server.write data) fun _ => Idle before := by
  have hio : IoKind.write data ≠ .connect := IoKind.noConfusion
  have hstart : Triple (pipeSystem lib) (Idle before) (writeFile data)
      (AfterIoStart (.write data) before) := by
    apply Triple.request (stable_idle before)
    · exact fun answer => stable_afterIoStart hio before answer
    · exact fun w answer w' hw hstep => IoStep.afterIoStart hw hstep
  apply Triple.bind _ (server.overlappedIo_ends hio _ _ before hstart hwait)
  intro outcome
  apply Triple.done (stable_ioEnds before outcome)
  rintro w (⟨hw, -⟩ | ⟨answer, ⟨op, status, hkind, hw, -⟩, -⟩)
  · exact hw
  · rwa [Operation.taken_eq_nil_of_write hkind, append_nil] at hw

inductive IoCall where
  | read (result : Except IoError Bytes) (taken : Bytes)
  | write (data : Bytes) (result : Except IoError ℕ) (delivered : Bytes)

def IoCall.timedOut : IoCall → Bool
  | .read (.error e) _ => e.isTimedOut
  | .write _ (.error e) _ => e.isTimedOut
  | _ => false

def IoCall.moved : IoCall → Bytes
  | .read _ taken => taken
  | .write _ _ delivered => delivered

def IoCall.returned : IoCall → Bytes
  | .read (.ok bytes) _ => bytes
  | _ => []

inductive Exchange (lib : Liberties) (server : NamedPipeServer) :
    PipeWorld → List IoCall → PipeWorld → Prop
  | nil (w : PipeWorld) : Exchange lib server w [] w
  | read {w w' w'' : PipeWorld} {length : ℕ} {result : Except IoError Bytes}
      {calls : List IoCall} (hcall : Runs (pipeSystem lib) (server.read length) w result w')
      (hrest : Exchange lib server w' calls w'') :
      Exchange lib server w (.read result (w'.consumed.drop w.consumed.length) :: calls) w''
  | write {w w' w'' : PipeWorld} {data : Bytes} {result : Except IoError ℕ}
      {calls : List IoCall} (hcall : Runs (pipeSystem lib) (server.write data) w result w')
      (hrest : Exchange lib server w' calls w'') :
      Exchange lib server w
        (.write data result (w'.delivered.drop w.delivered.length) :: calls) w''

structure PipeWorld.Fresh (w : PipeWorld) : Prop where
  inert : InertBut none w
  consumed : w.consumed = []
  sent : w.sent = w.inbound

def IoCall.taken : IoCall → Bytes
  | .read _ taken => taken
  | .write _ _ _ => []

def IoCall.Accounts : IoCall → Prop
  | .read result taken => ReadAccounts result taken
  | .write _ _ _ => True

theorem Exchange.accounted {server : NamedPipeServer} {w w' : PipeWorld} {calls : List IoCall}
    (h : Exchange lib server w calls w') (hwait : lib.resultWaitFails = false)
    (hidle : Idle w.consumed w) (hconserved : Conserved w) :
    Conserved w' ∧ w'.consumed = w.consumed ++ calls.flatMap IoCall.taken ∧
      ∀ call ∈ calls, call.Accounts := by
  induction h with
  | nil w => exact ⟨hconserved, by simp, by simp⟩
  | @read w w' w'' length result calls hcall hrest ih =>
    obtain ⟨taken, hidle', haccounts⟩ :=
      (server.read_accounts length w.consumed hwait).sound w result w' hidle hcall
    have htaken : w'.consumed.drop w.consumed.length = taken := by
      rw [hidle'.2, drop_left]
    have hconserved' := hcall.invariant stable_conserved pipeStep_conserved hconserved
    obtain ⟨hend, hconsumed, hcalls⟩ := ih (by rw [hidle'.2]; exact hidle') hconserved'
    refine ⟨hend, ?_, ?_⟩
    · rw [hconsumed, hidle'.2, flatMap_cons, IoCall.taken, drop_left, append_assoc]
    · rw [forall_mem_cons, htaken]
      exact ⟨haccounts, hcalls⟩
  | @write w w' w'' data result calls hcall hrest ih =>
    have hidle' := (server.write_idle data w.consumed hwait).sound w result w' hidle hcall
    have hconserved' := hcall.invariant stable_conserved pipeStep_conserved hconserved
    obtain ⟨hend, hconsumed, hcalls⟩ := ih (by rw [hidle'.2]; exact hidle') hconserved'
    refine ⟨hend, ?_, ?_⟩
    · rw [hconsumed, hidle'.2]
      rfl
    · rw [forall_mem_cons]
      exact ⟨trivial, hcalls⟩

theorem IoCall.length_returned_le {call : IoCall} (h : call.Accounts) :
    call.returned.length ≤ call.taken.length := by
  cases call with
  | read result taken =>
    cases result with
    | error e => exact Nat.zero_le _
    | ok bytes =>
      have hbytes : bytes = taken := h.1 bytes rfl
      rw [IoCall.returned, IoCall.taken, hbytes]
  | write data result delivered => exact Nat.zero_le _

theorem IoCall.returned_eq_taken {call : IoCall} (h : call.Accounts)
    (hmoved : call.timedOut = true → call.moved = []) : call.returned = call.taken := by
  cases call with
  | read result taken =>
    cases result with
    | error e =>
      cases htime : e.isTimedOut with
      | false => exact (h.2 e rfl htime).symm
      | true => exact (hmoved htime).symm
    | ok bytes => exact h.1 bytes rfl
  | write data result delivered => rfl

theorem length_eq_of_flatMap_eq {α β : Type} {f g : α → List β} {l : List α}
    (hle : ∀ a ∈ l, (f a).length ≤ (g a).length) (h : l.flatMap f = l.flatMap g) :
    ∀ a ∈ l, (f a).length = (g a).length := by
  have hlength (l : List α) (hle : ∀ a ∈ l, (f a).length ≤ (g a).length) :
      (l.flatMap f).length ≤ (l.flatMap g).length := by
    induction l with
    | nil => exact Nat.le_refl 0
    | cons a l ih =>
      rw [forall_mem_cons] at hle
      have hrest := ih hle.2
      have hhead := hle.1
      rw [flatMap_cons, flatMap_cons, length_append, length_append]
      omega
  replace h := congrArg List.length h
  induction l with
  | nil => simp
  | cons a l ih =>
    rw [flatMap_cons, flatMap_cons, length_append, length_append] at h
    rw [forall_mem_cons] at hle ⊢
    have hrest := hlength l hle.2
    have hhead := hle.1
    exact ⟨by omega, ih hle.2 (by omega)⟩

def talkingPipe : PipeWorld := { state := .connected ⟨4⟩, sent := [7], inbound := [7] }

theorem fresh_talkingPipe : talkingPipe.Fresh := by
  refine ⟨?_, rfl, rfl⟩
  intro i op _ hop
  contradiction

def limitedServer : NamedPipeServer := ⟨"\\\\.\\pipe\\agent".toList, [], some ⟨10^9⟩⟩

theorem read_of_talkingPipe :
    ∃ w, Exchange .regular limitedServer talkingPipe [.read (.ok [7]) [7]] w ∧
      w.sent = [7] ∧ w.inbound = [] := by
  let op : Operation := ⟨.read 16, [7], false, some .success⟩
  let last : PipeWorld :=
    { state := .connected ⟨4⟩, operations := [op], sent := [7], consumed := [7] }
  have hreset : pipeStep .regular .resetEvent talkingPipe (.ok ()) talkingPipe := ⟨rfl, Or.inl rfl⟩
  have hread : pipeStep .regular (.readFile 16) talkingPipe ⟨.ok (), 0⟩ last :=
    Or.inr (Or.inl ⟨rfl, 1, by decide, Or.inl ⟨rfl, rfl⟩⟩)
  have hwait : pipeStep .regular (.waitForSingleObject 0 limitedServer.ioTimeoutMs) last
      waitObject0 last :=
    ⟨rfl, Or.inl ⟨op, rfl, Or.inl ⟨some_ne_none _, rfl⟩⟩⟩
  have hresult : pipeStep .regular (.getOverlappedResult 0 true) last
      (op.overlappedResult .success) last := ⟨rfl, op, rfl, Or.inl ⟨.success, rfl, rfl⟩⟩
  have hrun : Runs (pipeSystem .regular) (limitedServer.read 16) talkingPipe (.ok [7]) last :=
    .call hreset (.call hread (.call hwait (.call hresult (.done _ _))))
  exact ⟨last, .read hrun (.nil last), rfl, rfl⟩

end WindowsErg.Pipes
