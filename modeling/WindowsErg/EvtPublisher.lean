import WindowsErg.CallProgram
import WindowsErg.UnicodeText

/-! The cache of publisher metadata handles in `src/evt/render.rs`, and what `format_message` does
with them. -/
namespace WindowsErg.Evt
open List TextScan UnicodeText CallProgram

structure EvtHandle where
  value : ℤ
  deriving DecidableEq, Repr

def EvtHandle.isInvalid (handle : EvtHandle) : Bool := handle.value = 0 || handle.value = -1

structure PublisherWorld where
  cache : List (Text × EvtHandle)
  live : List EvtHandle
  opened : List EvtHandle

/-- What `EvtFormatMessage` returns: success, the buffer of the given number of units, and the
length it reports. -/
structure FormatAnswer where
  ok : Bool
  buffer : List UInt16
  bufferUsed : UInt32

inductive PublisherCall where
  | cacheGet (providerName : Text)
  | cacheInsert (providerName : Text) (handle : EvtHandle)
  | evtOpenPublisherMetadata (providerName : Text)
  | evtFormatMessage (metadata event : EvtHandle) (units : ℕ)
  | getLastError
  | evtClose (handle : EvtHandle)

abbrev PublisherCall.Answer : PublisherCall → Type
  | .cacheGet _ => Option EvtHandle
  | .cacheInsert _ _ => Option EvtHandle
  | .evtOpenPublisherMetadata _ => Option EvtHandle
  | .evtFormatMessage _ _ _ => FormatAnswer
  | .getLastError => UInt32
  | .evtClose _ => Unit

def insertHandle (cache : List (Text × EvtHandle)) (providerName : Text) (handle : EvtHandle) :
    List (Text × EvtHandle) :=
  (providerName, handle) :: cache.filter (·.1 ≠ providerName)

/-- The system hands out valid handles, none that is still open. -/
def publisherStep : (c : PublisherCall) → PublisherWorld → c.Answer → PublisherWorld → Prop
  | .cacheGet providerName, w, answer, w' => w' = w ∧ answer = w.cache.lookup providerName
  | .cacheInsert providerName handle, w, answer, w' =>
    w' = { w with cache := insertHandle w.cache providerName handle } ∧
      answer = w.cache.lookup providerName
  | .evtOpenPublisherMetadata _, w, answer, w' =>
    answer = none ∧ w' = w ∨ ∃ handle, answer = some handle ∧ handle.isInvalid = false ∧
      handle ∉ w.live ∧ w' = { w with live := handle :: w.live, opened := handle :: w.opened }
  | .evtFormatMessage _ _ units, w, answer, w' => w' = w ∧ answer.buffer.length = units
  | .getLastError, w, _, w' => w' = w
  | .evtClose handle, w, _, w' => w' = { w with live := w.live.erase handle }

/-- The calls come from one thread. -/
def publisherSystem : System PublisherCall PublisherCall.Answer PublisherWorld where
  step := publisherStep
  interfere _ _ := False

abbrev PublisherProgram (α : Type) := Program PublisherCall PublisherCall.Answer α

section Functions
open Program

def cacheGet (providerName : Text) : PublisherProgram (Option EvtHandle) :=
  request (PublisherCall.cacheGet providerName)

def cacheInsert (providerName : Text) (handle : EvtHandle) : PublisherProgram (Option EvtHandle) :=
  request (PublisherCall.cacheInsert providerName handle)

def evtOpenPublisherMetadata (providerName : Text) : PublisherProgram (Option EvtHandle) :=
  request (PublisherCall.evtOpenPublisherMetadata providerName)

def evtFormatMessage (metadata event : EvtHandle) (units : ℕ) : PublisherProgram FormatAnswer :=
  request (PublisherCall.evtFormatMessage metadata event units)

def getLastError : PublisherProgram UInt32 := request PublisherCall.getLastError

def evtClose (handle : EvtHandle) : PublisherProgram Unit := request (PublisherCall.evtClose handle)

end Functions

def dropHandle (handle : EvtHandle) : PublisherProgram Unit :=
  if handle.isInvalid then pure () else evtClose handle

/-- A hit returns a clone of the cached handle. A miss caches a clone of the new one; a handle
that the insertion replaces is dropped. -/
def getPublisherMetadata (providerName : Text) : PublisherProgram (Option EvtHandle) := do
  match ← cacheGet providerName with
  | some handle => pure (some handle)
  | none =>
    match ← evtOpenPublisherMetadata providerName with
    | none => pure none
    | some handle =>
      match ← cacheInsert providerName handle with
      | none => pure (some handle)
      | some replaced => do
        dropHandle replaced
        pure (some handle)

def messageOf (answer : FormatAnswer) : Option Text :=
  let len := answer.bufferUsed.toNat/2
  if 0 < len ∧ len ≤ answer.buffer.length then
    let actualLen := if answer.buffer[len-1]? = some 0 then len-1 else len
    some (decodeUtf16Lossy (answer.buffer.take actualLen))
  else none

def formatLoop (metadata event : EvtHandle) : ℕ → UInt32 → PublisherProgram (Option (Option Text))
  | 0, _ => pure none
  | rounds+1, bufferSize => do
    let answer ← evtFormatMessage metadata event (bufferSize.toNat/2)
    if answer.ok then pure (some (messageOf answer))
    else
      let error ← getLastError
      if error = 122 then
        if 1048576 < answer.bufferUsed then pure (some none)
        else formatLoop metadata event rounds answer.bufferUsed
      else pure (some none)

def formatMessage (rounds : ℕ) (event : EvtHandle) (providerName : Text) :
    PublisherProgram (Option (Option Text)) := do
  match ← getPublisherMetadata providerName with
  | none => pure (some none)
  | some metadata =>
    match ← formatLoop metadata event rounds 4096 with
    | none => pure none
    | some message => do
      dropHandle metadata
      pure (some message)

def formatMessages (rounds : ℕ) :
    List (EvtHandle × Text) → PublisherProgram (Option (List (Option Text)))
  | [] => pure (some [])
  | (event, providerName) :: calls => do
    match ← formatMessage rounds event providerName with
    | none => pure none
    | some message =>
      match ← formatMessages rounds calls with
      | none => pure none
      | some messages => pure (some (message :: messages))

/-- The call is in order where it is made: it formats with an open handle, and it closes an open
handle that is not in the cache. -/
def Proper : PublisherCall × PublisherWorld → Prop
  | (.evtFormatMessage metadata _ _, w) => metadata ∈ w.live
  | (.evtClose handle, w) => handle ∈ w.live ∧ ∀ entry ∈ w.cache, entry.2 ≠ handle
  | _ => True

theorem publisherSystem_quiet (w w' : PublisherWorld) : ¬ publisherSystem.interfere w w' := id

variable {w w' : PublisherWorld} {steps : List (PublisherCall × PublisherWorld)}

theorem formatLoop_world (metadata event : EvtHandle) (rounds : ℕ) (bufferSize : UInt32)
    {result : Option (Option Text)}
    (h : Traces publisherSystem (formatLoop metadata event rounds bufferSize) w steps result w') :
    w' = w := by
  induction rounds generalizing bufferSize w steps with
  | zero => exact (Traces.done_inv publisherSystem_quiet h).2.2
  | succ rounds ih =>
    rw [formatLoop] at h
    obtain ⟨answer, w₁, _, rest, -, hformat, hafter⟩ := h.of_bind
    obtain ⟨-, rfl, -⟩ := Traces.request_inv publisherSystem_quiet hformat
    split at hafter
    · exact (Traces.done_inv publisherSystem_quiet hafter).2.2
    obtain ⟨error, w₂, _, last, -, herror, hlast⟩ := hafter.of_bind
    obtain ⟨-, hw₂⟩ := Traces.request_inv publisherSystem_quiet herror
    have hsame : w₂ = w₁ := hw₂
    subst hsame
    split at hlast
    · split at hlast
      · exact (Traces.done_inv publisherSystem_quiet hlast).2.2
      · exact ih answer.bufferUsed hlast
    · exact (Traces.done_inv publisherSystem_quiet hlast).2.2

theorem getPublisherMetadata_cases (providerName : Text) {result : Option EvtHandle}
    (h : Traces publisherSystem (getPublisherMetadata providerName) w steps result w')
    (hcache : w.cache = []) :
    result = none ∧ w' = w ∧ (∀ step ∈ steps, Proper step) ∨
      ∃ handle, result = some handle ∧ handle.isInvalid = false ∧
        (providerName, handle) ∈ w'.cache ∧ w'.opened = handle :: w.opened := by
  obtain ⟨cached, w₁, _, rest, rfl, hget, h₁⟩ := h.of_bind
  obtain ⟨rfl, hw₁, hlookup⟩ := Traces.request_inv publisherSystem_quiet hget
  subst hw₁
  have hmiss : cached = none := by
    rw [hlookup]
    exact congrArg (List.lookup providerName) hcache
  subst hmiss
  obtain ⟨opened, w₂, _, rest, rfl, hopen, h₂⟩ := h₁.of_bind
  obtain ⟨rfl, hcases⟩ := Traces.request_inv publisherSystem_quiet hopen
  rcases hcases with ⟨rfl, hw₂⟩ | ⟨handle, rfl, hvalid, -, hw₂⟩
  · left
    subst hw₂
    obtain ⟨rfl, rfl, rfl⟩ := Traces.done_inv publisherSystem_quiet h₂
    refine ⟨rfl, rfl, ?_⟩
    intro step hstep
    simp only [append_nil, cons_append, nil_append, mem_cons, not_mem_nil, or_false] at hstep
    rcases hstep with rfl | rfl
    · trivial
    · trivial
  · right
    subst hw₂
    obtain ⟨replaced, w₃, _, rest, rfl, hinsert, h₃⟩ := h₂.of_bind
    obtain ⟨rfl, hw₃, hreplaced⟩ := Traces.request_inv publisherSystem_quiet hinsert
    subst hw₃
    -- the cache was empty, so nothing is replaced
    have hnone : replaced = none := by
      rw [hreplaced]
      exact congrArg (List.lookup providerName) hcache
    subst hnone
    obtain ⟨rfl, rfl, rfl⟩ := Traces.done_inv publisherSystem_quiet h₃
    exact ⟨handle, rfl, hvalid, mem_cons_self, rfl⟩

theorem formatMessage_cases (rounds : ℕ) (event : EvtHandle) (providerName : Text)
    {message : Option Text}
    (h : Traces publisherSystem (formatMessage rounds event providerName) w steps
      (some message) w') (hcache : w.cache = []) :
    w' = w ∧ (∀ step ∈ steps, Proper step) ∨
      w'.opened ≠ [] ∧ ∃ step ∈ steps, ¬ Proper step := by
  obtain ⟨metadata, w₁, first, rest, rfl, hget, h₁⟩ := h.of_bind
  rcases getPublisherMetadata_cases providerName hget hcache with
    ⟨rfl, rfl, hproper⟩ | ⟨handle, rfl, hvalid, hcached, hopened⟩
  · left
    obtain ⟨-, rfl, rfl⟩ := Traces.done_inv publisherSystem_quiet h₁
    refine ⟨rfl, ?_⟩
    rw [append_nil]
    exact hproper
  · right
    obtain ⟨formatted, w₂, _, rest, rfl, hloop, h₂⟩ := h₁.of_bind
    have hsame := formatLoop_world _ _ _ _ hloop
    subst hsame
    cases formatted with
    | none =>
      obtain ⟨hnot, -⟩ := Traces.done_inv publisherSystem_quiet h₂
      contradiction
    | some text =>
      obtain ⟨_, w₃, _, rest, rfl, hdrop, h₃⟩ := h₂.of_bind
      rw [dropHandle, hvalid] at hdrop
      obtain ⟨rfl, hclosed⟩ := Traces.request_inv publisherSystem_quiet hdrop
      obtain ⟨-, rfl, rfl⟩ := Traces.done_inv publisherSystem_quiet h₃
      have hw₃ : w' = { w₂ with live := w₂.live.erase handle } := hclosed
      refine ⟨?_, (.evtClose handle, w₂), by simp, ?_⟩
      · rw [hw₃]
        change w₂.opened ≠ []
        rw [hopened]
        exact cons_ne_nil _ _
      · rintro ⟨-, huncached⟩
        exact huncached (providerName, handle) hcached rfl

theorem publisherStep_opened (c : PublisherCall) (w : PublisherWorld) (answer : c.Answer)
    (w' : PublisherWorld) (hw : w.opened ≠ []) (h : publisherStep c w answer w') :
    w'.opened ≠ [] := by
  cases c with
  | cacheGet providerName => exact h.1 ▸ hw
  | cacheInsert providerName handle =>
    rw [h.1]
    exact hw
  | evtOpenPublisherMetadata providerName =>
    rcases h with ⟨-, rfl⟩ | ⟨handle, -, -, -, rfl⟩
    · exact hw
    · exact cons_ne_nil _ _
  | evtFormatMessage metadata event units => exact h.1 ▸ hw
  | getLastError =>
    have he : w' = w := h
    rwa [he]
  | evtClose handle =>
    have he : w' = { w with live := w.live.erase handle } := h
    rw [he]
    exact hw

/-- The discipline is kept exactly when no provider's metadata could be opened. -/
theorem publisher_handle_discipline_iff (rounds : ℕ) (calls : List (EvtHandle × Text))
    (live : List EvtHandle) (w : PublisherWorld) (messages : List (Option Text))
    (steps : List (PublisherCall × PublisherWorld))
    (h : Traces publisherSystem (formatMessages rounds calls) ⟨[], live, []⟩ steps
      (some messages) w) :
    (∀ step ∈ steps, Proper step) ↔ w.opened = [] := by
  induction calls generalizing messages steps with
  | nil =>
    obtain ⟨-, rfl, rfl⟩ := Traces.done_inv publisherSystem_quiet h
    simp
  | cons call calls ih =>
    obtain ⟨event, providerName⟩ := call
    obtain ⟨formatted, w₁, first, rest, rfl, hcall, h₁⟩ := h.of_bind
    cases formatted with
    | none =>
      obtain ⟨hnot, -⟩ := Traces.done_inv publisherSystem_quiet h₁
      contradiction
    | some message =>
      obtain ⟨others, w₂, _, last, rfl, hrest, h₂⟩ := h₁.of_bind
      cases others with
      | none =>
        obtain ⟨hnot, -⟩ := Traces.done_inv publisherSystem_quiet h₂
        contradiction
      | some others =>
        obtain ⟨-, rfl, rfl⟩ := Traces.done_inv publisherSystem_quiet h₂
        rcases formatMessage_cases rounds event providerName hcall rfl with
          ⟨rfl, hproper⟩ | ⟨hopened, step, hstep, hnot⟩
        · -- nothing has happened yet, so the rest decides
          rw [← ih _ _ hrest, append_nil, forall_mem_append]
          exact ⟨fun hall => hall.2, fun hall => ⟨hproper, hall⟩⟩
        · constructor
          · intro hall
            exact absurd (hall step (mem_append_left _ hstep)) hnot
          · intro hnone
            have hstable : Stable publisherSystem fun w => w.opened ≠ [] :=
              fun w w' hmove => absurd hmove (publisherSystem_quiet w w')
            exact absurd hnone (hrest.runs.invariant hstable publisherStep_opened hopened)

theorem publisher_handle_discipline_missing_provider :
    ∃ steps, Traces publisherSystem (formatMessages 1 [(⟨16⟩, "Legacy".toList)]) ⟨[], [], []⟩ steps
      (some [none]) ⟨[], [], []⟩ ∧ ∀ step ∈ steps, Proper step := by
  have hget : publisherStep (.cacheGet "Legacy".toList) ⟨[], [], []⟩ none ⟨[], [], []⟩ := ⟨rfl, rfl⟩
  have hopen : publisherStep (.evtOpenPublisherMetadata "Legacy".toList) ⟨[], [], []⟩ none
      ⟨[], [], []⟩ := Or.inl ⟨rfl, rfl⟩
  have hrun : Traces publisherSystem (formatMessages 1 [(⟨16⟩, "Legacy".toList)]) ⟨[], [], []⟩ _
      (some [none]) ⟨[], [], []⟩ := .call hget (.call hopen (.done _ _))
  exact ⟨_, hrun, (publisher_handle_discipline_iff _ _ _ _ _ _ hrun).mpr rfl⟩

/-- Two calls for one provider. The first closes the handle that it has just cached, and the
second formats with it. -/
theorem publisher_handle_closed_while_cached :
    ∃ steps w, Traces publisherSystem
        (formatMessages 1 [(⟨16⟩, "Application".toList), (⟨17⟩, "Application".toList)])
        ⟨[], [], []⟩ steps (some [none, none]) w ∧
      (.evtClose ⟨5⟩, ⟨[("Application".toList, ⟨5⟩)], [⟨5⟩], [⟨5⟩]⟩) ∈ steps ∧
      (.evtFormatMessage ⟨5⟩ ⟨17⟩ 2048, ⟨[("Application".toList, ⟨5⟩)], [], [⟨5⟩]⟩) ∈ steps ∧
      (.evtClose ⟨5⟩, ⟨[("Application".toList, ⟨5⟩)], [], [⟨5⟩]⟩) ∈ steps := by
  let app : Text := "Application".toList
  let opened : PublisherWorld := ⟨[], [⟨5⟩], [⟨5⟩]⟩
  let cached : PublisherWorld := ⟨[(app, ⟨5⟩)], [⟨5⟩], [⟨5⟩]⟩
  let closed : PublisherWorld := ⟨[(app, ⟨5⟩)], [], [⟨5⟩]⟩
  let noMessage : FormatAnswer := ⟨false, List.replicate 2048 0, 0⟩
  have hget : publisherStep (.cacheGet app) ⟨[], [], []⟩ none ⟨[], [], []⟩ := ⟨rfl, rfl⟩
  have hopen : publisherStep (.evtOpenPublisherMetadata app) ⟨[], [], []⟩ (some ⟨5⟩) opened :=
    Or.inr ⟨⟨5⟩, rfl, rfl, not_mem_nil, rfl⟩
  have hinsert : publisherStep (.cacheInsert app ⟨5⟩) opened none cached := ⟨rfl, rfl⟩
  have hformat (event : EvtHandle) (w : PublisherWorld) :
      publisherStep (.evtFormatMessage ⟨5⟩ event 2048) w noMessage w :=
    ⟨rfl, length_replicate⟩
  have herror (w : PublisherWorld) : publisherStep .getLastError w (15027 : UInt32) w := rfl
  have hclose : publisherStep (.evtClose ⟨5⟩) cached () closed := rfl
  have hhit : publisherStep (.cacheGet app) closed (some ⟨5⟩) closed := ⟨rfl, rfl⟩
  have hagain : publisherStep (.evtClose ⟨5⟩) closed () closed := rfl
  have hloop (event : EvtHandle) (w : PublisherWorld) : Traces publisherSystem
      (formatLoop ⟨5⟩ event 1 4096) w [(.evtFormatMessage ⟨5⟩ event 2048, w), (.getLastError, w)]
      (some none) w :=
    .call (hformat event w) (.call (x := (15027 : UInt32)) (herror w)
      (by rw [if_neg (by decide)]; exact .done _ _))
  have hmiss : Traces publisherSystem (getPublisherMetadata app) ⟨[], [], []⟩ _ (some ⟨5⟩) cached :=
    .call hget (.call hopen (.call hinsert (.done _ _)))
  have hfirst : Traces publisherSystem (formatMessage 1 ⟨16⟩ app) ⟨[], [], []⟩ _ (some none) closed :=
    hmiss.bind ((hloop ⟨16⟩ cached).bind (.call (x := ()) hclose (.done _ _)))
  have hstale : Traces publisherSystem (getPublisherMetadata app) closed _ (some ⟨5⟩) closed :=
    .call hhit (.done _ _)
  have hsecond : Traces publisherSystem (formatMessage 1 ⟨17⟩ app) closed _ (some none) closed :=
    hstale.bind ((hloop ⟨17⟩ closed).bind (.call (x := ()) hagain (.done _ _)))
  have hrest : Traces publisherSystem (formatMessages 1 [(⟨17⟩, app)]) closed _ (some [none])
      closed := hsecond.bind (.done _ _)
  refine ⟨_, closed, hfirst.bind (hrest.bind (.done _ _)), ?_, ?_, ?_⟩
  · simp [cached, app]
  · simp [closed, app]
  · simp [closed, app]

end WindowsErg.Evt
