import WindowsErg.FileSafeWalk

/-! Which directories `create_new_no_follow` and `delete_no_follow` hold open when they create or
delete the file. -/
namespace WindowsErg.File
open List TextScan ByteCodec UnicodeText CallProgram

variable {κ : Type} {inPlace : Prop}

def fileShareDelete : UInt32 := 0x4

structure Opening (κ : Type) where
  request : CreateRequest
  handle : Handle
  object : κ

structure Ledger (κ : Type) where
  chain : List (Opening κ)
  held : List (Opening κ)

def Ledger.empty : Ledger κ := ⟨[], []⟩

def Ledger.add (ledger : Ledger κ) (opening : Opening κ) : Ledger κ :=
  ⟨ledger.chain ++ [opening], opening :: ledger.held⟩

def Ledger.update : (c : FileCall) → c.Answer → FileWorld κ → Ledger κ → Ledger κ
  | .ntCreateFile request, answer, w, ledger =>
    if answer.status < 0 ∨ request.createOptions &&& fileDirectoryFile = 0 then ledger
    else match w.handles.lookup answer.handle with
      | none => ledger
      | some object => ledger.add ⟨request, answer.handle, object⟩
  | .closeHandle handle, _, _, ledger =>
    { ledger with held := ledger.held.filter (·.handle ≠ handle) }
  | _, _, _, ledger => ledger

def ledgerSystem (κ : Type) [DecidableEq κ] (inPlace : Prop) :
    System FileCall FileCall.Answer (FileWorld κ × Ledger κ) :=
  (fileSystem κ inPlace).withGhost Ledger.update

/-- Every directory that was opened on the way is open, and not shared for deletion. -/
def Ledger.Pinned (ledger : Ledger κ) : Prop :=
  ∀ directory ∈ ledger.chain, ∃ opening ∈ ledger.held,
    opening.object = directory.object ∧ opening.request.shareAccess &&& fileShareDelete = 0

def FinalCall : FileCall → Prop
  | .ntCreateFile request => request.createOptions &&& fileNonDirectoryFile ≠ 0
  | .setDispositionDelete _ => True
  | _ => False

def directoryRequest (root : Option Handle) (name : Text) : CreateRequest :=
  ⟨root, encodeUtf16 name, directoryAccess, 0, directoryShare, fileOpen, directoryOptions⟩

structure Opened (chain held : List (Opening κ)) (s : FileWorld κ × Ledger κ) : Prop where
  chain_eq : s.2.chain = chain
  held_eq : s.2.held = held
  granted : ∀ opening ∈ held, (opening.handle, opening.object) ∈ s.1.handles
  valid : ∀ opening ∈ held, opening.handle.isInvalid = false
  unshared : ∀ opening ∈ held, opening.request.shareAccess &&& fileShareDelete = 0

variable {chain held : List (Opening κ)}

theorem Opened.of_subset {s s' : FileWorld κ × Ledger κ} (h : Opened chain held s)
    (hhandles : s.1.handles ⊆ s'.1.handles) (hledger : s'.2 = s.2) : Opened chain held s' :=
  ⟨hledger ▸ h.chain_eq, hledger ▸ h.held_eq, fun opening ho => hhandles (h.granted opening ho),
    h.valid, h.unshared⟩

variable [DecidableEq κ]

theorem stable_opened : Stable (ledgerSystem κ inPlace) (Opened chain held) := by
  rintro s s' ⟨hmove, hledger⟩ hs
  exact hs.of_subset (OthersMove.handles hmove ▸ List.Subset.refl _) hledger

variable {w : FileWorld κ}

theorem handles_of_create {request : CreateRequest} {w' : FileWorld κ} {answer : CreateAnswer}
    (h : createFileStep request w answer w') (hstatus : ¬ answer.status < 0) :
    answer.handle.isInvalid = false ∧ (∀ object, (answer.handle, object) ∉ w.handles) ∧
      ∃ object, w'.handles = (answer.handle, object) :: w.handles := by
  rcases h with ⟨hfail, -⟩ | ⟨-, hvalid, hnew, object, ⟨-, -, event, -, rfl⟩ | ⟨-, -, -, w₁, hc, rfl⟩⟩
  · exact absurd hfail hstatus
  · exact ⟨hvalid, hnew, object, rfl⟩
  · refine ⟨hvalid, hnew, object, ?_⟩
    cases hc <;> rfl

variable (root : Option Handle) (name : Text)

theorem openDirectory_opened :
    Triple (ledgerSystem κ inPlace) (Opened chain held) (openDirectory root name)
      (OnOk fun handle s => ∃ opening : Opening κ, (opening.handle = handle ∧
        opening.request.objectName = encodeUtf16 name ∧ ∀ other ∈ held, other.handle ≠ handle) ∧
        Opened (chain ++ [opening]) (opening :: held) s) := by
  apply ntOpen_spec stable_opened
  · exact fun handle => Stable.exists fun opening => Stable.and (stable_const _) stable_opened
  rintro s answer s' hs hstatus ⟨hcreate, hledger⟩
  obtain ⟨hvalid, hnew, object, hhandles⟩ := handles_of_create hcreate hstatus
  have hlookup : s'.1.handles.lookup answer.handle = some object := by
    rw [hhandles]
    exact lookup_cons_self
  have hdirectory : directoryOptions &&& fileDirectoryFile ≠ 0 := by decide
  simp only [Ledger.update, hstatus, hdirectory, or_self, if_false, hlookup] at hledger
  refine ⟨⟨directoryRequest root name, answer.handle, object⟩, ⟨rfl, rfl, ?_⟩, ?_, ?_, ?_, ?_, ?_⟩
  · -- the system's table has no entry for the handle yet
    intro other ho he
    exact hnew other.object (he ▸ hs.granted other ho)
  · rw [hledger, Ledger.add, hs.chain_eq]
    rfl
  · rw [hledger, Ledger.add, hs.held_eq]
    rfl
  · rw [hhandles]
    intro opening ho
    rcases mem_cons.mp ho with rfl | ho
    · exact mem_cons_self
    · exact mem_cons_of_mem _ (hs.granted opening ho)
  · exact forall_mem_cons.mpr ⟨hvalid, hs.valid⟩
  · have hshare : directoryShare &&& fileShareDelete = 0 := by decide
    exact forall_mem_cons.mpr ⟨hshare, hs.unshared⟩

variable {access attributes share disposition : UInt32}

theorem openFile_opened :
    Triple (ledgerSystem κ inPlace) (Opened chain held)
      (ntOpen root name access attributes share disposition createOptions)
      (OnOk fun _ => Opened chain held) := by
  apply ntOpen_spec stable_opened fun _ => stable_opened
  rintro s answer s' hs hstatus ⟨hcreate, hledger⟩
  obtain ⟨-, -, object, hhandles⟩ := handles_of_create hcreate hstatus
  have hfile : createOptions &&& fileDirectoryFile = 0 := by decide
  simp only [Ledger.update, hfile, or_true, if_true] at hledger
  exact hs.of_subset (hhandles ▸ subset_cons_self _ _) hledger

theorem refuseReparsePoint_opened (handle : Handle) (path : Path) :
    Triple (ledgerSystem κ inPlace) (Opened chain held) (refuseReparsePoint handle path)
      (OnOk fun _ => Opened chain held) := by
  apply Triple.bind_onOk fun _ => Opened chain held
  · apply Triple.request stable_opened fun _ => stable_onOk (fun _ => stable_opened) _
    rintro s answer s' hs ⟨hstep, hledger⟩
    rcases hstep with ⟨code, rfl, -⟩ | ⟨object, -, rfl, hw⟩
    · trivial
    · exact hs.of_subset (hw ▸ List.Subset.refl _) hledger
  · exact fun code => Triple.error _
  intro attributes
  dsimp only
  split
  · exact Triple.error _
  · exact Triple.done stable_opened fun _ hs => hs

theorem dropParent_opened (child parent : Opening κ) (hne : parent.handle ≠ child.handle) :
    Triple (ledgerSystem κ inPlace) (Opened chain [child, parent]) (dropHandle parent.handle)
      fun _ => Opened chain [child] := by
  unfold dropHandle
  split
  · rename_i hinvalid
    refine Triple.done stable_opened fun s hs => ?_
    have hvalid := hs.valid parent (by simp)
    rw [hinvalid] at hvalid
    contradiction
  apply Triple.request stable_opened fun _ => stable_opened
  rintro s answer s' hs ⟨hstep, hledger⟩
  have hhandles : s'.1.handles = s.1.handles.filter (·.1 ≠ parent.handle) := congrArg (·.handles) hstep
  simp only [Ledger.update, hs.held_eq] at hledger
  refine ⟨?_, ?_, ?_, fun o ho => hs.valid o ?_, fun o ho => hs.unshared o ?_⟩
  · rw [hledger]
    exact hs.chain_eq
  · rw [hledger]
    simp [hne.symm]
  · intro opening ho
    rw [mem_singleton.mp ho, hhandles]
    exact mem_filter.mpr ⟨hs.granted child (by simp), by simpa using hne.symm⟩
  · rw [mem_singleton.mp ho]
    exact mem_cons_self
  · rw [mem_singleton.mp ho]
    exact mem_cons_self

def namesOf (chain : List (Opening κ)) : List (List UInt16) := chain.map (·.request.objectName)

variable (dir : Path)

theorem openComponents_opened (components : List PathComponent) (earlier : List (Opening κ))
    (parent : Opening κ) :
    Triple (ledgerSystem κ inPlace) (Opened (earlier ++ [parent]) [parent])
      (openComponents dir components parent.handle)
      (OnOk fun last s => ∃ names earlier' parent', (components = names.map .normal ∧
        namesOf (earlier' ++ [parent']) = namesOf (earlier ++ [parent]) ++ names ∧
        parent'.handle = last) ∧ Opened (earlier' ++ [parent']) [parent'] s) := by
  induction components generalizing earlier parent with
  | nil =>
    refine Triple.done stable_opened fun s hs => ?_
    exact ⟨[], earlier, parent, ⟨rfl, (append_nil _).symm, rfl⟩, hs⟩
  | cons component components ih =>
    match component with
    | .pathPrefix _ | .rootDir | .curDir | .parentDir =>
      exact Triple.bind_error fun _ => Triple.error _
    | .normal name =>
      unfold openComponents
      split
      · exact Triple.bind_error fun _ => Triple.error _
      rename_i text htext
      -- one round: the child is opened and inspected, then its parent is closed
      apply Triple.bind_onOk _ (openDirectory_opened _ text)
      · exact fun code => Triple.bind_error fun _ => Triple.error _
      intro next
      apply Triple.of_exists
      intro child
      apply Triple.of_and
      rintro ⟨rfl, hname, hnew⟩
      apply Triple.bind_onOk _ (refuseReparsePoint_opened child.handle dir)
      · exact fun e => Triple.bind_error fun _ => Triple.bind_error fun _ => Triple.error _
      intro _
      apply Triple.bind _ (dropParent_opened child parent (hnew parent mem_cons_self))
      intro _
      apply (ih (earlier ++ [parent]) child).weaken fun _ hs => hs
      rintro (e | last) s hs
      · trivial
      obtain ⟨names, earlier', parent', ⟨hnames, hchain, hlast⟩, hopened⟩ := hs
      refine ⟨name :: names, earlier', parent', ⟨?_, ?_, hlast⟩, hopened⟩
      · rw [hnames, map_cons]
      · rw [hchain, ← encodeUtf16_of_toStr htext, ← hname]
        simp [namesOf]

def LastHeld (dir : Path) (s : FileWorld κ × Ledger κ) : Prop :=
  ∃ letter names earlier parent,
    (dir.components = .pathPrefix (.disk letter) :: .rootDir :: names.map .normal ∧
      namesOf (earlier ++ [parent]) = encodeUtf16 (driveRootName (Char.ofNat letter.toNat)) :: names) ∧
    Opened (earlier ++ [parent]) [parent] s

theorem stable_lastHeld :
    Stable (ledgerSystem κ inPlace) (LastHeld dir : FileWorld κ × Ledger κ → Prop) :=
  Stable.exists fun _ => Stable.exists fun _ => Stable.exists fun _ => Stable.exists fun _ =>
    Stable.and (stable_const _) stable_opened

theorem openDirectoryChain_lastHeld :
    Triple (ledgerSystem κ inPlace) (Opened [] []) (openDirectoryChain dir)
      (OnOk fun _ => (LastHeld dir : FileWorld κ × Ledger κ → Prop)) := by
  unfold openDirectoryChain
  split
  · rename_i letter components hdir
    apply Triple.bind_onOk _ (openDirectory_opened none _)
    · exact fun code => Triple.error _
    intro handle
    apply Triple.of_exists
    intro root
    apply Triple.of_and
    rintro ⟨rfl, hname, -⟩
    apply (openComponents_opened dir components [] root).weaken fun _ hs => hs
    rintro (e | last) s hs
    · trivial
    obtain ⟨names, earlier, parent, ⟨hnames, hchain, -⟩, hopened⟩ := hs
    refine ⟨letter, names, earlier, parent, ⟨by rw [hdir, hnames], ?_⟩, hopened⟩
    rw [hchain, ← hname]
    rfl
  · exact Triple.error _
  · exact Triple.error _
  · exact Triple.error _

def NotFinal (c : FileCall) : Prop := ¬ FinalCall c

def WalkCall : FileCall → Prop
  | .ntCreateFile request => ∃ root name, request = directoryRequest root name
  | .setDispositionDelete _ => False
  | _ => True

theorem WalkCall.notFinal {c : FileCall} (h : WalkCall c) : NotFinal c := by
  have hoptions : ¬ directoryOptions &&& fileNonDirectoryFile ≠ 0 := by decide
  cases c with
  | ntCreateFile request =>
    obtain ⟨root, name, rfl⟩ := h
    exact hoptions
  | setDispositionDelete handle => exact absurd h id
  | _ => exact id

theorem only_dropHandle (handle : Handle) : (dropHandle handle).Only WalkCall := by
  unfold dropHandle
  split
  · exact only_pure ()
  · exact only_request trivial

theorem only_refuseReparsePoint (handle : Handle) (path : Path) :
    (refuseReparsePoint handle path).Only WalkCall := by
  apply Program.Only.bind (only_request trivial)
  intro answer
  split
  · exact only_pure _
  · split
    · exact only_pure _
    · exact only_pure _

theorem only_openDirectory : (openDirectory root name).Only WalkCall := by
  unfold openDirectory ntOpen
  dsimp only
  split
  · exact only_pure _
  · apply Program.Only.bind (only_request ⟨root, name, rfl⟩)
    intro answer
    split
    · exact Program.Only.bind (only_request trivial) fun _ => only_pure _
    · exact only_pure _

theorem only_drop_error (handle : Handle) (e : SafeError) {α : Type} :
    (dropHandle handle >>= fun _ => pure (Except.error e : Except SafeError α)).Only WalkCall :=
  (only_dropHandle handle).bind fun _ => only_pure _

theorem only_openComponents (components : List PathComponent) (current : Handle) :
    (openComponents dir components current).Only WalkCall := by
  induction components generalizing current with
  | nil => exact only_pure _
  | cons component components ih =>
    match component with
    | .pathPrefix _ | .rootDir | .curDir | .parentDir => exact only_drop_error current _
    | .normal name =>
      unfold openComponents
      split
      · exact only_drop_error current _
      apply (only_openDirectory _ _).bind
      intro result
      split
      · exact only_drop_error current _
      apply (only_refuseReparsePoint _ _).bind
      intro checked
      split
      · exact (only_dropHandle _).bind fun _ => only_drop_error current _
      · exact (only_dropHandle _).bind fun _ => ih _

theorem only_openDirectoryChain : (openDirectoryChain dir).Only WalkCall := by
  unfold openDirectoryChain
  split
  · apply (only_openDirectory _ _).bind
    intro result
    split
    · exact only_pure _
    · exact only_openComponents _ _ _
  · exact only_pure _
  · exact only_pure _
  · exact only_pure _

theorem only_writeRemaining (file : Handle) (remaining : Bytes) :
    (writeRemaining dir file remaining).Only WalkCall := by
  induction hlen : remaining.length using Nat.strong_induction_on generalizing remaining with
  | _ length ih =>
    unfold writeRemaining
    split
    · exact only_pure _
    rename_i hrest
    apply Program.Only.bind (only_request trivial)
    intro answer
    split
    · exact only_pure _
    rename_i written
    split
    · exact only_pure _
    rename_i hsome
    have hpos : written.toNat ≠ 0 := fun hzero => hsome (UInt32.toNat_inj.mp hzero)
    have hne : remaining.length ≠ 0 := fun hzero => hrest (length_eq_zero_iff.mp hzero)
    -- some bytes were written, so that fewer remain
    apply ih _ _ _ rfl
    rw [length_drop]
    omega

theorem only_drop_both (file parent : Handle) (result : Except SafeError Unit) :
    (do dropHandle file; dropHandle parent; pure result : FileProgram (Except SafeError Unit)).Only
      WalkCall :=
  (only_dropHandle file).bind fun _ => (only_dropHandle parent).bind fun _ => only_pure _

def FinalHeld (dir : Path) (c : FileCall) (s : FileWorld κ × Ledger κ) : Prop :=
  FinalCall c → LastHeld dir s

theorem emits_of_only {α : Type} {P : FileWorld κ × Ledger κ → Prop} {p : FileProgram α}
    (h : p.Only WalkCall) : Emits (ledgerSystem κ inPlace) P p (FinalHeld dir) :=
  Emits.only h fun _ _ hwalk hfinal => absurd hfinal hwalk.notFinal

theorem triple_lastHeld {ε α : Type} {p : FileProgram (Except ε α)}
    (h : ∀ chain held : List (Opening κ), Triple (ledgerSystem κ inPlace) (Opened chain held) p
      (OnOk fun _ => Opened chain held)) :
    Triple (ledgerSystem κ inPlace) (LastHeld dir) p (OnOk fun _ => LastHeld dir) := by
  refine Triple.of_exists fun letter => Triple.of_exists fun names => Triple.of_exists fun earlier =>
    Triple.of_exists fun parent => Triple.of_and fun hfacts => ?_
  refine (h (earlier ++ [parent]) [parent]).weaken (fun _ hs => hs) ?_
  rintro (e | a) s hs
  · trivial
  · exact ⟨letter, names, earlier, parent, hfacts, hs⟩

theorem emits_openFile (root : Option Handle) (name : Text) :
    Emits (ledgerSystem κ inPlace) (LastHeld dir)
      (ntOpen root name access attributes share disposition createOptions) (FinalHeld dir) := by
  unfold ntOpen
  dsimp only
  split
  · exact emits_of_only dir (only_pure _)
  apply Emits.bind (fun _ _ => True)
  · exact Emits.request (stable_lastHeld dir) fun s hs _ => hs
  · exact ⟨fun _ _ _ _ _ => trivial⟩
  intro answer
  split
  · exact emits_of_only dir ((only_request trivial).bind fun _ => only_pure _)
  · exact emits_of_only dir (only_pure _)

theorem emits_createNewNoFollow (name : Text) (content : Bytes) (hidden : Bool) :
    Emits (ledgerSystem κ inPlace) (Opened [] []) (createNewNoFollow dir name content hidden)
      (FinalHeld dir) := by
  unfold createNewNoFollow
  split
  · exact emits_of_only dir (only_pure _)
  apply Emits.bind _ (emits_of_only dir (only_openDirectoryChain dir))
    (openDirectoryChain_lastHeld dir)
  rintro (e | parent)
  · exact emits_of_only dir (only_pure _)
  apply Emits.bind (fun _ _ => True) (emits_openFile dir (some parent) name)
    ⟨fun _ _ _ _ _ => trivial⟩
  -- no call after that creates or deletes
  rintro (code | file)
  · exact emits_of_only dir (only_drop_error parent _)
  · exact emits_of_only dir ((only_writeRemaining dir file content).bind fun result =>
      only_drop_both file parent result)

theorem emits_markDeleted (path : Path) (file : Handle) :
    Emits (ledgerSystem κ inPlace) (LastHeld dir) (markDeleted file path) (FinalHeld dir) := by
  have hkept : Triple (ledgerSystem κ inPlace) (LastHeld dir) (refuseReparsePoint file path)
      (OnOk fun _ => (LastHeld dir : FileWorld κ × Ledger κ → Prop)) :=
    triple_lastHeld dir fun _ _ => refuseReparsePoint_opened file path
  apply Emits.bind _ (emits_of_only dir (only_refuseReparsePoint file path)) hkept
  rintro (e | _)
  · exact emits_of_only dir (only_pure _)
  apply Emits.bind (fun _ _ => True)
  · exact Emits.request (stable_lastHeld dir) fun s hs _ => hs
  · exact ⟨fun _ _ _ _ _ => trivial⟩
  intro answer
  split
  · exact emits_of_only dir (only_pure _)
  · exact emits_of_only dir (only_pure _)

theorem emits_deleteNoFollow {path dir : Path} (hparent : path.parent = some dir) :
    Emits (ledgerSystem κ inPlace) (Opened [] []) (deleteNoFollow path) (FinalHeld dir) := by
  unfold deleteNoFollow
  rw [hparent]
  split
  · rename_i dir' name hdir hname
    cases hdir
    split
    · exact emits_of_only dir (only_pure _)
    apply Emits.bind _ (emits_of_only dir (only_openDirectoryChain dir))
      (openDirectoryChain_lastHeld dir)
    rintro (e | parent)
    · exact emits_of_only dir (only_pure _)
    apply Emits.bind _ (emits_openFile dir (some parent) name)
      (triple_lastHeld dir fun chain held => openFile_opened (some parent) name)
    rintro (code | file)
    · exact emits_of_only dir (only_drop_error parent _)
    apply Emits.bind (fun _ _ => True) (emits_markDeleted dir path file) ⟨fun _ _ _ _ _ => trivial⟩
    exact fun result => emits_of_only dir (only_drop_both file parent result)
  · exact emits_of_only dir (only_pure _)

/-- The directories from the drive root to `dir` were opened by their names, and all of them are
pinned exactly when all are the last one, so for a tree only when `dir` is the drive root. -/
def PinnedOnlyAtRoot (dir : Path) (ledger : Ledger κ) : Prop :=
  ∃ letter names earlier parent,
    dir.components = .pathPrefix (.disk letter) :: .rootDir :: names.map .normal ∧
    ledger.chain = earlier ++ [parent] ∧
    namesOf ledger.chain = encodeUtf16 (driveRootName (Char.ofNat letter.toNat)) :: names ∧
    (ledger.Pinned ↔ ∀ directory ∈ earlier, directory.object = parent.object) ∧
    ((ledger.chain.map (·.object)).Nodup → (ledger.Pinned ↔ names = []))

omit [DecidableEq κ] in
theorem pinned_iff_of_opened {earlier : List (Opening κ)} {parent : Opening κ} {ledger : Ledger κ}
    (h : Opened (earlier ++ [parent]) [parent] (w, ledger)) :
    ledger.Pinned ↔ ∀ directory ∈ earlier, directory.object = parent.object := by
  have hunshared := h.unshared parent mem_cons_self
  have hchain : ledger.chain = earlier ++ [parent] := h.chain_eq
  have hheld : ledger.held = [parent] := h.held_eq
  rw [Ledger.Pinned, hchain, hheld]
  constructor
  · intro hpinned directory hd
    obtain ⟨opening, ho, hobject, -⟩ := hpinned directory (mem_append_left _ hd)
    rw [← hobject, mem_singleton.mp ho]
  · intro hall directory hd
    refine ⟨parent, mem_cons_self, ?_, hunshared⟩
    rcases mem_append.mp hd with hd | hd
    · exact (hall directory hd).symm
    · rw [mem_singleton.mp hd]

omit [DecidableEq κ] in
theorem pinnedOnlyAtRoot_of_lastHeld {dir : Path} {ledger : Ledger κ}
    (h : LastHeld dir (w, ledger)) : PinnedOnlyAtRoot dir ledger := by
  obtain ⟨letter, names, earlier, parent, ⟨hdir, hnames⟩, hopened⟩ := h
  have hchain : ledger.chain = earlier ++ [parent] := hopened.chain_eq
  have hpinned := pinned_iff_of_opened hopened
  refine ⟨letter, names, earlier, parent, hdir, hchain, hchain ▸ hnames, hpinned, ?_⟩
  intro hnodup
  -- one opening for the root and one for each name
  have hlength : earlier.length = names.length := by
    have hcount := congrArg List.length hnames
    simpa [namesOf] using hcount
  rw [hpinned]
  constructor
  · intro hall
    rw [hchain, map_append, nodup_append] at hnodup
    apply eq_nil_iff_length_eq_zero.mpr
    rw [← hlength, length_eq_zero_iff, eq_nil_iff_forall_not_mem]
    intro directory hd
    exact hnodup.2.2 _ (mem_map_of_mem hd) _ (mem_map_of_mem mem_cons_self)
      (hall directory hd)
  · intro hnil directory hd
    rw [hnil, length_nil, length_eq_zero_iff] at hlength
    rw [hlength] at hd
    contradiction

/-- Whatever the file system is and others do: at every call that creates or deletes the file, the
directories of the chain are all pinned exactly when there is only one. -/
theorem chain_pinned_iff (w₀ : FileWorld κ) :
    (∀ dir name content hidden c w (ledger : Ledger κ),
      Issues (ledgerSystem κ inPlace) (createNewNoFollow dir name content hidden) (w₀, .empty) c
        (w, ledger) → FinalCall c → PinnedOnlyAtRoot dir ledger) ∧
    (∀ path c w (ledger : Ledger κ),
      Issues (ledgerSystem κ inPlace) (deleteNoFollow path) (w₀, .empty) c (w, ledger) →
      FinalCall c → ∃ dir, path.parent = some dir ∧ PinnedOnlyAtRoot dir ledger) := by
  have hstart : Opened [] [] (w₀, (.empty : Ledger κ)) := ⟨rfl, rfl, by simp, by simp, by simp⟩
  constructor
  · intro dir name content hidden c w ledger hissues hfinal
    apply pinnedOnlyAtRoot_of_lastHeld (w := w)
    exact (emits_createNewNoFollow dir name content hidden).sound _ _ _ hstart hissues hfinal
  · intro path c w ledger hissues hfinal
    cases hparent : path.parent with
    | none =>
      have hnone : (deleteNoFollow path).Only WalkCall := by
        rw [deleteNoFollow, hparent]
        exact only_pure _
      exact absurd hfinal (hnone.of_issues hissues).notFinal
    | some dir =>
      refine ⟨dir, rfl, pinnedOnlyAtRoot_of_lastHeld (w := w) ?_⟩
      exact (emits_deleteNoFollow hparent).sound _ _ _ hstart hissues hfinal

theorem issues_ntOpen {W : Type} {sys : System FileCall FileCall.Answer W} {root : Option Handle}
    {name : Text} {options : UInt32} {w : W} (hlen : (encodeUtf16 name).length*2 ≤ 0xFFFF) :
    Issues sys (ntOpen root name access attributes share disposition options) w
      (.ntCreateFile ⟨root, encodeUtf16 name, access, attributes, share, disposition, options⟩) w := by
  unfold ntOpen
  dsimp only
  rw [if_neg (by omega)]
  exact .here

def rootOpening : Opening ℕ := ⟨directoryRequest none (driveRootName 'C'), ⟨4⟩, 0⟩

def childOpening : Opening ℕ := ⟨directoryRequest (some ⟨4⟩) ['d'], ⟨8⟩, 1⟩

def createRequest (parent : Handle) : CreateRequest :=
  ⟨some parent, encodeUtf16 ['a'], genericWrite ||| synchronize ||| fileReadAttributes,
    fileAttributeNormal, 0, fileCreate, createOptions⟩

def driveRoot : Path where
  pieces := [⟨[0x43, 0x3A], .pathPrefix (.disk 0x43)⟩, ⟨[0x5C], .rootDir⟩]
  trailing := []
  separated _ := by simp [PathComponent.Separated]

def rootedTree (file : Option ℕ) : FileWorld ℕ :=
  ((plainTree file).record (.openedRoot (encodeUtf16 (driveRootName 'C')) 0)).grant ⟨4⟩ 0

variable (file : Option ℕ)

theorem openRoot_plain :
    Runs (ledgerSystem ℕ inPlace) (openDirectory none (driveRootName 'C')) (plainTree file, .empty)
      (.ok ⟨4⟩) (rootedTree file, ⟨[rootOpening], [rootOpening]⟩) := by
  apply runs_ntOpen ⟨4⟩ (by decide)
  refine ⟨?_, rfl⟩
  apply createFileStep_open 0 rfl directory_matches (by decide) (by simp [plainTree])
  exact .root ⟨rfl, 'C', rfl⟩ rfl

def openedTree (file : Option ℕ) : FileWorld ℕ :=
  ((rootedTree file).record (.openedChild 0 [0x64] 1 fileAttributeDirectory)).grant ⟨8⟩ 1

theorem openChild_plain :
    Runs (ledgerSystem ℕ inPlace) (openDirectory (some ⟨4⟩) ['d'])
      (rootedTree file, ⟨[rootOpening], [rootOpening]⟩) (.ok ⟨8⟩)
      (openedTree file, ⟨[rootOpening, childOpening], [childOpening, rootOpening]⟩) := by
  apply runs_ntOpen ⟨8⟩ (by decide)
  refine ⟨?_, rfl⟩
  apply createFileStep_open 1 rfl directory_matches (by decide)
    (by simp [rootedTree, plainTree, FileWorld.record, FileWorld.grant])
  exact .child ⟨⟨⟨4⟩, rfl, rfl⟩, show SingleName (encodeUtf16 ['d']) by decide, by decide⟩ rfl

theorem refuseReparsePoint_plain (ledger : Ledger ℕ) :
    Runs (ledgerSystem ℕ inPlace) (refuseReparsePoint ⟨8⟩ plainDirectory) (openedTree file, ledger)
      (.ok ()) ((openedTree file).record (.inspected 1 fileAttributeDirectory), ledger) := by
  have hstep : (ledgerSystem ℕ inPlace).step (.getFileInformationByHandle ⟨8⟩)
      (openedTree file, ledger) (Except.ok fileAttributeDirectory : Except Int32 UInt32)
      ((openedTree file).record (.inspected 1 fileAttributeDirectory), ledger) :=
    ⟨Or.inr ⟨1, rfl, rfl, rfl⟩, rfl⟩
  exact Runs.request_bind hstep (.done _ _)

theorem dropRoot_plain :
    Runs (ledgerSystem ℕ inPlace) (dropHandle ⟨4⟩)
      ((openedTree file).record (.inspected 1 fileAttributeDirectory),
        ⟨[rootOpening, childOpening], [childOpening, rootOpening]⟩) ()
      (walkedTree file, ⟨[rootOpening, childOpening], [childOpening]⟩) := by
  have hstep : (ledgerSystem ℕ inPlace).step (.closeHandle ⟨4⟩)
      ((openedTree file).record (.inspected 1 fileAttributeDirectory),
        ⟨[rootOpening, childOpening], [childOpening, rootOpening]⟩) ()
      (walkedTree file, ⟨[rootOpening, childOpening], [childOpening]⟩) := ⟨rfl, rfl⟩
  exact Runs.call hstep (.done _ _)

theorem openDirectoryChain_held :
    Runs (ledgerSystem ℕ inPlace) (openDirectoryChain plainDirectory) (plainTree file, .empty)
      (.ok ⟨8⟩) (walkedTree file, ⟨[rootOpening, childOpening], [childOpening]⟩) := by
  have hcomponents : plainDirectory.components =
    [.pathPrefix (.disk 0x43), .rootDir, .normal [0x64]] := rfl
  have hname : toStr [0x64] = some ['d'] := by decide
  rw [openDirectoryChain, hcomponents]
  apply Runs.bind (openRoot_plain file)
  dsimp only
  rw [openComponents, hname]
  apply Runs.bind (openChild_plain file)
  apply Runs.bind (refuseReparsePoint_plain file _)
  apply Runs.bind (dropRoot_plain file)
  exact .done _ _

theorem chain_pinned_drive_root :
    ∃ w ledger, Issues (ledgerSystem ℕ False) (createNewNoFollow driveRoot ['a'] [7] false)
        (plainTree none, .empty) (.ntCreateFile (createRequest ⟨4⟩)) (w, ledger) ∧
      ledger.Pinned := by
  have hvalid : validateFileName ['a'] = .ok () := by simp [validateFileName]
  have hissues : Issues (ledgerSystem ℕ False) (createNewNoFollow driveRoot ['a'] [7] false)
      (plainTree none, .empty) (.ntCreateFile (createRequest ⟨4⟩))
      (rootedTree none, ⟨[rootOpening], [rootOpening]⟩) := by
    rw [createNewNoFollow, hvalid]
    refine Issues.bind_right (a := .ok ⟨4⟩) ?_ (Issues.bind_left _ (issues_ntOpen (by decide)))
    exact Runs.bind (openRoot_plain none) (.done _ _)
  refine ⟨_, _, hissues, ?_⟩
  obtain ⟨letter, names, earlier, parent, -, -, hnames, -, hpinned⟩ :=
    (chain_pinned_iff (plainTree none)).1 _ _ _ _ _ _ _ hissues (show (_ : UInt32) ≠ 0 by decide)
  refine (hpinned (by simp)).mpr ?_
  exact (List.cons.inj hnames).2.symm

/-- In `C:\d` the drive root is not open any more when the file is created or opened for deletion. -/
theorem chain_not_pinned_subdirectory :
    ∃ ledger : Ledger ℕ,
      Issues (ledgerSystem ℕ False) (createNewNoFollow plainDirectory ['a'] [7] false)
        (plainTree none, .empty) (.ntCreateFile (createRequest ⟨8⟩)) (walkedTree none, ledger) ∧
      Issues (ledgerSystem ℕ False) (deleteNoFollow plainFile) (plainTree (some 2), .empty)
        (.ntCreateFile ⟨some ⟨8⟩, encodeUtf16 ['a'], deleteAccess ||| synchronize |||
          fileReadAttributes, 0, 0, fileOpen, createOptions⟩) (walkedTree (some 2), ledger) ∧
      ledger.chain.map (·.object) = [0, 1] ∧ ledger.held.map (·.object) = [1] ∧ ¬ ledger.Pinned := by
  have hvalid : validateFileName ['a'] = .ok () := by simp [validateFileName]
  refine ⟨⟨[rootOpening, childOpening], [childOpening]⟩, ?_, ?_, rfl, rfl, ?_⟩
  · rw [createNewNoFollow, hvalid]
    exact Issues.bind_right (openDirectoryChain_held none)
      (Issues.bind_left _ (issues_ntOpen (by decide)))
  · have hparent : plainFile.parent = some plainDirectory := rfl
    have hname : plainFile.fileName.bind toStr = some ['a'] := by decide
    rw [deleteNoFollow, hparent, hname]
    dsimp only
    rw [hvalid]
    exact Issues.bind_right (openDirectoryChain_held (some 2))
      (Issues.bind_left _ (issues_ntOpen (by decide)))
  · intro hpinned
    obtain ⟨opening, ho, hobject, -⟩ := hpinned rootOpening mem_cons_self
    rw [mem_singleton.mp ho] at hobject
    contradiction

end WindowsErg.File
