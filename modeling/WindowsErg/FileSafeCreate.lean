import WindowsErg.FileSafePinned

/-! What `create_new_no_follow` leaves behind when it fails, with nobody else at work on the
directories. -/
namespace WindowsErg.File
open TextScan ByteCodec UnicodeText CallProgram

def settledSystem (κ : Type) [DecidableEq κ] (inPlace : Prop) :
    System FileCall FileCall.Answer (FileWorld κ) where
  step := fileStep
  interfere w w' := OthersMove inPlace w w' ∧ w'.entry = w.entry

variable {κ : Type} [DecidableEq κ] {inPlace : Prop} {α : Type} {p : FileProgram α}
  {w w' : FileWorld κ} {a : α}

theorem runs_of_settled (h : Runs (settledSystem κ inPlace) p w a w') :
    Runs (fileSystem κ inPlace) p w a w' := by
  apply h.mono
  · exact fun _ _ _ _ hstep => hstep
  · exact fun _ _ hmove => hmove.1

theorem settled_of_alone (h : Runs (fileSystem κ inPlace).alone p w a w') :
    Runs (settledSystem κ inPlace) p w a w' := by
  apply h.mono
  · exact fun _ _ _ _ hstep => hstep
  · exact fun _ _ hmove => hmove.elim

theorem stable_settled {P : FileWorld κ → Prop} (h : Stable (fileSystem κ inPlace) P) :
    Stable (settledSystem κ inPlace) P :=
  fun w w' hmove => h w w' hmove.1

theorem stable_entry (entries : κ → List UInt16 → Option κ) :
    Stable (settledSystem κ inPlace) fun w => w.entry = entries :=
  fun _ _ hmove hw => hmove.2.trans hw

theorem entry_of_walkCall (hp : p.Only WalkCall) (h : Runs (settledSystem κ inPlace) p w a w') :
    w'.entry = w.entry := by
  apply hp.invariant (stable_entry w.entry) _ h rfl
  intro c v answer v' hwalk hv hstep
  rw [← hv]
  cases c with
  | ntCreateFile request =>
    obtain ⟨root, name, rfl⟩ := hwalk
    rcases hstep with ⟨-, rfl⟩ | ⟨-, -, -, object, ⟨-, -, event, -, rfl⟩ | ⟨hcreate, -⟩⟩
    · rfl
    · rfl
    · exact absurd (show fileOpen = fileCreate from hcreate) (by decide)
  | rtlNtStatusToDosError status => exact congrArg FileWorld.entry hstep
  | getFileInformationByHandle handle =>
    rcases hstep with ⟨code, -, rfl⟩ | ⟨object, -, -, rfl⟩ <;> rfl
  | writeFile handle buffer =>
    rcases hstep with ⟨code, -, rfl⟩ | ⟨object, written, -, -, -, rfl⟩ <;> rfl
  | setDispositionDelete handle => exact hwalk.elim
  | closeHandle handle =>
    rw [show v' = { v with handles := v.handles.filter (·.1 ≠ handle) } from hstep]

def withEntry (entries : κ → List UInt16 → Option κ) (parent : κ) (name : List UInt16) (object : κ) :
    κ → List UInt16 → Option κ :=
  fun p n => if p = parent ∧ n = name then some object else entries p n

variable {entries : κ → List UInt16 → Option κ}

theorem withEntry_ne {parent : κ} {name : List UInt16} (hfree : entries parent name = none)
    (object : κ) : withEntry entries parent name object ≠ entries := by
  intro hsame
  have hentry : withEntry entries parent name object parent name = some object :=
    if_pos ⟨rfl, rfl⟩
  rw [hsame, hfree] at hentry
  cases hentry

def NewFile (inPlace : Prop) (entries : κ → List UInt16 → Option κ) (events : List (FileEvent κ))
    (parent : κ) (name : List UInt16) (file : Handle) (w : FileWorld κ) : Prop :=
  entries parent name = none ∧ ∃ object seen, w.entry = withEntry entries parent name object ∧
    Holding inPlace (events ++ [.createdChild parent name object]) file object seen w

theorem stable_newFile {events : List (FileEvent κ)} {parent : κ} {name : List UInt16}
    {file : Handle} :
    Stable (settledSystem κ inPlace) (NewFile inPlace entries events parent name file) :=
  Stable.and (stable_const _) <| Stable.exists fun _ => Stable.exists fun _ =>
    Stable.and (stable_entry _) (stable_settled stable_holding)

theorem createChild_entry {events : List (FileEvent κ)} {current : Handle} {parent : κ}
    {known : UInt32} {name : Text} {access attributes share options : UInt32}
    (hsingle : SingleName (encodeUtf16 name)) (hnoFollow : options &&& fileOpenReparsePoint ≠ 0) :
    Triple (settledSystem κ inPlace)
      (fun w => Holding inPlace events current parent known w ∧ w.entry = entries)
      (ntOpen (some current) name access attributes share fileCreate options)
      (OnResult (fun _ w => w.entry = entries)
        fun file => NewFile inPlace entries events parent (encodeUtf16 name) file) := by
  have hpre : Stable (settledSystem κ inPlace) fun w =>
      Holding inPlace events current parent known w ∧ w.entry = entries :=
    Stable.and (stable_settled stable_holding) (stable_entry entries)
  unfold ntOpen
  dsimp only
  split
  · exact Triple.done hpre fun w hw => hw.2
  let Done (answer : CreateAnswer) (w : FileWorld κ) : Prop :=
    if answer.status < 0 then w.entry = entries
    else NewFile inPlace entries events parent (encodeUtf16 name) answer.handle w
  have hdone (answer : CreateAnswer) : Stable (settledSystem κ inPlace) (Done answer) := by
    dsimp only [Done]
    split
    · exact stable_entry entries
    · exact stable_newFile
  apply Triple.bind Done
  · apply Triple.request hpre hdone
    rintro w answer w' ⟨hw, rfl⟩ hstep
    dsimp only [Done]
    -- a status below zero is a failure that did nothing
    split
    · rename_i hfail
      rcases hstep with ⟨-, rfl⟩ | ⟨hok, -⟩
      · rfl
      · exact absurd hfail hok
    rename_i hok
    rcases hstep with ⟨hfail, -⟩ | ⟨-, -, -, object, ⟨hopen, -⟩ | ⟨-, -, -, w₁, hcreate, rfl⟩⟩
    · exact absurd hfail hok
    · exact absurd (show fileCreate = fileOpen from hopen) (by decide)
    cases hcreate with
    | child hnames hfree =>
      have hparent := hnames.parent_eq hw
      subst hparent
      exact ⟨hfree, object, _, rfl, holding_grant _ _ _
        (show (w.link _ _ _ _).history = events from hw.history)⟩
    | path hchild _ => exact absurd (namesChild_of_holding hw hsingle hnoFollow) (hchild parent)
  intro answer
  dsimp only [Done]
  split
  · apply Triple.bind fun _ w => w.entry = entries
    · apply Triple.request (stable_entry entries) fun _ => stable_entry entries
      intro w code w' hw hstep
      rw [show w' = w from hstep]
      exact hw
    · exact fun code => Triple.done (stable_entry entries) fun _ hw => hw
  · exact Triple.done stable_newFile fun _ hw => hw

def NotWriteError (dir : Path) (result : Except SafeError α) : Prop :=
  ∀ code, result ≠ .error (fileError dir "write file" code)

variable (dir : Path)

theorem notWriteError_operation (path : Path) {operation : String} (code : Int32)
    (h : operation.toList ≠ "write file".toList) :
    NotWriteError dir (.error (fileError path operation code) : Except SafeError α) := by
  intro code' hsame
  exact h (SafeError.fileOperation.inj (Except.error.inj hsame)).2.1

theorem notWriteError_invalid (parameter message : String) :
    NotWriteError dir (.error (invalid parameter message) : Except SafeError α) := by
  intro code hsame
  cases hsame

theorem yields_drop_error {dir : Path} (handle : Handle) {e : SafeError}
    (h : NotWriteError dir (.error e : Except SafeError α)) :
    (dropHandle handle >>= fun _ => pure (.error e : Except SafeError α)).Yields (NotWriteError dir) :=
  (Program.yields_true _).bind fun _ _ => h

theorem yields_refuseReparsePoint (handle : Handle) (dir : Path) :
    (refuseReparsePoint handle dir).Yields (NotWriteError dir) := by
  apply (Program.yields_true _).bind
  rintro (code | attributes) -
  · exact notWriteError_operation dir dir code (by decide)
  · dsimp only
    split
    · -- the refusal has no error code
      intro code hsame
      have hcode := (SafeError.fileOperation.inj (Except.error.inj hsame)).2.2
      cases hcode
    · intro code hsame
      cases hsame

theorem yields_openComponents (components : List PathComponent) (current : Handle) :
    (openComponents dir components current).Yields (NotWriteError dir) := by
  induction components generalizing current with
  | nil =>
    intro code hsame
    cases hsame
  | cons component components ih =>
    match component with
    | .pathPrefix _ | .rootDir | .curDir | .parentDir =>
      exact yields_drop_error current (notWriteError_invalid dir _ _)
    | .normal name =>
      unfold openComponents
      split
      · exact yields_drop_error current (notWriteError_invalid dir _ _)
      apply (Program.yields_true _).bind
      rintro (code | next) -
      · exact yields_drop_error current (notWriteError_operation dir dir code (by decide))
      apply (yields_refuseReparsePoint next dir).bind
      rintro (e | _) hchecked
      · exact (Program.yields_true _).bind fun _ _ => yields_drop_error current
          fun code hsame => hchecked code (by cases hsame; rfl)
      · exact (Program.yields_true _).bind fun _ _ => ih next

theorem yields_openDirectoryChain : (openDirectoryChain dir).Yields (NotWriteError dir) := by
  unfold openDirectoryChain
  split
  · apply (Program.yields_true _).bind
    rintro (code | root) -
    · exact notWriteError_operation dir dir code (by decide)
    · exact yields_openComponents dir _ root
  · exact notWriteError_invalid dir _ _
  · exact notWriteError_invalid dir _ _
  · exact notWriteError_invalid dir _ _

theorem notWriteError_validateFileName (name : Text) :
    NotWriteError dir (validateFileName name) := by
  unfold validateFileName
  split
  · exact notWriteError_invalid dir _ _
  · intro code hsame
    cases hsame

def CreatedFile (inPlace : Prop) (dir : Path) (name : Text) (w w' : FileWorld κ) (bytes : Bytes) : Prop :=
  ∃ (walk : List (FileEvent κ)) (parent file : κ) (chunks : List Bytes),
    Reached inPlace dir.components walk parent ∧ w.entry parent (encodeUtf16 name) = none ∧
    w'.entry = withEntry w.entry parent (encodeUtf16 name) file ∧
    w'.history = w.history ++ walk ++
      .createdChild parent (encodeUtf16 name) file :: chunks.map (.wrote file) ∧
    chunks.flatten = bytes

theorem createNewNoFollow_cases {dir : Path} {name : Text} {content : Bytes} {hidden : Bool}
    {result : Except SafeError Unit}
    (hrun : Runs (settledSystem κ inPlace) (createNewNoFollow dir name content hidden) w result w') :
    (∃ e, result = .error e ∧ NotWriteError dir result ∧ w'.entry = w.entry) ∨
      (result = .ok () ∧ CreatedFile inPlace dir name w w' content) ∨
      ∃ code part, result = .error (fileError dir "write file" code) ∧
        CreatedFile inPlace dir name w w' part ∧ part <+: content ∧ part.length < content.length := by
  unfold createNewNoFollow at hrun
  split at hrun
  · rename_i e hinvalid
    have hresult := (yields_pure _).of_runs hrun
    refine Or.inl ⟨e, hresult, ?_, entry_of_walkCall (only_pure _) hrun⟩
    rw [hresult, ← hinvalid]
    exact notWriteError_validateFileName dir name
  rename_i hvalid
  have hsingle := singleName_of_validateFileName hvalid
  -- the walk only opens directories
  obtain ⟨chain, w₁, hchain, hrest⟩ := hrun.of_bind
  have hentry₁ := entry_of_walkCall (only_openDirectoryChain dir) hchain
  have hspec := (openDirectoryChain_spec dir w.history).sound w chain w₁ rfl (runs_of_settled hchain)
  have hnot := (yields_openDirectoryChain dir).of_runs hchain
  rcases chain with e | parent
  · have hresult := (yields_pure _).of_runs hrest
    have hentry := entry_of_walkCall (only_pure _) hrest
    refine Or.inl ⟨e, hresult, ?_, hentry.trans hentry₁⟩
    rw [hresult]
    exact fun code hsame => hnot code (by cases hsame; rfl)
  obtain ⟨walk, directory, known, hreached, hholding⟩ := hspec
  obtain ⟨created, w₂, hcreate, hrest⟩ := hrest.of_bind
  have hcreated := (createChild_entry hsingle (by decide)).sound w₁ created w₂ ⟨hholding, hentry₁⟩ hcreate
  rcases created with code | file
  · have hresult := Program.Yields.of_runs
      ((Program.yields_true _).bind fun _ _ => yields_pure _) hrest
    have hentry := entry_of_walkCall (only_drop_error parent _) hrest
    refine Or.inl ⟨_, hresult, ?_, hentry.trans hcreated⟩
    rw [hresult]
    exact notWriteError_operation dir dir code (by decide)
  -- the file exists from here on, and no error exit takes it away
  obtain ⟨hfree, object, seen, hlinked, hfile⟩ := hcreated
  obtain ⟨written, w₃, hwrite, hdrop⟩ := hrest.of_bind
  have hentry₃ := entry_of_walkCall (only_writeRemaining dir file content) hwrite
  have hentry₄ := entry_of_walkCall (only_drop_both file parent written) hdrop
  obtain ⟨chunks, hhistory, hwritten⟩ :=
    (writeRemaining_written dir file object seen content _).sound w₂ written w₃ hfile
      (runs_of_settled hwrite)
  obtain ⟨rfl, hhistory'⟩ :=
    (drop_both_history _ file parent written).sound w₃ result w' hhistory (runs_of_settled hdrop)
  have hfileOf : CreatedFile inPlace dir name w w' chunks.flatten := by
    refine ⟨walk, directory, object, chunks, hreached, hfree, ?_, ?_, rfl⟩
    · rw [hentry₄, hentry₃, hlinked]
    · simpa using hhistory'
  rcases hwritten with ⟨hok, hall⟩ | ⟨⟨code, herror⟩, hpart, hlength⟩
  · exact Or.inr (Or.inl ⟨hok, hall ▸ hfileOf⟩)
  · exact Or.inr (Or.inr ⟨code, chunks.flatten, herror, hfileOf, hpart, hlength⟩)

theorem CreatedFile.entry_ne {dir : Path} {name : Text} {bytes : Bytes}
    (h : CreatedFile inPlace dir name w w' bytes) : w'.entry ≠ w.entry := by
  obtain ⟨walk, parent, file, chunks, -, hfree, hentry, -⟩ := h
  rw [hentry]
  exact withEntry_ne hfree file

theorem runs_writeRemaining_error {dir : Path} {file : Handle} {remaining : Bytes}
    (hrest : remaining ≠ []) (code : Int32) (w : FileWorld κ) :
    Runs (fileSystem κ inPlace).alone (writeRemaining dir file remaining) w
      (.error (fileError dir "write file" code)) w := by
  rw [writeRemaining, dif_neg hrest]
  apply Runs.request_bind (x := (Except.error code : Except Int32 UInt32))
  · exact Or.inl ⟨code, rfl, rfl⟩
  · exact .done _ _

end WindowsErg.File
