import WindowsErg.FileSafe

/-! The directories that `create_new_no_follow` and `delete_no_follow` go through, whatever other
processes do in between. -/
namespace WindowsErg.File
open List TextScan ByteCodec UnicodeText CallProgram

variable {κ : Type} {inPlace : Prop}

/-- The events of a walk from a drive root, one named child after the other. Each object that was
opened is a directory and was seen to be no reparse point while it was open. -/
inductive Walk (inPlace : Prop) (rootName : List UInt16) :
    List (List UInt16) → List (FileEvent κ) → κ → Prop
  | root (object : κ) : Walk inPlace rootName [] [.openedRoot rootName object] object
  | child {names : List (List UInt16)} {events : List (FileEvent κ)} {parent object : κ}
      {name : List UInt16} {atOpen seen : UInt32} (hwalk : Walk inPlace rootName names events parent)
      (hopen : IsDirectory atOpen) (hfixed : ¬ inPlace → ¬ IsReparsePoint atOpen)
      (hseen : IsDirectory seen ∧ ¬ IsReparsePoint seen) :
      Walk inPlace rootName (names ++ [name])
        (events ++ [.openedChild parent name object atOpen, .inspected object seen]) object

def Reached (inPlace : Prop) (components : List PathComponent) (events : List (FileEvent κ))
    (object : κ) : Prop :=
  ∃ letter names, components = .pathPrefix (.disk letter) :: .rootDir :: names.map .normal ∧
    Walk inPlace (encodeUtf16 (driveRootName (Char.ofNat letter.toNat))) names events object

theorem lookup_filter_of_ne (handles : List (Handle × κ)) {handle other : Handle}
    (h : handle ≠ other) :
    (handles.filter (·.1 ≠ other)).lookup handle = handles.lookup handle := by
  induction handles with
  | nil => rfl
  | cons entry handles ih =>
    rw [filter_cons]
    by_cases hentry : entry.1 = other
    · have hne : (handle == entry.1) = false := by
        rw [hentry]
        exact beq_false_of_ne h
      rw [if_neg (by simpa using hentry), ih, lookup_cons, hne]
    · rw [if_pos (by simpa using hentry), lookup_cons, lookup_cons, ih]

theorem mem_of_lookup {handles : List (Handle × κ)} {handle : Handle} {object : κ}
    (h : handles.lookup handle = some object) : (handle, object) ∈ handles := by
  obtain ⟨front, back, rfl, -⟩ := lookup_eq_some_iff.mp h
  exact mem_append_right _ mem_cons_self

structure Holding (inPlace : Prop) (events : List (FileEvent κ)) (handle : Handle) (object : κ)
    (seen : UInt32) (w : FileWorld κ) : Prop where
  history : w.history = events
  handle : w.handles.lookup handle = some object
  kind : IsDirectory (w.attributes object) ↔ IsDirectory seen
  attributes : ¬ inPlace → w.attributes object = seen

variable {events : List (FileEvent κ)} {seen : UInt32}

theorem stable_holding [DecidableEq κ] {handle : Handle} {object : κ} :
    Stable (fileSystem κ inPlace) (Holding inPlace events handle object seen) := by
  intro w w' hmove hw
  have hopen := mem_of_lookup hw.handle
  constructor
  · rw [OthersMove.history hmove, hw.history]
  · rw [OthersMove.handles hmove, hw.handle]
  · exact (OthersMove.kind hmove handle object hopen).trans hw.kind
  · intro hfixed
    rw [OthersMove.attributes hmove hfixed handle object hopen, hw.attributes hfixed]

theorem stable_history [DecidableEq κ] (events : List (FileEvent κ)) :
    Stable (fileSystem κ inPlace) fun w => w.history = events :=
  fun _ _ hmove hw => (OthersMove.history hmove).trans hw

variable {w : FileWorld κ}

theorem holding_grant (event : FileEvent κ) (handle : Handle) (object : κ)
    (hw : w.history = events) :
    Holding inPlace (events ++ [event]) handle object (w.attributes object)
      ((w.record event).grant handle object) := by
  rw [← hw]
  exact ⟨rfl, lookup_cons_self, Iff.rfl, fun _ => rfl⟩

variable {current : Handle} {parent : κ} {access attributes share disposition options : UInt32}

theorem namesChild_of_holding {name : List UInt16}
    (hw : Holding inPlace events current parent seen w) (hsingle : SingleName name)
    (hnoFollow : options &&& fileOpenReparsePoint ≠ 0) :
    NamesChild w ⟨some current, name, access, attributes, share, disposition, options⟩ parent :=
  ⟨⟨current, rfl, hw.handle⟩, hsingle, hnoFollow⟩

theorem NamesChild.parent_eq {other : κ} {name : List UInt16}
    (h : NamesChild w ⟨some current, name, access, attributes, share, disposition, options⟩ other)
    (hw : Holding inPlace events current parent seen w) : other = parent := by
  obtain ⟨handle, hroot, hlookup⟩ := h.root
  cases hroot
  exact Option.some.inj (hlookup.symm.trans hw.handle)

theorem ne_of_holding {next : Handle} (hw : Holding inPlace events current parent seen w)
    (hnew : ∀ object, (next, object) ∉ w.handles) : next ≠ current := by
  intro he
  subst he
  exact hnew parent (mem_of_lookup hw.handle)

variable [DecidableEq κ]

variable (object : κ)

theorem dropHandle_holding (events : List (FileEvent κ)) {handle other : Handle} (object : κ)
    (seen : UInt32) (hne : handle ≠ other) :
    Triple (fileSystem κ inPlace) (Holding inPlace events handle object seen) (dropHandle other)
      fun _ => Holding inPlace events handle object seen := by
  unfold dropHandle
  split
  · exact Triple.done stable_holding fun _ hw => hw
  apply Triple.request stable_holding (fun _ => stable_holding)
  intro w answer w' hw hstep
  have he : w' = { w with handles := w.handles.filter (·.1 ≠ other) } := hstep
  subst he
  exact ⟨hw.history, (lookup_filter_of_ne w.handles hne).trans hw.handle, hw.kind, hw.attributes⟩

theorem dropHandle_history (events : List (FileEvent κ)) (handle : Handle) :
    Triple (fileSystem κ inPlace) (fun w => w.history = events) (dropHandle handle)
      fun _ w => w.history = events := by
  unfold dropHandle
  split
  · exact Triple.done (stable_history events) fun _ hw => hw
  apply Triple.request (stable_history events) (fun _ => stable_history events)
  intro w answer w' hw hstep
  have he : w' = { w with handles := w.handles.filter (·.1 ≠ handle) } := hstep
  rw [he]
  exact hw

theorem drop_both_history (events : List (FileEvent κ)) (file parent : Handle)
    (result : Except SafeError Unit) :
    Triple (fileSystem κ inPlace) (fun w => w.history = events)
      (do dropHandle file; dropHandle parent; pure result)
      fun result' w => result' = result ∧ w.history = events := by
  apply Triple.bind _ (dropHandle_history events file)
  intro _
  apply Triple.bind _ (dropHandle_history events parent)
  intro _
  exact Triple.done (stable_history events) fun _ hw => ⟨rfl, hw⟩

variable {name : Text}

theorem ntOpen_spec {W : Type} {sys : System FileCall FileCall.Answer W} {root : Option Handle}
    {P : W → Prop} {R : Handle → W → Prop} (hP : Stable sys P)
    (hR : ∀ handle, Stable sys (R handle))
    (hstep : ∀ w (answer : CreateAnswer) w', P w → ¬ answer.status < 0 →
      sys.step (.ntCreateFile
        ⟨root, encodeUtf16 name, access, attributes, share, disposition, options⟩) w answer w' →
      R answer.handle w') :
    Triple sys P (ntOpen root name access attributes share disposition options) (OnOk R) := by
  unfold ntOpen
  dsimp only
  split
  · exact Triple.error 206
  let Granted (answer : CreateAnswer) (w : W) : Prop := ¬ answer.status < 0 → R answer.handle w
  have hgranted (answer : CreateAnswer) : Stable sys (Granted answer) :=
    fun w w' hmove hw hstatus => hR answer.handle w w' hmove (hw hstatus)
  apply Triple.bind Granted
  · apply Triple.request hP hgranted
    exact fun w answer w' hw hcreate hstatus => hstep w answer w' hw hstatus hcreate
  intro answer
  split
  · apply Triple.bind_error
    intro code
    exact Triple.error _
  · rename_i hstatus
    exact Triple.done (hgranted answer) fun w hw => hw hstatus

theorem openRoot_spec (base : List (FileEvent κ)) (drive : Char) :
    Triple (fileSystem κ inPlace) (fun w => w.history = base)
      (openDirectory none (driveRootName drive))
      (OnOk fun handle w => ∃ object seen,
        Holding inPlace (base ++ [.openedRoot (encodeUtf16 (driveRootName drive)) object])
          handle object seen w) := by
  apply ntOpen_spec (stable_history base)
  · exact fun handle => Stable.exists fun object => Stable.exists fun seen => stable_holding
  rintro w answer w' hw hstatus (⟨hfail, -⟩ | ⟨-, -, -, object, ⟨-, -, event, hopen, rfl⟩ | ⟨hcreate, -⟩⟩)
  · exact absurd hfail hstatus
  · refine ⟨object, w.attributes object, ?_⟩
    cases hopen with
    | root hnames hroot =>
      exact holding_grant _ _ _ hw
    | child hnames _ =>
      obtain ⟨handle, hnone, -⟩ := hnames.root
      contradiction
    | path hroot _ => exact absurd ⟨rfl, drive, rfl⟩ hroot
  · exact absurd (show fileOpen = fileCreate from hcreate) (by decide)

section
variable {known : UInt32} (hsingle : SingleName (encodeUtf16 name))
    (hnoFollow : options &&& fileOpenReparsePoint ≠ 0)
include hsingle hnoFollow

theorem openChild_spec :
    Triple (fileSystem κ inPlace) (Holding inPlace events current parent known)
      (ntOpen (some current) name access attributes share fileOpen options)
      (OnOk fun next w => next ≠ current ∧ ∃ object atOpen, KindMatches options atOpen ∧
        Holding inPlace (events ++ [.openedChild parent (encodeUtf16 name) object atOpen])
          next object atOpen w) := by
  apply ntOpen_spec stable_holding
  · intro next
    apply Stable.and (stable_const _)
    exact Stable.exists fun object => Stable.exists fun atOpen =>
      Stable.and (stable_const _) stable_holding
  rintro w answer w' hw hstatus
    (⟨hfail, -⟩ | ⟨-, -, hnew, object, ⟨-, hkind, event, hopen, rfl⟩ | ⟨hcreate, -⟩⟩)
  · exact absurd hfail hstatus
  · refine ⟨ne_of_holding hw hnew, object, w.attributes object, hkind, ?_⟩
    cases hopen with
    | root hnames _ => exact absurd hnames.1 (by simp)
    | child hnames _ =>
      have hparent := hnames.parent_eq hw
      subst hparent
      exact holding_grant _ _ _ hw.history
    | path _ hchild => exact absurd (namesChild_of_holding hw hsingle hnoFollow) (hchild parent)
  · exact absurd (show fileOpen = fileCreate from hcreate) (by decide)

theorem createChild_spec :
    Triple (fileSystem κ inPlace) (Holding inPlace events current parent known)
      (ntOpen (some current) name access attributes share fileCreate options)
      (OnOk fun file w => ∃ object seen,
        Holding inPlace (events ++ [.createdChild parent (encodeUtf16 name) object])
          file object seen w) := by
  apply ntOpen_spec stable_holding
  · exact fun file => Stable.exists fun object => Stable.exists fun seen => stable_holding
  rintro w answer w' hw hstatus
    (⟨hfail, -⟩ | ⟨-, -, -, object, ⟨hopen, -⟩ | ⟨-, -, -, w₁, hcreate, rfl⟩⟩)
  · exact absurd hfail hstatus
  · exact absurd (show fileCreate = fileOpen from hopen) (by decide)
  · refine ⟨object, w₁.attributes object, ?_⟩
    cases hcreate with
    | child hnames _ =>
      have hparent := hnames.parent_eq hw
      subst hparent
      exact holding_grant _ _ _ (show (w.link _ _ _ _).history = events from hw.history)
    | path hchild _ => exact absurd (namesChild_of_holding hw hsingle hnoFollow) (hchild parent)

end

variable (path : Path)

theorem refuseReparsePoint_spec {handle : Handle} {object : κ} {atOpen : UInt32} :
    Triple (fileSystem κ inPlace) (Holding inPlace events handle object atOpen)
      (refuseReparsePoint handle path)
      (OnOk fun _ w => ∃ seen, (¬ IsReparsePoint seen ∧ (IsDirectory seen ↔ IsDirectory atOpen) ∧
        (¬ inPlace → seen = atOpen)) ∧
        Holding inPlace (events ++ [.inspected object seen]) handle object seen w) := by
  apply Triple.bind_onOk fun seen w => ((IsDirectory seen ↔ IsDirectory atOpen) ∧
    (¬ inPlace → seen = atOpen)) ∧
    Holding inPlace (events ++ [.inspected object seen]) handle object seen w
  · apply Triple.request stable_holding
    · exact stable_onOk fun seen => Stable.and (stable_const _) stable_holding
    rintro w answer w' hw (⟨code, rfl, rfl⟩ | ⟨found, hlookup, rfl, rfl⟩)
    · trivial
    have hfound : found = object := Option.some.inj (hlookup.symm.trans hw.handle)
    subst hfound
    refine ⟨⟨hw.kind, hw.attributes⟩, ?_, hw.handle, Iff.rfl, fun _ => rfl⟩
    rw [← hw.history]
    rfl
  · exact fun code => Triple.error _
  intro seen
  dsimp only
  split
  · exact Triple.error _
  · rename_i hplain
    apply Triple.done (Stable.and (stable_const _) stable_holding)
    exact fun w hw => ⟨seen, ⟨hplain, hw.1⟩, hw.2⟩

variable (dir : Path)

theorem openComponents_spec (base : List (FileEvent κ)) (rootName : List UInt16)
    (components : List PathComponent) (hseparated : ∀ c ∈ components, c.Separated)
    (names : List (List UInt16)) (events : List (FileEvent κ)) (current : Handle) (object : κ)
    (known : UInt32) (hwalk : Walk inPlace rootName names events object) :
    Triple (fileSystem κ inPlace) (Holding inPlace (base ++ events) current object known)
      (openComponents dir components current)
      (OnOk fun last w => ∃ more events' object' known', (components = more.map .normal ∧
        Walk inPlace rootName (names ++ more) events' object') ∧
        Holding inPlace (base ++ events') last object' known' w) := by
  induction components generalizing names events current object known with
  | nil =>
    apply Triple.done stable_holding
    intro w hw
    exact ⟨[], events, object, known, ⟨rfl, by simpa using hwalk⟩, hw⟩
  | cons component components ih =>
    match component with
    | .pathPrefix _ | .rootDir | .curDir | .parentDir =>
      exact Triple.bind_error fun _ => Triple.error _
    | .normal name =>
      have hname : name ≠ [] ∧ 0x5C ∉ name ∧ 0x2F ∉ name := hseparated _ mem_cons_self
      unfold openComponents
      split
      · exact Triple.bind_error fun _ => Triple.error _
      rename_i text htext
      have hunits : encodeUtf16 text = name := encodeUtf16_of_toStr htext
      have hsingle : SingleName (encodeUtf16 text) := by
        rw [hunits]
        exact ⟨hname.1, hname.2.1⟩
      apply Triple.bind_onOk _ (openChild_spec hsingle (by decide))
      · exact fun code => Triple.bind_error fun _ => Triple.error _
      intro next
      apply Triple.of_and
      intro hnext
      apply Triple.of_exists
      intro child
      apply Triple.of_exists
      intro atOpen
      apply Triple.of_and
      intro hkind
      have hopen : IsDirectory atOpen := hkind.1 (by decide)
      apply Triple.bind_onOk _ (refuseReparsePoint_spec dir)
      · exact fun e => Triple.bind_error fun _ => Triple.bind_error fun _ => Triple.error _
      intro _
      apply Triple.of_exists
      intro seen
      apply Triple.of_and
      rintro ⟨hplain, hsame, hfixed⟩
      apply Triple.bind _ (dropHandle_holding _ _ _ hnext)
      intro _
      -- the walk is one child longer
      have hwalk' : Walk inPlace rootName (names ++ [name])
          (events ++ [.openedChild object name child atOpen, .inspected child seen]) child :=
        hwalk.child hopen (fun h => hfixed h ▸ hplain) ⟨hsame.mpr hopen, hplain⟩
      have htail := ih (fun c hc => hseparated c (mem_cons_of_mem _ hc)) (names ++ [name])
        _ next child seen hwalk'
      apply htail.weaken
      · intro w hw
        rw [hunits] at hw
        simpa using hw
      · rintro (e | last) w hw
        · trivial
        obtain ⟨more, events', object', known', ⟨hmore, hlonger⟩, hlast⟩ := hw
        refine ⟨name :: more, events', object', known', ⟨?_, by simpa using hlonger⟩, hlast⟩
        rw [hmore, map_cons]

theorem Path.separated_of_disk {letter : UInt8} {components : List PathComponent}
    (h : dir.components = .pathPrefix (.disk letter) :: components) :
    ∀ c ∈ components, c.Separated := by
  intro c hc
  have hmem : c ∈ dir.components := by
    rw [h]
    exact mem_cons_of_mem _ hc
  obtain ⟨piece, hpiece, rfl⟩ := mem_map.mp hmem
  apply dir.separated _ piece hpiece
  intro first hfirst
  have hhead : dir.components.head? = some first.component := by
    rw [Path.components, List.head?_map, Option.mem_def.mp hfirst]
    rfl
  rw [h] at hhead
  rw [← Option.some.inj hhead]
  rfl

theorem openDirectoryChain_spec (base : List (FileEvent κ)) :
    Triple (fileSystem κ inPlace) (fun w => w.history = base) (openDirectoryChain dir)
      (OnOk fun handle w => ∃ events object known, Reached inPlace dir.components events object ∧
        Holding inPlace (base ++ events) handle object known w) := by
  unfold openDirectoryChain
  split
  · rename_i letter components hdir
    have hseparated := dir.separated_of_disk hdir
    apply Triple.bind_onOk _ (openRoot_spec base _)
    · exact fun code => Triple.error _
    intro root
    apply Triple.of_exists
    intro object
    apply Triple.of_exists
    intro known
    have hstart : Walk inPlace (encodeUtf16 (driveRootName (Char.ofNat letter.toNat))) []
        [.openedRoot (encodeUtf16 (driveRootName (Char.ofNat letter.toNat))) object] object :=
      Walk.root object
    have hchain := openComponents_spec dir base _ components
      (fun c hc => hseparated c (mem_cons_of_mem _ hc)) [] _ root object known hstart
    apply hchain.weaken (fun w hw => hw)
    rintro (e | last) w hw
    · trivial
    obtain ⟨names, events, object', known', ⟨hnames, hwalk⟩, hlast⟩ := hw
    refine ⟨events, object', known', ⟨letter, names, ?_, hwalk⟩, hlast⟩
    rw [hdir, hnames]
  · exact Triple.error _
  · exact Triple.error _
  · exact Triple.error _

section
variable (file : Handle) (object : κ) (seen : UInt32) (remaining : Bytes)
    (events : List (FileEvent κ))

theorem writeRemaining_written :
    Triple (fileSystem κ inPlace) (Holding inPlace events file object seen)
      (writeRemaining dir file remaining)
      fun result w => ∃ chunks : List Bytes, w.history = events ++ chunks.map (.wrote object) ∧
        (result = .ok () ∧ chunks.flatten = remaining ∨
          (∃ code, result = .error (fileError dir "write file" code)) ∧
            chunks.flatten <+: remaining ∧ chunks.flatten.length < remaining.length) := by
  induction hlen : remaining.length using Nat.strong_induction_on generalizing remaining events with
  | _ length ih =>
    subst hlen
    unfold writeRemaining
    split
    · rename_i hempty
      apply Triple.done stable_holding
      intro w hw
      exact ⟨[], by simpa using hw.history, Or.inl ⟨rfl, hempty.symm⟩⟩
    rename_i hrest
    have hpos : 0 < remaining.length := length_pos_iff.mpr hrest
    -- what a call has done: nothing if it fails
    apply Triple.bind (OnResult (fun _ => Holding inPlace events file object seen) fun written w =>
      written.toNat ≤ remaining.length ∧
        Holding inPlace (events ++ [.wrote object (remaining.take written.toNat)]) file object seen w)
    · apply Triple.request stable_holding
      · exact stable_onResult (fun _ => stable_holding) fun _ => Stable.and (stable_const _) stable_holding
      rintro w answer w' hw (⟨code, rfl, rfl⟩ | ⟨found, written, hlookup, rfl, hle, rfl⟩)
      · exact hw
      have hfound : found = object := Option.some.inj (hlookup.symm.trans hw.handle)
      subst hfound
      refine ⟨hle, ?_, hw.handle, hw.kind, hw.attributes⟩
      rw [← hw.history]
      rfl
    rintro (code | written)
    · apply Triple.done stable_holding
      intro w hw
      exact ⟨[], by simpa using hw.history, Or.inr ⟨⟨code, rfl⟩, nil_prefix, hpos⟩⟩
    apply Triple.of_and
    intro hle
    dsimp only
    split
    · rename_i hzero
      apply Triple.done stable_holding
      intro w hw
      subst hzero
      exact ⟨[[]], by simpa using hw.history, Or.inr ⟨⟨0, rfl⟩, nil_prefix, hpos⟩⟩
    rename_i hsome
    have hwritten : written.toNat ≠ 0 := fun hzero => hsome (UInt32.toNat_inj.mp hzero)
    have hshorter : (remaining.drop written.toNat).length < remaining.length := by
      rw [length_drop]
      omega
    apply (ih _ hshorter _ _ rfl).weaken (fun w hw => hw)
    rintro result w ⟨chunks, hhistory, hresult⟩
    refine ⟨remaining.take written.toNat :: chunks, by simpa using hhistory, ?_⟩
    rw [flatten_cons]
    rcases hresult with ⟨hok, hchunks⟩ | ⟨herror, hchunks, hlength⟩
    · exact Or.inl ⟨hok, by rw [hchunks, take_append_drop]⟩
    · refine Or.inr ⟨herror, ?_, ?_⟩
      · have hall := (prefix_append_right_inj (remaining.take written.toNat)).mpr hchunks
        rwa [take_append_drop] at hall
      · rw [length_drop] at hlength
        rw [length_append, length_take]
        omega

theorem writeRemaining_spec :
    Triple (fileSystem κ inPlace) (Holding inPlace events file object seen)
      (writeRemaining dir file remaining)
      (OnOk fun _ w => ∃ chunks : List Bytes, chunks.flatten = remaining ∧
        w.history = events ++ chunks.map (.wrote object)) := by
  apply (writeRemaining_written dir file object seen remaining events).weaken fun _ hw => hw
  rintro (e | _) w ⟨chunks, hhistory, hresult⟩
  · trivial
  rcases hresult with ⟨-, hchunks⟩ | ⟨⟨code, herror⟩, -⟩
  · exact ⟨chunks, hchunks, hhistory⟩
  · cases herror

end

theorem singleName_of_validateFileName (h : validateFileName name = .ok ()) :
    SingleName (encodeUtf16 name) := by
  unfold validateFileName at h
  split_ifs at h with hbad
  simp only [not_or] at hbad
  obtain ⟨hne, -, -, hchars, -⟩ := hbad
  constructor
  · intro hempty
    apply hne
    rw [← decodeUtf16Lossy_encodeUtf16 name, hempty]
    rfl
  · intro hslash
    have hmem := mem_of_mem_encodeUtf16 name 0x5C hslash (by decide)
    exact hchars (any_eq_true.mpr ⟨_, hmem, by decide⟩)

/-- The file is a new child of a directory that was reached without following a link, and the
content went to that file. -/
def CreatedUnfollowed (inPlace : Prop) (dir : Path) (name : Text) (content : Bytes)
    (events : List (FileEvent κ)) : Prop :=
  ∃ (walk : List (FileEvent κ)) (parent file : κ) (chunks : List Bytes),
    Reached inPlace dir.components walk parent ∧ chunks.flatten = content ∧
    events = walk ++ .createdChild parent (encodeUtf16 name) file :: chunks.map (.wrote file)

theorem createNewNoFollow_spec (name : Text) (content : Bytes) (hidden : Bool)
    (base : List (FileEvent κ)) :
    Triple (fileSystem κ inPlace) (fun w => w.history = base)
      (createNewNoFollow dir name content hidden)
      (OnOk fun _ w => ∃ events, CreatedUnfollowed inPlace dir name content events ∧
        w.history = base ++ events) := by
  unfold createNewNoFollow
  split
  · exact Triple.error _
  rename_i hvalid
  have hsingle := singleName_of_validateFileName hvalid
  apply Triple.bind_onOk _ (openDirectoryChain_spec dir base)
  · exact fun e => Triple.error e
  intro parent
  apply Triple.of_exists
  intro walk
  apply Triple.of_exists
  intro directory
  apply Triple.of_exists
  intro known
  apply Triple.of_and
  intro hreached
  apply Triple.bind_onOk _ (createChild_spec hsingle (by decide))
  · exact fun code => Triple.bind_error fun _ => Triple.error _
  intro file
  apply Triple.of_exists
  intro object
  apply Triple.of_exists
  intro seen
  apply Triple.bind_onOk _ (writeRemaining_spec dir file object seen content _)
  · exact fun e => Triple.bind_error fun _ => Triple.bind_error fun _ => Triple.error e
  intro _
  apply Triple.of_exists
  intro chunks
  apply Triple.of_and
  intro hchunks
  apply (drop_both_history _ file parent _).weaken (fun w hw => hw)
  rintro _ w ⟨rfl, hw⟩
  refine ⟨_, ⟨walk, directory, object, chunks, hreached, hchunks, rfl⟩, ?_⟩
  simpa using hw

/-- The object is a child of a directory that was reached without following a link, and it was
seen to be no reparse point before it was deleted. -/
def DeletedUnfollowed (inPlace : Prop) (path : Path) (events : List (FileEvent κ)) : Prop :=
  ∃ components walk parent name file atOpen seen atDelete,
    path.components = components ++ [.normal name] ∧ Reached inPlace components walk parent ∧
    ¬ IsReparsePoint seen ∧
    (¬ inPlace → ¬ IsReparsePoint atOpen ∧ ¬ IsReparsePoint atDelete) ∧
    events = walk ++ [.openedChild parent name file atOpen, .inspected file seen,
      .deleted file atDelete]

theorem markDeleted_spec {file : Handle} {object : κ} {atOpen : UInt32} :
    Triple (fileSystem κ inPlace) (Holding inPlace events file object atOpen)
      (markDeleted file path)
      (OnOk fun _ w => ∃ seen atDelete, (¬ IsReparsePoint seen ∧
        (¬ inPlace → ¬ IsReparsePoint atOpen ∧ ¬ IsReparsePoint atDelete)) ∧
        w.history = events ++ [.inspected object seen, .deleted object atDelete]) := by
  apply Triple.bind_onOk _ (refuseReparsePoint_spec path)
  · exact fun e => Triple.error e
  intro _
  apply Triple.of_exists
  intro seen
  apply Triple.of_and
  rintro ⟨hplain, -, hfixed⟩
  apply Triple.bind_onOk fun _ w => ∃ atDelete, (¬ inPlace → atDelete = seen) ∧
    w.history = events ++ [.inspected object seen, .deleted object atDelete]
  · apply Triple.request stable_holding
    · exact stable_onOk fun _ => Stable.exists fun atDelete =>
        Stable.and (stable_const _) (stable_history _)
    rintro w answer w' hw (⟨code, rfl, rfl⟩ | ⟨found, hlookup, rfl, rfl⟩)
    · trivial
    have hfound : found = object := Option.some.inj (hlookup.symm.trans hw.handle)
    subst hfound
    refine ⟨w.attributes found, hw.attributes, ?_⟩
    simp only [FileWorld.record, hw.history, append_assoc, cons_append, nil_append]
  · exact fun code => Triple.error _
  intro _
  apply Triple.of_exists
  intro atDelete
  apply Triple.of_and
  intro hdelete
  apply Triple.done (stable_history _)
  intro w hw
  exact ⟨seen, atDelete, ⟨hplain, fun h => ⟨hfixed h ▸ hplain, (hdelete h).symm ▸ hplain⟩⟩, hw⟩

theorem Path.components_of_parent {path dir : Path} {name : List UInt16}
    (hparent : path.parent = some dir) (hname : path.fileName = some name) :
    path.components = dir.components ++ [.normal name] := by
  unfold Path.fileName at hname
  split at hname
  · rename_i last hlast
    cases hname
    unfold Path.parent at hparent
    rw [hlast] at hparent
    have hdir : path.withoutLast = dir := Option.some.inj hparent
    have hcomponents : dir.components = path.components.dropLast := by
      rw [← hdir]
      simp only [Path.components, Path.withoutLast, map_dropLast]
    rw [hcomponents]
    exact (dropLast_append_getLast? _ (Option.mem_def.mpr hlast)).symm
  · contradiction

theorem deleteNoFollow_spec (base : List (FileEvent κ)) :
    Triple (fileSystem κ inPlace) (fun w => w.history = base) (deleteNoFollow path)
      (OnOk fun _ w => ∃ events, DeletedUnfollowed inPlace path events ∧
        w.history = base ++ events) := by
  unfold deleteNoFollow
  split
  · rename_i dir name hparent hname
    obtain ⟨units, hfileName, hunits⟩ := Option.bind_eq_some_iff.mp hname
    have hcomponents := Path.components_of_parent hparent hfileName
    rw [← encodeUtf16_of_toStr hunits] at hcomponents
    split
    · exact Triple.error _
    rename_i hvalid
    have hsingle := singleName_of_validateFileName hvalid
    apply Triple.bind_onOk _ (openDirectoryChain_spec dir base)
    · exact fun e => Triple.error e
    intro parent
    apply Triple.of_exists
    intro walk
    apply Triple.of_exists
    intro directory
    apply Triple.of_exists
    intro known
    apply Triple.of_and
    intro hreached
    apply Triple.bind_onOk _ (openChild_spec hsingle (by decide))
    · exact fun code => Triple.bind_error fun _ => Triple.error _
    intro file
    apply Triple.of_and
    intro _
    apply Triple.of_exists
    intro object
    apply Triple.of_exists
    intro atOpen
    apply Triple.of_and
    intro _
    apply Triple.bind_onOk _ (markDeleted_spec path)
    · exact fun e => Triple.bind_error fun _ => Triple.bind_error fun _ => Triple.error e
    intro _
    apply Triple.of_exists
    intro seen
    apply Triple.of_exists
    intro atDelete
    apply Triple.of_and
    rintro ⟨hplain, hfixed⟩
    apply (drop_both_history _ file parent _).weaken (fun w hw => hw)
    rintro _ w ⟨rfl, hw⟩
    refine ⟨_, ⟨dir.components, walk, directory, encodeUtf16 name, object, atOpen, seen, atDelete,
      hcomponents, hreached, hplain, hfixed, rfl⟩, ?_⟩
    simpa using hw
  · exact Triple.error _

theorem runs_ntOpen {W : Type} {sys : System FileCall FileCall.Answer W} {root : Option Handle}
    {w w' : W} (handle : Handle) (hlen : (encodeUtf16 name).length*2 ≤ 0xFFFF)
    (hstep : sys.step (.ntCreateFile
      ⟨root, encodeUtf16 name, access, attributes, share, disposition, options⟩) w
      (⟨0, handle⟩ : CreateAnswer) w') :
    Runs sys (ntOpen root name access attributes share disposition options) w (.ok handle) w' := by
  unfold ntOpen
  dsimp only
  rw [if_neg (by omega)]
  apply Runs.request_bind (x := (⟨0, handle⟩ : CreateAnswer)) hstep
  dsimp only
  rw [if_neg (by decide)]
  exact .done _ _

theorem runs_refuseReparsePoint {handle : Handle} (object : κ)
    (hopen : w.handles.lookup handle = some object)
    (hplain : ¬ IsReparsePoint (w.attributes object)) :
    Runs (fileSystem κ inPlace).alone (refuseReparsePoint handle path) w (.ok ())
      (w.record (.inspected object (w.attributes object))) := by
  apply Runs.request_bind (x := (Except.ok (w.attributes object) : Except Int32 UInt32))
  · exact Or.inr ⟨object, hopen, rfl, rfl⟩
  · dsimp only
    rw [if_neg (show ¬ (w.attributes object &&& fileAttributeReparsePoint ≠ 0) from hplain)]
    exact .done _ _

theorem runs_dropHandle {handle : Handle} (w : FileWorld κ) (hvalid : handle.isInvalid = false) :
    Runs (fileSystem κ inPlace).alone (dropHandle handle) w ()
      { w with handles := w.handles.filter (·.1 ≠ handle) } := by
  unfold dropHandle
  rw [hvalid]
  exact Runs.call (x := ()) rfl (.done _ _)

def plainTree (file : Option ℕ) : FileWorld ℕ where
  volumeRoot _ := some 0
  entry directory _ := if directory = 0 then some 1 else if directory = 1 then file else none
  attributes object := if object = 2 then fileAttributeNormal else fileAttributeDirectory
  handles := []
  history := []

def plainDirectory : Path where
  pieces := [⟨[0x43, 0x3A], .pathPrefix (.disk 0x43)⟩, ⟨[0x5C], .rootDir⟩, ⟨[0x64], .normal [0x64]⟩]
  trailing := []
  separated _ := by simp [PathComponent.Separated]

def plainFile : Path where
  pieces := plainDirectory.pieces ++ [⟨[0x5C, 0x61], .normal [0x61]⟩]
  trailing := []
  separated _ := by simp [plainDirectory, PathComponent.Separated]

def walkedTree (file : Option ℕ) : FileWorld ℕ :=
  { plainTree file with
    handles := [(⟨8⟩, 1)]
    history := [.openedRoot (encodeUtf16 (driveRootName 'C')) 0,
      .openedChild 0 [0x64] 1 fileAttributeDirectory, .inspected 1 fileAttributeDirectory] }

theorem createFileStep_open {request : CreateRequest} {handle : Handle} {event : FileEvent κ}
    (hopen : request.createDisposition = fileOpen)
    (hkind : KindMatches request.createOptions (w.attributes object))
    (hvalid : handle.isInvalid = false) (hnew : ∀ object, (handle, object) ∉ w.handles)
    (hopens : Opens w request object event) :
    createFileStep request w ⟨0, handle⟩ ((w.record event).grant handle object) :=
  Or.inr ⟨show ¬ (0 : Int32) < 0 by decide, hvalid, hnew, object,
    Or.inl ⟨hopen, hkind, event, hopens, rfl⟩⟩

theorem createFileStep_create {request : CreateRequest} {w₁ : FileWorld κ} {handle : Handle}
    (hcreate : request.createDisposition = fileCreate) (hvalid : handle.isInvalid = false)
    (hnew : ∀ object, (handle, object) ∉ w.handles)
    (hclosed : ∀ handle, (handle, object) ∉ w.handles)
    (hfresh : ∀ parent name, w.entry parent name ≠ some object)
    (hcreates : Creates w request object w₁) :
    createFileStep request w ⟨0, handle⟩ (w₁.grant handle object) :=
  Or.inr ⟨show ¬ (0 : Int32) < 0 by decide, hvalid, hnew, object,
    Or.inr ⟨hcreate, hclosed, hfresh, w₁, hcreates, rfl⟩⟩

theorem directory_matches : KindMatches directoryOptions fileAttributeDirectory := by decide

theorem openDirectoryChain_plain (file : Option ℕ) :
    Runs (fileSystem ℕ inPlace).alone (openDirectoryChain plainDirectory) (plainTree file) (.ok ⟨8⟩)
      (walkedTree file) := by
  have hcomponents : plainDirectory.components =
    [.pathPrefix (.disk 0x43), .rootDir, .normal [0x64]] := rfl
  have hname : toStr [0x64] = some ['d'] := by decide
  rw [openDirectoryChain, hcomponents]
  dsimp only
  apply Runs.bind
  · apply runs_ntOpen ⟨4⟩ (by decide)
    apply createFileStep_open 0 rfl directory_matches (by decide) (by simp [plainTree])
    exact .root ⟨rfl, 'C', rfl⟩ rfl
  dsimp only
  rw [openComponents, hname]
  dsimp only
  apply Runs.bind
  · apply runs_ntOpen ⟨8⟩ (by decide)
    apply createFileStep_open 1 rfl directory_matches (by decide)
      (by simp [plainTree, FileWorld.record, FileWorld.grant])
    exact .child ⟨⟨⟨4⟩, rfl, rfl⟩, show SingleName (encodeUtf16 ['d']) by decide, by decide⟩ rfl
  dsimp only
  apply Runs.bind
  · apply runs_refuseReparsePoint plainDirectory 1 rfl
    exact show ¬ IsReparsePoint fileAttributeDirectory by decide
  dsimp only
  apply Runs.bind (runs_dropHandle _ (by decide))
  exact .done _ _

def createdTree : FileWorld ℕ :=
  (((walkedTree none).link 1 [0x61] 2 fileAttributeNormal).record (.createdChild 1 [0x61] 2)).grant ⟨12⟩ 2

theorem createNewNoFollow_runs {content : Bytes} {result : Except SafeError Unit} {w : FileWorld ℕ}
    (hwrite : Runs (fileSystem ℕ inPlace).alone (writeRemaining plainDirectory ⟨12⟩ content) createdTree
      result w) :
    Runs (fileSystem ℕ inPlace).alone (createNewNoFollow plainDirectory ['a'] content false)
      (plainTree none) result
      { w with handles := (w.handles.filter (·.1 ≠ ⟨12⟩)).filter (·.1 ≠ ⟨8⟩) } := by
  have hvalid : validateFileName ['a'] = .ok () := by simp [validateFileName]
  have hcreate : Runs (fileSystem ℕ inPlace).alone (ntOpen (some ⟨8⟩) ['a']
      (genericWrite ||| synchronize ||| fileReadAttributes) fileAttributeNormal 0 fileCreate
      createOptions) (walkedTree none) (.ok ⟨12⟩) createdTree := by
    apply runs_ntOpen ⟨12⟩ (by decide)
    apply createFileStep_create 2 rfl (by decide) (by simp [walkedTree]) (by simp [walkedTree])
    · intro parent name
      simp only [walkedTree, plainTree]
      split_ifs <;> simp
    · exact .child ⟨⟨⟨8⟩, rfl, rfl⟩, show SingleName (encodeUtf16 ['a']) by decide, by decide⟩ rfl
  rw [createNewNoFollow, hvalid]
  apply Runs.bind (openDirectoryChain_plain none)
  apply Runs.bind hcreate
  apply Runs.bind hwrite
  apply Runs.bind (runs_dropHandle _ (by decide))
  apply Runs.bind (runs_dropHandle _ (by decide))
  exact .done _ _

theorem runs_writeRemaining {dir : Path} {file : Handle} {remaining : Bytes} (written : UInt32)
    {result : Except SafeError Unit} {w' : FileWorld κ} {object : κ} (hrest : remaining ≠ [])
    (hsome : written ≠ 0) (hle : written.toNat ≤ remaining.length)
    (hopen : w.handles.lookup file = some object)
    (hmore : Runs (fileSystem κ inPlace).alone (writeRemaining dir file (remaining.drop written.toNat))
      (w.record (.wrote object (remaining.take written.toNat))) result w') :
    Runs (fileSystem κ inPlace).alone (writeRemaining dir file remaining) w result w' := by
  rw [writeRemaining, dif_neg hrest]
  apply Runs.request_bind (x := (Except.ok written : Except Int32 UInt32))
  · exact Or.inr ⟨object, written, hopen, rfl, hle, rfl⟩
  dsimp only
  rw [dif_neg hsome]
  exact hmore

theorem createNewNoFollow_plain :
    ∃ w', Runs (fileSystem ℕ inPlace).alone (createNewNoFollow plainDirectory ['a'] [7] false)
      (plainTree none) (.ok ()) w' := by
  have hwrite : Runs (fileSystem ℕ inPlace).alone (writeRemaining plainDirectory ⟨12⟩ [7]) createdTree
      (.ok ()) (createdTree.record (.wrote 2 [7])) := by
    apply runs_writeRemaining 1 (by decide) (by decide) (by decide) rfl
    rw [show List.drop (1 : UInt32).toNat [(7 : UInt8)] = [] from rfl, writeRemaining]
    exact .done _ _
  exact ⟨_, createNewNoFollow_runs hwrite⟩

theorem deleteNoFollow_returns {path : Path} (hparent : path.parent = some plainDirectory)
    (hname : path.fileName.bind toStr = some name) (hvalid : validateFileName name = .ok ())
    (hsingle : SingleName (encodeUtf16 name)) (hlength : (encodeUtf16 name).length*2 ≤ 65535) :
    ∃ w', Runs (fileSystem ℕ inPlace).alone (deleteNoFollow path) (plainTree (some 2)) (.ok ()) w' := by
  rw [deleteNoFollow, hparent, hname]
  dsimp only
  rw [hvalid]
  apply Exists.intro
  apply Runs.bind (openDirectoryChain_plain (some 2))
  apply Runs.bind
  · apply runs_ntOpen ⟨12⟩ hlength
    apply createFileStep_open 2 rfl (show KindMatches createOptions fileAttributeNormal by decide)
      (by decide) (by simp [walkedTree])
    exact .child ⟨⟨⟨8⟩, rfl, rfl⟩, hsingle,
      show createOptions &&& fileOpenReparsePoint ≠ 0 by decide⟩ rfl
  dsimp only
  apply Runs.bind
  · apply Runs.bind
    · apply runs_refuseReparsePoint path 2 rfl
      exact show ¬ IsReparsePoint fileAttributeNormal by decide
    apply Runs.request_bind (x := (Except.ok () : Except Int32 Unit))
    · exact Or.inr ⟨2, rfl, rfl, rfl⟩
    · exact .done _ _
  apply Runs.bind (runs_dropHandle _ (by decide))
  apply Runs.bind (runs_dropHandle _ (by decide))
  exact .done _ _

theorem deleteNoFollow_plain :
    ∃ w', Runs (fileSystem ℕ inPlace).alone (deleteNoFollow plainFile) (plainTree (some 2)) (.ok ()) w' := by
  have hname : plainFile.fileName.bind toStr = some ['a'] := by decide
  have hvalid : validateFileName ['a'] = .ok () := by simp [validateFileName]
  exact deleteNoFollow_returns rfl hname hvalid (by decide) (by decide)

/-- Each call creates or deletes its file in a directory that was reached from the drive root
without following a reparse point, whatever the others did in between. -/
theorem reparse_points_not_followed (dir path : Path) (name : Text) (content : Bytes)
    (hidden : Bool) (w w' : FileWorld κ) :
    (Runs (fileSystem κ inPlace) (createNewNoFollow dir name content hidden) w (.ok ()) w' →
      ∃ events, CreatedUnfollowed inPlace dir name content events ∧
        w'.history = w.history ++ events) ∧
    (Runs (fileSystem κ inPlace) (deleteNoFollow path) w (.ok ()) w' →
      ∃ events, DeletedUnfollowed inPlace path events ∧ w'.history = w.history ++ events) := by
  constructor
  · exact (createNewNoFollow_spec dir name content hidden w.history).sound w (.ok ()) w' rfl
  · exact (deleteNoFollow_spec path w.history).sound w (.ok ()) w' rfl

theorem reparse_points_not_followed_plain :
    (∃ events : List (FileEvent ℕ), CreatedUnfollowed True plainDirectory ['a'] [7] events) ∧
      ∃ events : List (FileEvent ℕ), DeletedUnfollowed False plainFile events := by
  constructor
  · obtain ⟨w', hrun⟩ := createNewNoFollow_plain
    obtain ⟨events, hevents, -⟩ :=
      (reparse_points_not_followed plainDirectory plainFile ['a'] [7] false _ w').1 hrun.of_alone
    exact ⟨events, hevents⟩
  · obtain ⟨w', hrun⟩ := deleteNoFollow_plain
    obtain ⟨events, hevents, -⟩ :=
      (reparse_points_not_followed plainDirectory plainFile ['a'] [7] false _ w').2 hrun.of_alone
    exact ⟨events, hevents⟩

end WindowsErg.File
