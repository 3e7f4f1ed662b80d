import WindowsErg.CallProgram
import WindowsErg.UnicodeText

/-! Creating and deleting files without following reparse points, `src/file/safe.rs`, while other
processes change the file system. -/
namespace WindowsErg.File
open List TextScan ByteCodec UnicodeText CallProgram

inductive PathPrefix where
  | verbatim (name : List UInt16)
  | verbatimUnc (server share : List UInt16)
  | verbatimDisk (letter : UInt8)
  | deviceNs (name : List UInt16)
  | unc (server share : List UInt16)
  | disk (letter : UInt8)

def PathPrefix.isVerbatim : PathPrefix → Bool
  | .verbatim _ | .verbatimUnc _ _ | .verbatimDisk _ => true
  | .deviceNs _ | .unc _ _ | .disk _ => false

inductive PathComponent where
  | pathPrefix (kind : PathPrefix)
  | rootDir
  | curDir
  | parentDir
  | normal (name : List UInt16)

def PathComponent.isVerbatim : PathComponent → Bool
  | .pathPrefix kind => kind.isVerbatim
  | _ => false

def PathComponent.Separated : PathComponent → Prop
  | .normal name => name ≠ [] ∧ 0x5C ∉ name ∧ 0x2F ∉ name
  | _ => True

structure PathPiece where
  text : List UInt16
  component : PathComponent

/-- A path as `Path::components` takes it apart. Both separators count, except in a path that
starts with a verbatim prefix. -/
structure Path where
  pieces : List PathPiece
  trailing : List UInt16
  separated : (∀ piece ∈ pieces.head?, piece.component.isVerbatim = false) →
    ∀ piece ∈ pieces, piece.component.Separated

def Path.components (path : Path) : List PathComponent := path.pieces.map (·.component)

def Path.display (path : Path) : Text :=
  decodeUtf16Lossy (path.pieces.flatMap (·.text) ++ path.trailing)

theorem separated_dropLast {pieces : List PathPiece}
    (h : (∀ piece ∈ pieces.head?, piece.component.isVerbatim = false) →
      ∀ piece ∈ pieces, piece.component.Separated)
    (hhead : ∀ piece ∈ pieces.dropLast.head?, piece.component.isVerbatim = false) :
    ∀ piece ∈ pieces.dropLast, piece.component.Separated := by
  intro piece hpiece
  apply h _ piece (mem_of_mem_dropLast hpiece)
  -- what is left is not empty, so its head is the head of the whole
  match pieces, hhead, hpiece with
  | first :: second :: rest, hhead, _ => exact hhead

def Path.withoutLast (path : Path) : Path :=
  ⟨path.pieces.dropLast, [], separated_dropLast path.separated⟩

def Path.parent (path : Path) : Option Path :=
  match path.components.getLast? with
  | some (.normal _) | some .curDir | some .parentDir => some path.withoutLast
  | _ => none

def Path.fileName (path : Path) : Option (List UInt16) :=
  match path.components.getLast? with
  | some (.normal name) => some name
  | _ => none

/-- `OsStr::to_str`: no surrogate of the name is unpaired. -/
def toStr (name : List UInt16) : Option Text :=
  let text := decodeUtf16Lossy name
  if encodeUtf16 text = name then some text else none

theorem encodeUtf16_of_toStr {name : List UInt16} {text : Text} (h : toStr name = some text) :
    encodeUtf16 text = name := by
  unfold toStr at h
  dsimp only at h
  split_ifs at h with he
  rwa [← Option.some.inj h]

structure Handle where
  value : ℤ
  deriving DecidableEq

def Handle.isInvalid (handle : Handle) : Bool := handle.value = 0 || handle.value = -1

def fileAttributeHidden : UInt32 := 0x2
def fileAttributeDirectory : UInt32 := 0x10
def fileAttributeNormal : UInt32 := 0x80
def fileAttributeReparsePoint : UInt32 := 0x400

def IsDirectory (attributes : UInt32) : Prop := attributes &&& fileAttributeDirectory ≠ 0

def IsReparsePoint (attributes : UInt32) : Prop := attributes &&& fileAttributeReparsePoint ≠ 0

instance (attributes : UInt32) : Decidable (IsDirectory attributes) :=
  inferInstanceAs (Decidable (_ ≠ _))

instance (attributes : UInt32) : Decidable (IsReparsePoint attributes) :=
  inferInstanceAs (Decidable (_ ≠ _))

def fileListDirectory : UInt32 := 0x1
def fileTraverse : UInt32 := 0x20
def fileReadAttributes : UInt32 := 0x80
def deleteAccess : UInt32 := 0x10000
def synchronize : UInt32 := 0x100000
def genericWrite : UInt32 := 0x40000000

def fileShareRead : UInt32 := 0x1
def fileShareWrite : UInt32 := 0x2

def fileOpen : UInt32 := 1
def fileCreate : UInt32 := 2

def fileDirectoryFile : UInt32 := 0x1
def fileSynchronousIoNonalert : UInt32 := 0x20
def fileNonDirectoryFile : UInt32 := 0x40
def fileOpenForBackupIntent : UInt32 := 0x4000
def fileOpenReparsePoint : UInt32 := 0x200000

structure CreateRequest where
  rootDirectory : Option Handle
  objectName : List UInt16
  desiredAccess : UInt32
  fileAttributes : UInt32
  shareAccess : UInt32
  createDisposition : UInt32
  createOptions : UInt32

inductive FileEvent (κ : Type) where
  | openedRoot (name : List UInt16) (object : κ)
  | openedChild (parent : κ) (name : List UInt16) (object : κ) (attributes : UInt32)
  /-- The system walked a name of several components, or followed a link. -/
  | openedPath (name : List UInt16) (object : κ)
  | createdChild (parent : κ) (name : List UInt16) (object : κ)
  | createdPath (name : List UInt16) (object : κ)
  | inspected (object : κ) (attributes : UInt32)
  | wrote (object : κ) (bytes : Bytes)
  | deleted (object : κ) (attributes : UInt32)

structure FileWorld (κ : Type) where
  volumeRoot : List UInt16 → Option κ
  entry : κ → List UInt16 → Option κ
  attributes : κ → UInt32
  handles : List (Handle × κ)
  history : List (FileEvent κ)

def driveRootName (drive : Char) : Text := "\\??\\".toList ++ drive :: ":\\".toList

section World
variable {κ : Type} [DecidableEq κ]

def FileWorld.record (w : FileWorld κ) (event : FileEvent κ) : FileWorld κ :=
  { w with history := w.history ++ [event] }

def FileWorld.grant (w : FileWorld κ) (handle : Handle) (object : κ) : FileWorld κ :=
  { w with handles := (handle, object) :: w.handles }

def FileWorld.link (w : FileWorld κ) (parent : κ) (name : List UInt16) (object : κ)
    (attributes : UInt32) : FileWorld κ :=
  { w with
    entry := fun p n => if p = parent ∧ n = name then some object else w.entry p n
    attributes := Function.update w.attributes object attributes }

def SingleName (name : List UInt16) : Prop := name ≠ [] ∧ 0x5C ∉ name

instance (name : List UInt16) : Decidable (SingleName name) := inferInstanceAs (Decidable (_ ∧ _))

structure NamesChild (w : FileWorld κ) (request : CreateRequest) (parent : κ) : Prop where
  root : ∃ handle, request.rootDirectory = some handle ∧ w.handles.lookup handle = some parent
  single : SingleName request.objectName
  noFollow : request.createOptions &&& fileOpenReparsePoint ≠ 0

def NamesRoot (request : CreateRequest) : Prop :=
  request.rootDirectory = none ∧ ∃ drive, request.objectName = encodeUtf16 (driveRootName drive)

/-- What an open can reach. Nothing is assumed where the system walks the name itself. -/
inductive Opens (w : FileWorld κ) (request : CreateRequest) : κ → FileEvent κ → Prop
  | root {object : κ} (hnames : NamesRoot request)
      (hroot : w.volumeRoot request.objectName = some object) :
      Opens w request object (.openedRoot request.objectName object)
  | child {parent object : κ} (hnames : NamesChild w request parent)
      (hentry : w.entry parent request.objectName = some object) :
      Opens w request object
        (.openedChild parent request.objectName object (w.attributes object))
  | path {object : κ} (hroot : ¬ NamesRoot request) (hchild : ∀ parent, ¬ NamesChild w request parent) :
      Opens w request object (.openedPath request.objectName object)

def KindMatches (options attributes : UInt32) : Prop :=
  (options &&& fileDirectoryFile ≠ 0 → IsDirectory attributes) ∧
    (options &&& fileNonDirectoryFile ≠ 0 → ¬ IsDirectory attributes)

instance (options attributes : UInt32) : Decidable (KindMatches options attributes) :=
  inferInstanceAs (Decidable (_ ∧ _))

def createdAttributes (request : CreateRequest) : UInt32 :=
  if request.createOptions &&& fileDirectoryFile ≠ 0 then
    request.fileAttributes ||| fileAttributeDirectory
  else request.fileAttributes &&& ~~~fileAttributeDirectory

inductive Creates (w : FileWorld κ) (request : CreateRequest) (object : κ) : FileWorld κ → Prop
  | child {parent : κ} (hnames : NamesChild w request parent)
      (hfree : w.entry parent request.objectName = none) :
      Creates w request object
        ((w.link parent request.objectName object (createdAttributes request)).record
          (.createdChild parent request.objectName object))
  | path {parent : κ} {name : List UInt16} (hchild : ∀ parent, ¬ NamesChild w request parent)
      (hfree : w.entry parent name = none) :
      Creates w request object
        ((w.link parent name object (createdAttributes request)).record
          (.createdPath request.objectName object))

end World

structure CreateAnswer where
  status : Int32
  handle : Handle

inductive FileCall where
  | ntCreateFile (request : CreateRequest)
  | rtlNtStatusToDosError (status : Int32)
  | getFileInformationByHandle (handle : Handle)
  | writeFile (handle : Handle) (buffer : Bytes)
  | setDispositionDelete (handle : Handle)
  | closeHandle (handle : Handle)

abbrev FileCall.Answer : FileCall → Type
  | .ntCreateFile _ => CreateAnswer
  | .rtlNtStatusToDosError _ => UInt32
  | .getFileInformationByHandle _ => Except Int32 UInt32
  | .writeFile _ _ => Except Int32 UInt32
  | .setDispositionDelete _ => Except Int32 Unit
  | .closeHandle _ => Unit

section System
variable {κ : Type} [DecidableEq κ]

def createFileStep (request : CreateRequest) (w : FileWorld κ) (answer : CreateAnswer)
    (w' : FileWorld κ) : Prop :=
  answer.status < 0 ∧ w' = w ∨
    ¬ answer.status < 0 ∧ answer.handle.isInvalid = false ∧
      (∀ object, (answer.handle, object) ∉ w.handles) ∧ ∃ object,
      (request.createDisposition = fileOpen ∧
        KindMatches request.createOptions (w.attributes object) ∧
        ∃ event, Opens w request object event ∧
          w' = (w.record event).grant answer.handle object) ∨
      (request.createDisposition = fileCreate ∧ (∀ handle, (handle, object) ∉ w.handles) ∧
        (∀ parent name, w.entry parent name ≠ some object) ∧
        ∃ w₁, Creates w request object w₁ ∧ w' = w₁.grant answer.handle object)

/-- Every call but the status translation can fail, and then it does nothing. -/
def fileStep : (c : FileCall) → FileWorld κ → c.Answer → FileWorld κ → Prop
  | .ntCreateFile request, w, answer, w' => createFileStep request w answer w'
  | .rtlNtStatusToDosError _, w, _, w' => w' = w
  | .getFileInformationByHandle handle, w, answer, w' =>
    (∃ code, answer = .error code ∧ w' = w) ∨ ∃ object, w.handles.lookup handle = some object ∧
      answer = .ok (w.attributes object) ∧ w' = w.record (.inspected object (w.attributes object))
  | .writeFile handle buffer, w, answer, w' =>
    (∃ code, answer = .error code ∧ w' = w) ∨ ∃ object written,
      w.handles.lookup handle = some object ∧ answer = .ok written ∧
      written.toNat ≤ buffer.length ∧ w' = w.record (.wrote object (buffer.take written.toNat))
  | .setDispositionDelete handle, w, answer, w' =>
    (∃ code, answer = .error code ∧ w' = w) ∨ ∃ object, w.handles.lookup handle = some object ∧
      answer = .ok () ∧ w' = w.record (.deleted object (w.attributes object))
  | .closeHandle handle, w, _, w' => w' = { w with handles := w.handles.filter (·.1 ≠ handle) }

/-- What the others can do between two calls: change every directory in any way. They do not get
at the handles of this process, and an open object keeps its kind; with `inPlace` they also set
and clear its reparse attribute. -/
structure OthersMove (inPlace : Prop) (w w' : FileWorld κ) : Prop where
  handles : w'.handles = w.handles
  history : w'.history = w.history
  kind : ∀ handle object, (handle, object) ∈ w.handles →
    (IsDirectory (w'.attributes object) ↔ IsDirectory (w.attributes object))
  attributes : ¬ inPlace → ∀ handle object, (handle, object) ∈ w.handles →
    w'.attributes object = w.attributes object

def fileSystem (κ : Type) [DecidableEq κ] (inPlace : Prop) :
    System FileCall FileCall.Answer (FileWorld κ) where
  step := fileStep
  interfere := OthersMove inPlace

end System

inductive SafeError where
  | invalidParameter (parameter message : Text)
  | fileOperation (path operation : Text) (errorCode : Option Int32)
  deriving DecidableEq

def invalid (parameter message : String) : SafeError :=
  .invalidParameter parameter.toList message.toList

def fileError (path : Path) (operation : String) (code : Int32) : SafeError :=
  .fileOperation path.display operation.toList (some code)

/-- A single path component: no separators, no stream syntax, not `.`/`..`. -/
def validateFileName (name : Text) : Except SafeError Unit :=
  if name = [] ∨ name = ['.'] ∨ name = ['.', '.'] ∨ name.any (· ∈ ['\\', '/', ':']) = true ∨
      Char.ofNat 0 ∈ name then
    .error (invalid "name" "must be a plain file name")
  else .ok ()

abbrev FileProgram (α : Type) := Program FileCall FileCall.Answer α

section Functions
open Program

def ntCreateFile (create : CreateRequest) : FileProgram CreateAnswer :=
  request (FileCall.ntCreateFile create)

def rtlNtStatusToDosError (status : Int32) : FileProgram UInt32 :=
  request (FileCall.rtlNtStatusToDosError status)

def getFileInformationByHandle (handle : Handle) : FileProgram (Except Int32 UInt32) :=
  request (FileCall.getFileInformationByHandle handle)

def writeFile (handle : Handle) (buffer : Bytes) : FileProgram (Except Int32 UInt32) :=
  request (FileCall.writeFile handle buffer)

def setDispositionDelete (handle : Handle) : FileProgram (Except Int32 Unit) :=
  request (FileCall.setDispositionDelete handle)

def closeHandle (handle : Handle) : FileProgram Unit := request (FileCall.closeHandle handle)

end Functions

def dropHandle (handle : Handle) : FileProgram Unit :=
  if handle.isInvalid then pure () else closeHandle handle

/-- 206 is `ERROR_FILENAME_EXCED_RANGE`: the length in bytes has to fit 16 bits. -/
def ntOpen (root : Option Handle) (name : Text) (access attributes share disposition
    options : UInt32) : FileProgram (Except Int32 Handle) := do
  let wide := encodeUtf16 name
  if 0xFFFF < wide.length*2 then pure (.error 206)
  else
    let answer ← ntCreateFile ⟨root, wide, access, attributes, share, disposition, options⟩
    if answer.status < 0 then
      let code ← rtlNtStatusToDosError answer.status
      pure (.error (if code = 0 then answer.status else code.toInt32))
    else pure (.ok answer.handle)

def refuseReparsePoint (handle : Handle) (path : Path) : FileProgram (Except SafeError Unit) := do
  match ← getFileInformationByHandle handle with
  | .error code => pure (.error (fileError path "query attributes" code))
  | .ok attributes =>
    if attributes &&& fileAttributeReparsePoint ≠ 0 then
      pure (.error (.fileOperation path.display
        "refuse reparse point (junction or symbolic link) on the path".toList none))
    else pure (.ok ())

def directoryAccess : UInt32 :=
  fileListDirectory ||| fileTraverse ||| fileReadAttributes ||| synchronize

def directoryOptions : UInt32 :=
  fileDirectoryFile ||| fileSynchronousIoNonalert ||| fileOpenForBackupIntent |||
    fileOpenReparsePoint

def directoryShare : UInt32 := fileShareRead ||| fileShareWrite

def openDirectory (root : Option Handle) (name : Text) : FileProgram (Except Int32 Handle) :=
  ntOpen root name directoryAccess 0 directoryShare fileOpen directoryOptions

/-- The loop of `open_directory_chain`. The handle of a directory is dropped once its child has
been checked. -/
def openComponents (dir : Path) :
    List PathComponent → Handle → FileProgram (Except SafeError Handle)
  | [], current => pure (.ok current)
  | .normal name :: components, current =>
    match toStr name with
    | none => do
      dropHandle current
      pure (.error (invalid "dir" "path is not valid Unicode"))
    | some name => do
      match ← openDirectory (some current) name with
      | .error code => do
        dropHandle current
        pure (.error (fileError dir "open directory" code))
      | .ok next =>
        match ← refuseReparsePoint next dir with
        | .error e => do
          dropHandle next
          dropHandle current
          pure (.error e)
        | .ok () => do
          dropHandle current
          openComponents dir components next
  | _ :: _, current => do
    dropHandle current
    pure (.error (invalid "dir" "`.` and `..` are not allowed"))

def openDirectoryChain (dir : Path) : FileProgram (Except SafeError Handle) :=
  match dir.components with
  | .pathPrefix (.disk letter) :: .rootDir :: components => do
    match ← openDirectory none (driveRootName (Char.ofNat letter.toNat)) with
    | .error code => pure (.error (fileError dir "open volume root" code))
    | .ok root => openComponents dir components root
  | .pathPrefix (.disk _) :: _ => pure (.error (invalid "dir" "path must be absolute (C:\\...)"))
  | .pathPrefix _ :: _ => pure (.error (invalid "dir" "only drive-letter paths are supported"))
  | _ => pure (.error (invalid "dir" "path must be absolute (C:\\...)"))

def writeRemaining (dir : Path) (file : Handle) (remaining : Bytes) :
    FileProgram (Except SafeError Unit) := do
  if _hrest : remaining = [] then pure (.ok ())
  else
    match ← writeFile file remaining with
    | .error code => pure (.error (fileError dir "write file" code))
    | .ok written =>
      if _hnone : written = 0 then pure (.error (fileError dir "write file" 0))
      else writeRemaining dir file (remaining.drop written.toNat)
termination_by remaining.length
decreasing_by
  have hpos : 0 < written.toNat := by
    apply Nat.pos_of_ne_zero
    intro hzero
    exact _hnone (UInt32.toNat_inj.mp hzero)
  have hlen : 0 < remaining.length := length_pos_iff.mpr _hrest
  rw [length_drop]
  omega

def createOptions : UInt32 :=
  fileNonDirectoryFile ||| fileSynchronousIoNonalert ||| fileOpenReparsePoint

def createNewNoFollow (dir : Path) (name : Text) (content : Bytes) (hidden : Bool) :
    FileProgram (Except SafeError Unit) :=
  match validateFileName name with
  | .error e => pure (.error e)
  | .ok () => do
    match ← openDirectoryChain dir with
    | .error e => pure (.error e)
    | .ok parent =>
      let attributes := if hidden then fileAttributeHidden else fileAttributeNormal
      match ← ntOpen (some parent) name (genericWrite ||| synchronize ||| fileReadAttributes)
          attributes 0 fileCreate createOptions with
      | .error code => do
        dropHandle parent
        pure (.error (fileError dir "create file" code))
      | .ok file => do
        let result ← writeRemaining dir file content
        dropHandle file
        dropHandle parent
        pure result

def markDeleted (file : Handle) (path : Path) : FileProgram (Except SafeError Unit) := do
  match ← refuseReparsePoint file path with
  | .error e => pure (.error e)
  | .ok () =>
    match ← setDispositionDelete file with
    | .error code => pure (.error (fileError path "delete file" code))
    | .ok () => pure (.ok ())

def deleteNoFollow (path : Path) : FileProgram (Except SafeError Unit) :=
  match path.parent, path.fileName.bind toStr with
  | some dir, some name =>
    match validateFileName name with
    | .error e => pure (.error e)
    | .ok () => do
      match ← openDirectoryChain dir with
      | .error e => pure (.error e)
      | .ok parent =>
        match ← ntOpen (some parent) name (deleteAccess ||| synchronize ||| fileReadAttributes)
            0 0 fileOpen createOptions with
        | .error code => do
          dropHandle parent
          pure (.error (fileError path "open file for delete" code))
        | .ok file => do
          let result ← markDeleted file path
          dropHandle file
          dropHandle parent
          pure result
  | _, _ => pure (.error (invalid "path" "path must name a file inside a directory"))

end WindowsErg.File
