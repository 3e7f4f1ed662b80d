import WindowsErg.ProcessRundown

/-! The parameter block of a process as `src/process/peb.rs` sees it, through a structure of its
own and through the public binding. -/
namespace WindowsErg.Process
open ByteCodec

structure Layout where
  size : ℕ
  align : ℕ
  deriving DecidableEq, Repr

def Layout.scalar (size : ℕ) : Layout := ⟨size, size⟩

def Layout.pointer : Layout := .scalar 8

def Layout.array (element : Layout) (count : ℕ) : Layout := ⟨element.size*count, element.align⟩

def alignUp (align n : ℕ) : ℕ := (n+align-1)/align*align

variable {ι : Type}

def fieldOffsets : ℕ → List (ι × Layout) → List (ι × ℕ)
  | _, [] => []
  | position, (field, layout) :: fields =>
    let offset := alignUp layout.align position
    (field, offset) :: fieldOffsets (offset+layout.size) fields

def fieldsEnd : ℕ → List (ι × Layout) → ℕ
  | position, [] => position
  | position, (_, layout) :: fields => fieldsEnd (alignUp layout.align position+layout.size) fields

def Layout.struct (fields : List (ι × Layout)) : Layout :=
  let align := (fields.map (·.2.align)).foldl max 1
  ⟨alignUp align (fieldsEnd 0 fields), align⟩

def offsetOf [DecidableEq ι] (fields : List (ι × Layout)) (field : ι) : Option ℕ :=
  (fieldOffsets 0 fields).lookup field

inductive UnicodeStringField where
  | length
  | maximumLength
  | buffer
  deriving DecidableEq

/-- `UNICODE_STRING`. -/
def unicodeStringFields : List (UnicodeStringField × Layout) := [
  (.length, .scalar 2),
  (.maximumLength, .scalar 2),
  (.buffer, .pointer)]

inductive PartialField where
  | pad1
  | flags
  | pad2
  | stdin
  | stdout
  | stderr
  | imagePathName
  | commandLine
  | environment
  deriving DecidableEq

/-- `RTL_USER_PROCESS_PARAMETERS_PARTIAL`. -/
def partialFields : List (PartialField × Layout) := [
  (.pad1, .array (.scalar 1) 32),
  (.flags, .scalar 4),
  (.pad2, .array (.scalar 1) 8),
  (.stdin, .pointer),
  (.stdout, .pointer),
  (.stderr, .pointer),
  (.imagePathName, .struct unicodeStringFields),
  (.commandLine, .struct unicodeStringFields),
  (.environment, .pointer)]

inductive PublicField where
  | reserved1
  | reserved2
  | imagePathName
  | commandLine
  deriving DecidableEq

/-- `RTL_USER_PROCESS_PARAMETERS` of the public binding. -/
def publicFields : List (PublicField × Layout) := [
  (.reserved1, .array (.scalar 1) 16),
  (.reserved2, .array .pointer 10),
  (.imagePathName, .struct unicodeStringFields),
  (.commandLine, .struct unicodeStringFields)]

inductive PebField where
  | reserved1
  | beingDebugged
  | reserved2
  | reserved3
  | ldr
  | processParameters
  | reserved4
  | atlThunkSListPtr
  | reserved5
  | reserved6
  | reserved7
  | reserved8
  | atlThunkSListPtr32
  | reserved9
  | reserved10
  | postProcessInitRoutine
  | reserved11
  | reserved12
  | sessionId
  deriving DecidableEq

/-- `PEB` of the public binding. -/
def pebFields : List (PebField × Layout) := [
  (.reserved1, .array (.scalar 1) 2),
  (.beingDebugged, .scalar 1),
  (.reserved2, .array (.scalar 1) 1),
  (.reserved3, .array .pointer 2),
  (.ldr, .pointer),
  (.processParameters, .pointer),
  (.reserved4, .array .pointer 3),
  (.atlThunkSListPtr, .pointer),
  (.reserved5, .pointer),
  (.reserved6, .scalar 4),
  (.reserved7, .pointer),
  (.reserved8, .scalar 4),
  (.atlThunkSListPtr32, .scalar 4),
  (.reserved9, .array .pointer 45),
  (.reserved10, .array (.scalar 1) 96),
  (.postProcessInitRoutine, .pointer),
  (.reserved11, .array (.scalar 1) 128),
  (.reserved12, .array .pointer 1),
  (.sessionId, .scalar 4)]

def pebSize : ℕ := (Layout.struct pebFields).size

def parametersSize : ℕ := (Layout.struct publicFields).size

/-- The documented place of the environment pointer, directly after the fields of the binding. -/
def environmentOffset : ℕ := 0x80

structure UnicodeString where
  length : ℕ
  maximumLength : ℕ
  buffer : ℕ
  deriving DecidableEq, Repr

def numberOf [DecidableEq ι] (fields : List (ι × Layout)) (field : ι) (width : ℕ) (block : Bytes)
    (start : ℕ) : ℕ :=
  numberAt block (start+(offsetOf fields field).getD 0) width

def unicodeStringAt (block : Bytes) (start : ℕ) : UnicodeString where
  length := numberOf unicodeStringFields .length 2 block start
  maximumLength := numberOf unicodeStringFields .maximumLength 2 block start
  buffer := numberOf unicodeStringFields .buffer 8 block start

structure ParameterStrings where
  imagePathName : UnicodeString
  commandLine : UnicodeString
  deriving DecidableEq, Repr

def partialStrings (block : Bytes) : ParameterStrings where
  imagePathName := unicodeStringAt block ((offsetOf partialFields .imagePathName).getD 0)
  commandLine := unicodeStringAt block ((offsetOf partialFields .commandLine).getD 0)

def publicStrings (block : Bytes) : ParameterStrings where
  imagePathName := unicodeStringAt block ((offsetOf publicFields .imagePathName).getD 0)
  commandLine := unicodeStringAt block ((offsetOf publicFields .commandLine).getD 0)

def partialEnvironment (block : Bytes) : ℕ := numberOf partialFields .environment 8 block 0

theorem partial_offsets :
    fieldOffsets 0 partialFields = [(.pad1, 0), (.flags, 0x20), (.pad2, 0x24), (.stdin, 0x30),
      (.stdout, 0x38), (.stderr, 0x40), (.imagePathName, 0x48), (.commandLine, 0x58),
      (.environment, 0x68)] := by decide

theorem public_offsets :
    fieldOffsets 0 publicFields = [(.reserved1, 0), (.reserved2, 0x10), (.imagePathName, 0x60),
      (.commandLine, 0x70)] := by decide

theorem environmentOffset_eq : environmentOffset = parametersSize := by decide

theorem partialEnvironment_eq (block : Bytes) :
    partialEnvironment block = (publicStrings block).imagePathName.buffer := rfl

end WindowsErg.Process
