import WindowsErg.GuardedRun
import WindowsErg.UnicodeText

/-! Analysis of executables, `src/file/pe.rs`, on a 64-bit target with overflow checks. -/
namespace WindowsErg.File.Pe
open TextScan ByteCodec UnicodeText GuardedRun Guarded

def numberAt (width : ℕ) (bytes : Bytes) (offset : ℕ) : Guarded (Option ℕ) := do
  let stop ← addIn usizeLimit offset width
  pure ((getRange bytes offset stop).map ofLe)

def u16At (bytes : Bytes) (offset : ℕ) : Guarded (Option UInt16) :=
  Option.map UInt16.ofNat <$> numberAt 2 bytes offset

def u32At (bytes : Bytes) (offset : ℕ) : Guarded (Option UInt32) :=
  Option.map UInt32.ofNat <$> numberAt 4 bytes offset

def u64At (bytes : Bytes) (offset : ℕ) : Guarded (Option UInt64) :=
  Option.map UInt64.ofNat <$> numberAt 8 bytes offset

def readCString (bytes : Bytes) (offset : ℕ) : Guarded (Option Text) :=
  match getFrom bytes offset with
  | none => pure none
  | some slice =>
    match (slice.take 512).findIdx? (· == 0) with
    | none => pure none
    | some end_ => do
      let name ← sliceTo slice end_
      pure (some (decodeUtf8Lossy name))

def toAsciiLowercase (s : Text) : Text := s.map Char.toLower

/-- The error of a hash function is of type `ε`. -/
inductive PeError (ε : Type) where
  /-- `InvalidParameter` for `pe_bytes`. -/
  | parse (reason : Text)
  | hash (e : ε)
  deriving DecidableEq

structure Section where
  virtualAddress : UInt32
  virtualSize : UInt32
  rawOffset : UInt32
  rawSize : UInt32
  deriving DecidableEq

def Section.Covers (s : Section) (rva : UInt32) : Prop :=
  s.virtualAddress ≤ rva ∧
    rva.toNat < min (s.virtualAddress.toNat+(max s.virtualSize s.rawSize).toNat) (u32Limit-1)

instance (s : Section) (rva : UInt32) : Decidable (s.Covers rva) :=
  inferInstanceAs (Decidable (_ ∧ _))

structure PeHeaders where
  is64bit : Bool
  checksumOffset : ℕ
  numberOfRvaAndSizes : UInt32
  dataDirectoryOffset : ℕ
  sections : List Section
  deriving DecidableEq

variable {ε α : Type}

abbrev Parsing (ε α : Type) := ExceptT (PeError ε) Guarded α

def parseError (reason : String) : PeError ε := .parse reason.toList

def ensure (p : Prop) [Decidable p] (reason : String) : Parsing ε PUnit :=
  if p then pure ⟨⟩ else throw (parseError reason)

/-- `number.ok_or_else(|| parse_error(reason))?`. -/
def required (number : Guarded (Option α)) (reason : String) : Parsing ε α := do
  match ← (liftM number : Parsing ε (Option α)) with
  | none => throw (parseError reason)
  | some a => pure a

def parseSections (bytes : Bytes) (tableOffset : ℕ) : ℕ → ℕ → List Section →
    Parsing ε (List Section)
  | 0, _, sections => pure sections
  | n+1, i, sections => do
    let skipped ← mulIn usizeLimit i 40
    let base ← addIn usizeLimit tableOffset skipped
    let virtualSize ← required (addIn usizeLimit base 8 >>= u32At bytes) "truncated section table"
    let virtualAddress ← required (addIn usizeLimit base 12 >>= u32At bytes) "truncated section table"
    let rawSize ← required (addIn usizeLimit base 16 >>= u32At bytes) "truncated section table"
    let rawOffset ← required (addIn usizeLimit base 20 >>= u32At bytes) "truncated section table"
    parseSections bytes tableOffset n (i+1)
      (sections ++ [⟨virtualAddress, virtualSize, rawOffset, rawSize⟩])

def magicPe32 : UInt16 := 0x10B
def magicPe32Plus : UInt16 := 0x20B

def PeHeaders.parse (bytes : Bytes) : Parsing ε PeHeaders := do
  let dosSignature ← u16At bytes 0
  ensure (dosSignature = some 0x5A4D) "missing MZ (DOS) signature"
  let lfanew ← required (u32At bytes 0x3C) "truncated DOS header"
  let signature ← u32At bytes lfanew.toNat
  ensure (signature = some 0x00004550) "missing PE signature"
  let fileHeaderOffset ← addIn usizeLimit lfanew.toNat 4
  let numberOfSections ←
    required (addIn usizeLimit fileHeaderOffset 2 >>= u16At bytes) "truncated file header"
  let sizeOfOptionalHeader ←
    required (addIn usizeLimit fileHeaderOffset 16 >>= u16At bytes) "truncated file header"
  let optionalHeaderOffset ← addIn usizeLimit fileHeaderOffset 20
  let magic ← required (u16At bytes optionalHeaderOffset) "truncated optional header"
  ensure (magic = magicPe32 ∨ magic = magicPe32Plus) "unrecognized optional header magic"
  let is64bit : Bool := magic = magicPe32Plus
  let rvaCountOffset ← addIn usizeLimit optionalHeaderOffset (if is64bit then 0x6C else 0x5C)
  let numberOfRvaAndSizes ← required (u32At bytes rvaCountOffset) "truncated optional header"
  let dataDirectoryOffset ← addIn usizeLimit optionalHeaderOffset (if is64bit then 0x70 else 0x60)
  let sectionTableOffset ← addIn usizeLimit optionalHeaderOffset sizeOfOptionalHeader.toNat
  let sections ← parseSections bytes sectionTableOffset numberOfSections.toNat 0 []
  let checksumOffset ← addIn usizeLimit optionalHeaderOffset 0x40
  pure ⟨is64bit, checksumOffset, numberOfRvaAndSizes, dataDirectoryOffset, sections⟩

namespace PeHeaders
variable (headers : PeHeaders)

def dataDirectory (index : UInt32) (bytes : Bytes) : Guarded (Option (UInt32 × UInt32)) :=
  if headers.numberOfRvaAndSizes ≤ index then pure none
  else do
    let skipped ← mulIn usizeLimit index.toNat 8
    let offset ← addIn usizeLimit headers.dataDirectoryOffset skipped
    match ← u32At bytes offset with
    | none => pure none
    | some rva =>
      match ← addIn usizeLimit offset 4 >>= u32At bytes with
      | none => pure none
      | some size => pure (if rva ≠ 0 ∧ size ≠ 0 then some (rva, size) else none)

def rvaLoop : List Section → UInt32 → Guarded (Option ℕ)
  | [], _ => pure none
  | s :: sections, rva =>
    if s.Covers rva then do
      let distance ← subIn rva.toNat s.virtualAddress.toNat
      let offset ← addIn u32Limit s.rawOffset.toNat distance
      pure (some offset)
    else rvaLoop sections rva

def rvaToOffset (rva : UInt32) : Guarded (Option ℕ) :=
  if rva = 0 then pure none else rvaLoop headers.sections rva

def endOfSections : Guarded ℕ := do
  let ends ← headers.sections.mapM fun s => addIn usizeLimit s.rawOffset.toNat s.rawSize.toNat
  pure (ends.foldr max 0)

def hasOverlay (fileLen : ℕ) : Guarded Bool := do
  let end_ ← headers.endOfSections
  pure (end_ < fileLen)

end PeHeaders

def addWord (sum word : ℕ) : Guarded ℕ := do
  let sum ← addIn u32Limit sum word
  addIn u32Limit (sum%2^16) (sum/2^16)

def inField (field i : ℕ) : Guarded Bool :=
  if i = field then pure true
  else do
    let second ← addIn usizeLimit field 2
    pure (i = second)

def checksumLoop (bytes : Bytes) (field i sum : ℕ) : Guarded (ℕ × ℕ) := do
  check (i+1 < usizeLimit) .overflow
  if _hmore : i+1 < bytes.length then
    if ← inField field i then
      check (i+2 < usizeLimit) .overflow
      checksumLoop bytes field (i+2) sum
    else
      let low ← index bytes i
      let high ← index bytes (i+1)
      let sum ← addWord sum (ofLe [low, high])
      check (i+2 < usizeLimit) .overflow
      checksumLoop bytes field (i+2) sum
  else pure (i, sum)
termination_by bytes.length-i

def addLastByte (bytes : Bytes) (i sum : ℕ) : Guarded ℕ :=
  if i < bytes.length then do
    let last ← index bytes i
    addWord sum last.toNat
  else pure sum

def foldedSum (bytes : Bytes) (field : ℕ) : Guarded ℕ := do
  let (i, sum) ← checksumLoop bytes field 0 0
  addLastByte bytes i sum

def checksumOf (bytes : Bytes) (field : ℕ) : Guarded ℕ := do
  let sum ← foldedSum bytes field
  addIn u32Limit sum (bytes.length%u32Limit)

def PeHeaders.checksumMismatch (headers : PeHeaders) (bytes : Bytes) : Guarded Bool := do
  match ← u32At bytes headers.checksumOffset with
  | none => pure false
  | some stored =>
    if stored = 0 then pure false
    else do
      let computed ← checksumOf bytes headers.checksumOffset
      pure (stored.toNat ≠ computed)

structure Import where
  dll : Text
  symbol : Text
  deriving DecidableEq

structure ImportDescriptor where
  originalFirstThunk : UInt32
  nameRva : UInt32
  firstThunk : UInt32

def ImportDescriptor.thunkRva (d : ImportDescriptor) : UInt32 :=
  if d.originalFirstThunk ≠ 0 then d.originalFirstThunk else d.firstThunk

def readDescriptor (bytes : Bytes) (offset : ℕ) : Guarded (Option ImportDescriptor) := do
  match ← u32At bytes offset with
  | none => pure none
  | some originalFirstThunk =>
    match ← addIn usizeLimit offset 12 >>= u32At bytes with
    | none => pure none
    | some nameRva =>
      match ← addIn usizeLimit offset 16 >>= u32At bytes with
      | none => pure none
      | some firstThunk =>
        pure (if originalFirstThunk = 0 ∧ nameRva = 0 ∧ firstThunk = 0 then none
          else some ⟨originalFirstThunk, nameRva, firstThunk⟩)

def readThunk (is64bit : Bool) (bytes : Bytes) (offset : ℕ) : Guarded (Option UInt64) :=
  Option.filter (· ≠ 0) <$>
    if is64bit then u64At bytes offset else Option.map UInt32.toUInt64 <$> u32At bytes offset

def thunkSize (is64bit : Bool) : ℕ := if is64bit then 8 else 4

def ordinalText (ordinal : ℕ) : Text := "ord".toList ++ decimal ordinal

namespace PeHeaders
variable (headers : PeHeaders) (bytes : Bytes)

def dllName (nameRva : UInt32) : Guarded (Option Text) := do
  match ← headers.rvaToOffset nameRva with
  | none => pure none
  | some offset => Option.map toAsciiLowercase <$> readCString bytes offset

def symbolAt (rva : UInt32) : Guarded (Option Text) := do
  match ← headers.rvaToOffset rva with
  | none => pure none
  | some offset =>
    Option.map toAsciiLowercase <$> (addIn usizeLimit offset 2 >>= readCString bytes)

def resolveThunk32 (thunk : UInt32) : Guarded (Option Text) :=
  if thunk &&& 0x80000000 ≠ 0 then pure (some (ordinalText (thunk &&& 0xFFFF).toNat))
  else headers.symbolAt bytes thunk

def resolveThunk64 (thunk : UInt64) : Guarded (Option Text) :=
  if thunk &&& 0x8000000000000000 ≠ 0 then pure (some (ordinalText (thunk &&& 0xFFFF).toNat))
  else if thunk.toNat < u32Limit then headers.symbolAt bytes thunk.toUInt32
  else pure none

def resolveThunk (thunk : UInt64) : Guarded (Option Text) :=
  if headers.is64bit then headers.resolveThunk64 bytes thunk
  else headers.resolveThunk32 bytes thunk.toUInt32

def walkThunks (dll : Text) : ℕ → ℕ → List Import → Guarded (List Import)
  | 0, _, out => pure out
  | rounds+1, offset, out => do
    match ← readThunk headers.is64bit bytes offset with
    | none => pure out
    | some thunk =>
      let offset ← addIn usizeLimit offset (thunkSize headers.is64bit)
      let symbol ← headers.resolveThunk bytes thunk
      walkThunks dll rounds offset (out ++ (symbol.map (⟨dll, ·⟩)).toList)

def maxImportsPerDll : ℕ := 4096
def maxImportDescriptors : ℕ := 4096

def importsOf (d : ImportDescriptor) : Guarded (List Import) := do
  match ← headers.dllName bytes d.nameRva with
  | none => pure []
  | some dll =>
    match ← headers.rvaToOffset d.thunkRva with
    | none => pure []
    | some thunkOffset => headers.walkThunks bytes dll maxImportsPerDll thunkOffset []

def importLoop : ℕ → ℕ → List Import → Guarded (List Import)
  | 0, _, imports => pure imports
  | rounds+1, offset, imports => do
    match ← readDescriptor bytes offset with
    | none => pure imports
    | some d =>
      let offset ← addIn usizeLimit offset 20
      let more ← headers.importsOf bytes d
      importLoop rounds offset (imports ++ more)

def directoryImport : UInt32 := 1
def directoryComDescriptor : UInt32 := 14

def parseImports : Guarded (List Import) := do
  match ← headers.dataDirectory directoryImport bytes with
  | none => pure []
  | some (importRva, _) =>
    match ← headers.rvaToOffset importRva with
    | none => pure []
    | some offset => headers.importLoop bytes maxImportDescriptors offset []

end PeHeaders

/-- `name.rsplit_once('.')`. -/
def stripExtension (name : Text) : Text :=
  if '.' ∈ name then ((name.reverse.dropWhile (· ≠ '.')).drop 1).reverse else name

def imphashInput (imports : List Import) : Text :=
  List.intercalate [','] (imports.map fun i => stripExtension i.dll ++ '.' :: i.symbol)

def dedupDllNames (imports : List Import) : List Text :=
  imports.foldl (fun out i => if out.contains i.dll then out else out ++ [i.dll]) []

structure HashFunctions (ε : Type) where
  md5 : Bytes → Except ε Bytes
  sha1 : Bytes → Except ε Bytes
  sha256 : Bytes → Except ε Bytes

structure PeAnalysis where
  sha256 : Bytes
  sha1 : Bytes
  md5 : Bytes
  imphash : Option Bytes
  importedDlls : List Text
  is64bit : Bool
  isDotnet : Bool
  hasOverlay : Bool
  checksumMismatch : Bool
  deriving DecidableEq

def hashed (result : Except ε Bytes) : Parsing ε Bytes :=
  match result with
  | .ok digest => pure digest
  | .error e => throw (.hash e)

def utf8Bytes (s : Text) : Bytes := s.flatMap String.utf8EncodeChar

def imphashOf (hashes : HashFunctions ε) (imports : List Import) : Parsing ε (Option Bytes) :=
  if imports = [] then pure none
  else some <$> hashed (hashes.md5 (utf8Bytes (imphashInput imports)))

def analyzePeBytes (hashes : HashFunctions ε) (bytes : Bytes) : Parsing ε PeAnalysis := do
  let headers ← PeHeaders.parse bytes
  let imports ← headers.parseImports bytes
  let imphash ← imphashOf hashes imports
  let sha256 ← hashed (hashes.sha256 bytes)
  let sha1 ← hashed (hashes.sha1 bytes)
  let md5 ← hashed (hashes.md5 bytes)
  let comDescriptor ← headers.dataDirectory PeHeaders.directoryComDescriptor bytes
  let hasOverlay ← headers.hasOverlay bytes.length
  let checksumMismatch ← headers.checksumMismatch bytes
  pure ⟨sha256, sha1, md5, imphash, dedupDllNames imports, headers.is64bit, comDescriptor.isSome,
    hasOverlay, checksumMismatch⟩

end WindowsErg.File.Pe
