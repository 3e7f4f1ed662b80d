import WindowsErg.SecurityAcl

/-! Descriptors as SDDL text, `src/security/backends/file.rs` and `registry.rs`, which differ in
the values of `SddlBackend`. -/
namespace WindowsErg.Security
open TextScan Outcome

inductive SddlError where
  | fileOperation (path operation : Text)
  | other (message : Text)
  /-- A slice that does not fall on character boundaries. -/
  | panic
  deriving DecidableEq, Repr

structure SddlBackend where
  rights : List (Text × UInt32)
  maskError : SddlError
  aliasError : SddlError
  target : Text → SecurityTarget

def aceTypeText : AceType → Text
  | .allow => ['A']
  | .deny => ['D']

def inheritanceText (flags : InheritanceFlags) : Text :=
  (if flags.objectInherit then ['O', 'I'] else []) ++
    (if flags.containerInherit then ['C', 'I'] else []) ++
    (if flags.inheritOnly then ['I', 'O'] else []) ++
    (if flags.noPropagateInherit then ['N', 'P'] else [])

def aceText (ace : Ace) : Text :=
  aceTypeText ace.aceType ++ ';' :: inheritanceText ace.inheritance ++
    ';' :: ("0x".toList ++ hexUpper ace.accessMask.bits.toNat) ++
    ";;;".toList ++ ace.trustee.string

def daclToSddl (dacl : Dacl) : Text :=
  "D:".toList ++ dacl.entries.flatMap fun ace => '(' :: aceText ace ++ [')']

def descriptorToSddl (descriptor : SecurityDescriptor) : Text :=
  (match descriptor.owner with
    | some owner => "O:".toList ++ owner.string
    | none => []) ++
  (match descriptor.group with
    | some group => "G:".toList ++ group.string
    | none => []) ++ daclToSddl descriptor.dacl

def marker (c : Char) : Text := [c, ':']

def clip (start stop : ℕ) : Option ℕ → ℕ
  | some pos => min stop (start+pos)
  | none => stop

def extractSddlSection (sddl : Text) (sect : Char) : Option Text :=
  match find (marker sect) sddl with
  | none => none
  | some pos =>
    let start := pos+2
    let stop := (['O', 'G', 'D', 'S'].filter (· ≠ sect)).foldl (fun stop candidate =>
      clip start stop (find (marker candidate) (sddl.drop start))) sddl.length
    some (trim ((sddl.take stop).drop start))

def parseInheritanceFlags (value : Text) : InheritanceFlags where
  objectInherit := contains value ['O', 'I']
  containerInherit := contains value ['C', 'I']
  inheritOnly := contains value ['I', 'O']
  noPropagateInherit := contains value ['N', 'P']

/-- The rights are cut every two bytes: two one-byte characters or one two-byte
character make a token, and any other cut panics. -/
def rightsLoop (tokens : List (Text × UInt32)) : Text → UInt32 → Except SddlError UInt32
  | [], mask => .ok mask
  | [c], mask =>
    if c.utf8Size = 1 then .ok mask
    else if c.utf8Size = 2 then .ok (mask ||| (tokens.lookup [c]).getD 0)
    else .error .panic
  | c :: d :: rest, mask =>
    if c.utf8Size = 1 ∧ d.utf8Size = 1 then
      rightsLoop tokens rest (mask ||| (tokens.lookup [c, d]).getD 0)
    else if c.utf8Size = 2 then
      rightsLoop tokens (d :: rest) (mask ||| (tokens.lookup [c]).getD 0)
    else .error .panic

def parseSddlRights (b : SddlBackend) (value : Text) : Except SddlError (Option AccessMask) :=
  if "0x".toList <+: value then
    .ok ((fromStrRadix 16 (2^32) (value.drop 2)).map fun bits => ⟨UInt32.ofNat bits⟩)
  else do
    let mask ← rightsLoop b.rights value 0
    pure (if mask = 0 then none else some ⟨mask⟩)

def sidOrAliasToSid (b : SddlBackend) (value : Text) : Except SddlError Sid :=
  match Sid.fromSddlTrustee value with
  | .ok sid => .ok sid
  | .error _ => .error b.aliasError

def aceTypeOf (value : Text) : Option AceType :=
  if value = ['A'] then some .allow
  else if value = ['D'] then some .deny
  else none

def parseAce (b : SddlBackend) (aceBody : Text) : Except SddlError (Option Ace) :=
  let fields := aceBody.splitOn ';'
  if fields.length < 6 then .ok none
  else match aceTypeOf (fields.getD 0 []) with
    | none => .ok none
    | some aceType => do
      let inheritance := parseInheritanceFlags (fields.getD 1 [])
      let inherited := contains (fields.getD 1 []) ['I', 'D']
      let rights ← parseSddlRights b (fields.getD 2 [])
      let accessMask ← okOr rights b.maskError
      match sidOrAliasToSid b (fields.getD 5 []) with
      | .error _ => pure none
      | .ok trustee => pure (some
          (((Ace.new trustee aceType accessMask).withInheritance inheritance).withInherited
            inherited))

/-- The loop over the parenthesised entries. Each round consumes two characters
at least, so as many rounds as there are characters are enough. -/
def parseAces (b : SddlBackend) : ℕ → Text → List Ace → Except SddlError (List Ace)
  | 0, _, entries => .ok entries
  | rounds+1, rest, entries =>
    match find ['('] rest with
    | none => .ok entries
    | some startRel =>
      match find [')'] (rest.drop startRel) with
      | none => .ok entries
      | some endRel => do
        let aceBody := ((rest.drop startRel).take endRel).drop 1
        let ace ← parseAce b aceBody
        parseAces b rounds ((rest.drop startRel).drop (endRel+1)) (entries ++ ace.toList)

def parseDaclFromSddl (b : SddlBackend) (sddl : Text) : Except SddlError Dacl :=
  match extractSddlSection sddl 'D' with
  | none => .ok Dacl.new
  | some daclSection => do
    let entries ← parseAces b daclSection.length daclSection []
    pure (Dacl.canonicalize ⟨entries⟩)

def sddlToDescriptor (b : SddlBackend) (path sddl : Text) :
    Except SddlError SecurityDescriptor := do
  let owner := (extractSddlSection sddl 'O').bind fun v => (sidOrAliasToSid b v).toOption
  let group := (extractSddlSection sddl 'G').bind fun v => (sidOrAliasToSid b v).toOption
  let dacl ← parseDaclFromSddl b sddl
  pure { target := b.target path, owner, group, dacl }

def standardRights : List (Text × UInt32) := [
  ("SD".toList, 0x00010000), ("RC".toList, 0x00020000), ("WD".toList, 0x00040000),
  ("WO".toList, 0x00080000)]

def fileBackend : SddlBackend where
  rights := [("FA".toList, 0x1F01FF), ("FR".toList, 0x120089), ("FW".toList, 0x120116),
    ("FX".toList, 0x1200A0)] ++ standardRights
  maskError := .fileOperation "sddl_dacl".toList "parse ACE access mask".toList
  aliasError := .fileOperation "sddl_sid".toList "map SID alias".toList
  target := .filePath

def registryBackend : SddlBackend where
  rights := [("KA".toList, 0xF003F), ("KR".toList, 0x20019), ("KW".toList, 0x20006),
    ("KX".toList, 0x20019)] ++ standardRights
  maskError := .other "failed to parse registry ACE access mask".toList
  aliasError := .other "unrecognized SID alias".toList
  target := .registryPath

namespace File

def parseDaclFromSddl := Security.parseDaclFromSddl fileBackend

def sddlToDescriptor := Security.sddlToDescriptor fileBackend

end File

namespace Registry

def parseDaclFromSddl := Security.parseDaclFromSddl registryBackend

def sddlToDescriptor := Security.sddlToDescriptor registryBackend

end Registry
end WindowsErg.Security
