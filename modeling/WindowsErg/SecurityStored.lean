import WindowsErg.RegistryKey
import WindowsErg.SddlLanguage
import WindowsErg.SecuritySddlRoundTrip

/-! Permission edits on the descriptor that the system stores, `src/security/target.rs` over both
backends. -/
namespace WindowsErg.Security
open TextScan ByteCodec SddlLanguage

abbrev Stored := Descriptor Bytes

def spelledSid (text : Text) : Option Bytes := do
  let parts := text.splitOn '-'
  guard (3 ≤ parts.length ∧ eqIgnoreAsciiCase (parts.getD 0 []) ['S'] = true)
  let revision ← fromStrRadix 10 (2^8) (parts.getD 1 [])
  let authority ← fromStrRadix 10 (2^64) (parts.getD 2 [])
  let subs ← (parts.drop 3).mapM (fromStrRadix 10 (2^32))
  some (UInt8.ofNat revision :: UInt8.ofNat subs.length ::
    beBytes 6 authority ++ subs.flatMap (leBytes 4))

/-- A SID text names the SID it spells. What the other names stand for depends on the system and
its domain. -/
def resolveTrustee (aliases : Text → Option Bytes) (text : Text) : Option Bytes :=
  (spelledSid text).or (aliases text)

def errorInvalidAcl : UInt32 := 1336

/-- `ConvertStringSecurityDescriptorToSecurityDescriptorW` and the functions that take the result
apart. -/
def sddlApi (aliases : Text → Option Bytes) : SddlApi Stored where
  convertString text :=
    match SddlLanguage.read (resolveTrustee aliases) text with
    | some descriptor => .ok descriptor
    | none => .error errorInvalidAcl
  hasDacl descriptor := descriptor.daclEntries.isSome
  hasOwner descriptor := descriptor.owner.isSome
  hasGroup descriptor := descriptor.group.isSome

structure FileStore (δ : Type) where
  api : SddlApi δ
  getNamedSecurityInfo : Text → UInt32
  descriptorText : Text → Except UInt32 Text
  setNamedSecurityInfo : Text → δ → SecurityInformation → UInt32

namespace File
variable {δ : Type}

def readDescriptor (files : FileStore δ) (path : Text) : Except TargetError SecurityDescriptor :=
  let status := files.getNamedSecurityInfo (Registry.cText path)
  if status ≠ 0 then .error (.fileOperation path "GetNamedSecurityInfoW".toList status)
  else
    match files.descriptorText (Registry.cText path) with
    | .error code => .error (.windowsApi code
        "ConvertSecurityDescriptorToStringSecurityDescriptorW".toList)
    | .ok sddl => (sddlToDescriptor path sddl).mapError .sddl

def writeDescriptor (files : FileStore δ) (path : Text) (descriptor : SecurityDescriptor) :
    Except TargetError Unit := do
  let (generated, information) ← generatedDescriptor files.api
    (fun reason => .unsupported path "write_descriptor".toList (some reason)) descriptor
  let status := files.setNamedSecurityInfo (Registry.cText path) generated information
  if status = 0 then pure ()
  else throw (mapFileSecurityStatus path "SetNamedSecurityInfoW".toList status)

end File

structure SecuritySystem (aliases : Text → Option Bytes) (κ : Type) where
  files : FileStore Stored
  registry : Registry.KeyStore κ Stored
  files_api : files.api = sddlApi aliases
  registry_api : registry.api = sddlApi aliases

inductive PermissionTarget where
  | filePath (path : Text)
  | registryPath (path : Text)
  deriving DecidableEq

variable {aliases : Text → Option Bytes} {κ : Type}

namespace PermissionTarget

def readDescriptor (sys : SecuritySystem aliases κ) :
    PermissionTarget → Except TargetError SecurityDescriptor
  | .filePath path => File.readDescriptor sys.files path
  | .registryPath path => ((Registry.readDescriptor sys.registry path).run.run []).1

def writeDescriptor (sys : SecuritySystem aliases κ) (descriptor : SecurityDescriptor) :
    PermissionTarget → Except TargetError Unit
  | .filePath path => File.writeDescriptor sys.files path descriptor
  | .registryPath path => ((Registry.writeDescriptor sys.registry path descriptor).run.run []).1

def Returns (sys : SecuritySystem aliases κ) (text : Text) : PermissionTarget → Prop
  | .filePath path => sys.files.descriptorText (Registry.cText path) = .ok text
  | .registryPath path => ∀ hive subkey key,
      Registry.parseRegistryPath path = .ok (hive, subkey) →
      sys.registry.openKeyEx hive subkey Registry.readControlRight = .ok key →
      sys.registry.descriptorText key = .ok text

def parseText (text : Text) : PermissionTarget → Except TargetError SecurityDescriptor
  | .filePath path => (File.sddlToDescriptor path text).mapError .sddl
  | .registryPath path => do
    let _ ← Registry.parseRegistryPath path
    (Registry.sddlToDescriptor path text).mapError .sddl

end PermissionTarget

/-- The stored descriptor once the system has stored what the written text denotes. Only the parts
that the descriptor has are set, and the SACL never is. -/
def storeWritten (aliases : Text → Option Bytes) (descriptor : SecurityDescriptor)
    (stored : Stored) : Stored :=
  match SddlLanguage.read (resolveTrustee aliases) (descriptorToSddl descriptor) with
  | none => stored
  | some written => {
      owner := if descriptor.owner.isSome then written.owner else stored.owner
      group := if descriptor.group.isSome then written.group else stored.group
      dacl := written.dacl
      sacl := stored.sacl }

abbrev OnStored := ExceptT TargetError (StateM Stored)

def PermissionTarget.readStored (target : PermissionTarget) (sys : SecuritySystem aliases κ) :
    OnStored SecurityDescriptor := liftExcept (target.readDescriptor sys)

def PermissionTarget.writeStored (target : PermissionTarget) (sys : SecuritySystem aliases κ)
    (descriptor : SecurityDescriptor) : OnStored Unit := do
  liftExcept (target.writeDescriptor sys descriptor)
  modify (storeWritten aliases descriptor)

section
variable (aliases : Text → Option Bytes)

theorem resolveTrustee_string (s : Sid) :
    resolveTrustee aliases s.string = some s.raw := by
  obtain ⟨v, hraw, hv⟩ := s.form
  have hspelled : spelledSid s.string = some v.bytes := by
    unfold spelledSid
    simp only [guard, hv.count, hv.head, hv.revision, hv.authority, hv.subs]
    rfl
  rw [resolveTrustee, hspelled, hraw]
  rfl

def entryKind : AceType → AceKind
  | .allow => .allowed
  | .deny => .denied

def entryFlags (flags : InheritanceFlags) : UInt8 :=
  (if flags.objectInherit then 0x01 else 0) ||| (if flags.containerInherit then 0x02 else 0) |||
    (if flags.inheritOnly then 0x08 else 0) ||| (if flags.noPropagateInherit then 0x04 else 0)

def entryRule (entry : Ace) : AccessRule Bytes where
  kind := entryKind entry.aceType
  flags := entryFlags entry.inheritance
  mask := entry.accessMask.bits
  trustee := entry.trustee.raw

def entryAce (entry : Ace) : SddlLanguage.Ace Bytes where
  toAccessRule := entryRule entry
  objectType := []
  inheritedObjectType := []
  further := none

theorem readNames_inheritanceText (flags : InheritanceFlags) :
    readNames flagNames (inheritanceText flags) 0 = some (entryFlags flags) := by
  rcases flags with ⟨oi, ci, io, np⟩
  cases oi <;> cases ci <;> cases io <;> cases np <;> decide

theorem readRights_rightsText (entry : Ace) :
    readRights (rightsText entry) = some entry.accessMask.bits := by
  have hlt : entry.accessMask.bits.toNat < 2^32 := entry.accessMask.bits.toNat_lt
  have htext : rightsText entry = '0' :: 'x' :: hexUpper entry.accessMask.bits.toNat := rfl
  rw [htext, readRights, readNumeral, if_neg (hexUpper_ne_nil _), digitsValue_hexUpper,
    Option.filter_some_pos (by exact decide_eq_true hlt), Option.map_some, UInt32.ofNat_toNat]

theorem readAce_aceText (entry : Ace) :
    readAce (resolveTrustee aliases) (aceText entry) = some (entryAce entry) := by
  have hkind : kindNames.lookup (aceTypeText entry.aceType) = some (entryKind entry.aceType) := by
    cases entry.aceType <;> decide
  unfold readAce
  rw [aceText_splitOn]
  simp only [hkind, readNames_inheritanceText, readRights_rightsText, resolveTrustee_string]
  rfl

theorem aceText_plain (entry : Ace) (c : Char) (hc : c ∈ aceText entry) : c ∉ "()\"".toList := by
  have hall : ∀ d ∈ aceChars, d ∉ "()\"".toList := forall_mem_of_all (by decide)
  exact hall c (mem_aceText entry c hc)

theorem readTrustee_part (marker c : Char) (o : Option Sid)
    (rest : Text) (hc : c ≠ ':') (hm : c ≠ marker) :
    readTrustee (resolveTrustee aliases) marker
        ((o.elim [] fun s => marker :: ':' :: s.string) ++ c :: ':' :: rest) =
      some (o.map Sid.raw, c :: ':' :: rest) := by
  cases o with
  | none => exact readTrustee_miss _ marker c rest hm
  | some s =>
    exact readTrustee_hit _ marker c s.string rest s.raw (s.notMem_string ':' (by decide)) hc
      (resolveTrustee_string aliases s)

def writtenMeaning (d : SecurityDescriptor) : Stored where
  owner := d.owner.map Sid.raw
  group := d.group.map Sid.raw
  dacl := some ⟨{}, some (d.dacl.entries.map entryAce)⟩
  sacl := none

theorem read_descriptorToSddl (d : SecurityDescriptor) :
    SddlLanguage.read (resolveTrustee aliases) (descriptorToSddl d) = some (writtenMeaning d) := by
  have hacl := readAcl_plain (resolveTrustee aliases) aceText entryAce d.dacl.entries 'D'
    aceText_plain (readAce_aceText aliases)
  have htext : descriptorToSddl d = (d.owner.elim [] fun s => 'O' :: ':' :: s.string) ++
      ((d.group.elim [] fun s => 'G' :: ':' :: s.string) ++
        'D' :: ':' :: d.dacl.entries.flatMap fun e => '(' :: aceText e ++ [')']) := by
    unfold descriptorToSddl daclToSddl
    cases d.owner <;> cases d.group <;> simp
  have hgroup := readTrustee_part aliases 'G' 'D' d.group
    (d.dacl.entries.flatMap fun e => '(' :: aceText e ++ [')']) (by decide) (by decide)
  -- the owner's section is followed by the group's, or by the list
  have howner : readTrustee (resolveTrustee aliases) 'O' (descriptorToSddl d) =
      some (d.owner.map Sid.raw, (d.group.elim [] fun s => 'G' :: ':' :: s.string) ++
        'D' :: ':' :: d.dacl.entries.flatMap fun e => '(' :: aceText e ++ [')']) := by
    rw [htext]
    cases d.group with
    | none => exact readTrustee_part aliases 'O' 'D' d.owner _ (by decide) (by decide)
    | some s => exact readTrustee_part aliases 'O' 'G' d.owner _ (by decide) (by decide)
  unfold SddlLanguage.read
  simp only [howner, hgroup, hacl, Option.bind_eq_bind, Option.bind_some]
  rfl

theorem storeWritten_dacl (d : SecurityDescriptor) (stored : Stored) :
    (storeWritten aliases d stored).dacl = some ⟨{}, some (d.dacl.entries.map entryAce)⟩ := by
  unfold storeWritten
  rw [read_descriptorToSddl]
  rfl

end

theorem executeAgainstTarget_apply (target : PermissionTarget) (sys : SecuritySystem aliases κ)
    (plan : PermissionEditPlan) (before : Stored) :
    (plan.executeAgainstTarget (target.readStored sys) (target.writeStored sys) .apply).run.run
        before =
      match target.readDescriptor sys with
      | .error e => (.error e, before)
      | .ok current =>
        match target.writeDescriptor sys { current with dacl := plan.edited current.dacl } with
        | .error e => (.error e, before)
        | .ok _ => (.ok (plan.executeOnDescriptor current .apply),
            storeWritten aliases { current with dacl := plan.edited current.dacl } before) := by
  unfold PermissionEditPlan.executeAgainstTarget PermissionTarget.readStored
  cases hread : target.readDescriptor sys with
  | error e => rfl
  | ok current =>
    change (plan.executeForTarget (target.writeStored sys) current .apply).run.run before = _
    unfold PermissionEditPlan.executeForTarget PermissionTarget.writeStored
    -- in this mode there always is an updated descriptor
    have hupdated : (plan.executeOnDescriptor current .apply).updatedDescriptor =
        some { current with dacl := plan.edited current.dacl } := rfl
    simp only [hupdated, ↓reduceIte]
    cases hwrite : target.writeDescriptor sys { current with dacl := plan.edited current.dacl } with
    | error e => rfl
    | ok done => rfl

theorem executeAgainstTarget_ok {target : PermissionTarget} {sys : SecuritySystem aliases κ}
    {plan : PermissionEditPlan} {result : DescriptorEditResult} {before after : Stored}
    (h : (plan.executeAgainstTarget (target.readStored sys) (target.writeStored sys)
      .apply).run.run before = (.ok result, after)) :
    ∃ current, target.readDescriptor sys = .ok current ∧
      after = storeWritten aliases { current with dacl := plan.edited current.dacl } before := by
  rw [executeAgainstTarget_apply] at h
  cases hread : target.readDescriptor sys with
  | error e =>
    simp only [hread] at h
    have hfst : Except.error e = Except.ok result := congrArg Prod.fst h
    contradiction
  | ok current =>
    refine ⟨current, rfl, ?_⟩
    simp only [hread] at h
    split at h
    · rename_i e _
      have hfst : Except.error e = Except.ok result := congrArg Prod.fst h
      contradiction
    · exact (congrArg Prod.snd h).symm

section Outcome
variable {α β : Type}

theorem outcome_bind_lift (e : Except TargetError α) (f : α → Registry.Acting κ β) (log : List κ) :
    ((liftExcept e >>= f).run.run log).1 = e >>= fun a => ((f a).run.run log).1 := by
  cases e with
  | error e => rfl
  | ok a => rfl

theorem outcome_bind_actOn (key : κ) (f : Unit → Registry.Acting κ β) (log : List κ) :
    (Registry.actOn key >>= f).run.run log = (f ()).run.run (log ++ [key]) := rfl

end Outcome

theorem parseText_of_readDescriptor {target : PermissionTarget} {sys : SecuritySystem aliases κ}
    {text : Text} {current : SecurityDescriptor} (htext : target.Returns sys text)
    (h : target.readDescriptor sys = .ok current) : target.parseText text = .ok current := by
  cases target with
  | filePath path =>
    have hdescriptor : sys.files.descriptorText (Registry.cText path) = .ok text := htext
    simp only [PermissionTarget.readDescriptor, File.readDescriptor, hdescriptor] at h
    split_ifs at h
    exact h
  | registryPath path =>
    simp only [PermissionTarget.readDescriptor, Registry.readDescriptor] at h
    rw [outcome_bind_lift] at h
    obtain ⟨⟨hive, subkey⟩, hparse, h⟩ := (Outcome.bind_eq_ok_iff _ _ _).mp h
    dsimp only at h
    rw [outcome_bind_lift] at h
    obtain ⟨key, hopen, h⟩ := (Outcome.bind_eq_ok_iff _ _ _).mp h
    have hdescriptor : sys.registry.descriptorText key = .ok text :=
      htext hive subkey key hparse (Registry.openRegistryKey_ok hopen)
    rw [outcome_bind_actOn, hdescriptor] at h
    dsimp only at h
    simp only [PermissionTarget.parseText, hparse]
    split at h
    · exact absurd (show Except.error _ = Except.ok current from h) (by simp)
    · cases hsddl : Registry.sddlToDescriptor path text with
      | error e =>
        simp only [hsddl] at h
        exact absurd (show Except.error _ = Except.ok current from h) (by simp)
      | ok descriptor =>
        simp only [hsddl] at h
        exact h

def willingSystem (aliases : Text → Option Bytes) (text : Text) : SecuritySystem aliases Unit where
  files := {
    api := sddlApi aliases
    getNamedSecurityInfo := fun _ => 0
    descriptorText := fun _ => .ok text
    setNamedSecurityInfo := fun _ _ _ => 0 }
  registry := {
    defaultView := .key64
    resolve := fun _ _ _ => some ()
    resolve_ignoreCase := fun _ _ _ _ _ => rfl
    permits := fun _ _ => true
    api := sddlApi aliases
    getSecurityInfo := fun _ => 0
    descriptorText := fun _ => .ok text
    setSecurityInfo := fun _ _ _ => 0 }
  files_api := rfl
  registry_api := rfl

section
variable (aliases : Text → Option Bytes)

section
variable (target : PermissionTarget) (text : Text)

theorem willingSystem_returns :
    target.Returns (willingSystem aliases text) text := by
  cases target with
  | filePath path => rfl
  | registryPath path =>
    intro hive subkey key hparse hopen
    rfl

theorem willingSystem_read :
    target.readDescriptor (willingSystem aliases text) = target.parseText text := by
  cases target with
  | filePath path => rfl
  | registryPath path =>
    simp only [PermissionTarget.readDescriptor, Registry.readDescriptor, PermissionTarget.parseText]
    rw [outcome_bind_lift]
    cases Registry.parseRegistryPath path with
    | error e => rfl
    | ok place =>
      have hopen : Registry.openRegistryKey (willingSystem aliases text).registry place.1 place.2
          Registry.readControlRight = .ok () := rfl
      change ((liftExcept (Registry.openRegistryKey _ place.1 place.2 _) >>= _ :
        Registry.Acting Unit _).run.run []).1 = _
      rw [outcome_bind_lift, hopen]
      simp only [willingSystem, ne_eq, not_true_eq_false, ↓reduceIte]
      cases hsddl : Registry.sddlToDescriptor path text with
      | error e => rfl
      | ok descriptor => rfl

theorem generatedDescriptor_sddlApi (missing : Text → TargetError) (d : SecurityDescriptor) :
    generatedDescriptor (sddlApi aliases) missing d =
      .ok (writtenMeaning d, ⟨d.owner.isSome, d.group.isSome⟩) := by
  have hconvert : (sddlApi aliases).convertString (descriptorToSddl d) =
      .ok (writtenMeaning d) := by
    simp only [sddlApi, read_descriptorToSddl]
  have hdacl : ¬ (sddlApi aliases).hasDacl (writtenMeaning d) = false := by
    simp [sddlApi, Descriptor.daclEntries, writtenMeaning]
  have howner : ¬ (d.owner.isSome ∧ (sddlApi aliases).hasOwner (writtenMeaning d) = false) := by
    cases h : d.owner <;> simp [sddlApi, writtenMeaning, h]
  have hgroup : ¬ (d.group.isSome ∧ (sddlApi aliases).hasGroup (writtenMeaning d) = false) := by
    cases h : d.group <;> simp [sddlApi, writtenMeaning, h]
  unfold generatedDescriptor
  rw [hconvert]
  dsimp only
  rw [if_neg hdacl, if_neg howner, if_neg hgroup]

theorem willingSystem_write (descriptor : SecurityDescriptor) {current : SecurityDescriptor}
    (hcurrent : target.parseText text = .ok current) :
    target.writeDescriptor (willingSystem aliases text) descriptor = .ok () := by
  cases target with
  | filePath path =>
    have hgenerated := generatedDescriptor_sddlApi aliases
      (fun reason => .unsupported path "write_descriptor".toList (some reason)) descriptor
    simp only [PermissionTarget.writeDescriptor, File.writeDescriptor, willingSystem, hgenerated]
    rfl
  | registryPath path =>
    obtain ⟨place, hplace, -⟩ := (Outcome.bind_eq_ok_iff _ _ _).mp hcurrent
    have hopen : Registry.openRegistryKey (willingSystem aliases text).registry place.1 place.2
        (Registry.writeAccess descriptor) = .ok () := rfl
    have hgenerated := generatedDescriptor_sddlApi aliases .other descriptor
    simp only [PermissionTarget.writeDescriptor, Registry.writeDescriptor]
    rw [outcome_bind_lift, hplace]
    change ((liftExcept (Registry.openRegistryKey _ place.1 place.2 _) >>= _ :
      Registry.Acting Unit _).run.run []).1 = _
    rw [outcome_bind_lift, hopen]
    change ((liftExcept (generatedDescriptor (sddlApi aliases) _ descriptor) >>= _ :
      Registry.Acting Unit _).run.run []).1 = _
    rw [outcome_bind_lift, hgenerated]
    rfl

end

end

end WindowsErg.Security
