import WindowsErg.SecurityEditor
import WindowsErg.SecuritySddl

/-! Edits that are carried out on an object of the system, `src/security/target.rs` and
`src/security/editor.rs`. -/
namespace WindowsErg.Security
open TextScan

inductive TargetError where
  | sddl (e : SddlError)
  | invalidParameter (parameter reason : Text)
  | accessDenied (resource operation reason : Text)
  | fileOperation (path operation : Text) (errorCode : UInt32)
  | windowsApi (errorCode : UInt32) (context : Text)
  | unsupported (target operation : Text) (reason : Option Text)
  | other (message : Text)
  deriving DecidableEq

def privilegeReason : Text :=
  "required privilege is not held (likely SeRestorePrivilege or SeTakeOwnershipPrivilege)".toList

/-- The part that `map_file_security_status` and `map_registry_security_status` share. -/
def mapSecurityStatus (otherwise : TargetError) (resource operation : Text) (code : UInt32) :
    TargetError :=
  if code = 5 then .accessDenied resource operation "access denied".toList
  else if code = 1314 then .accessDenied resource operation privilegeReason
  else otherwise

def mapFileSecurityStatus (resource operation : Text) (code : UInt32) : TargetError :=
  mapSecurityStatus (.fileOperation resource operation code) resource operation code

def mapRegistrySecurityStatus (resource operation : Text) (code : UInt32) : TargetError :=
  mapSecurityStatus (.other ("Registry security operation '".toList ++ operation ++
    "' failed on '".toList ++ resource ++ "' (error code: 0x".toList ++
    padZeros 8 (hexUpper code.toNat) ++ ")".toList)) resource operation code

section Plan
variable {m : Type → Type} [Monad m]

def PermissionEditPlan.executeForTarget (write : SecurityDescriptor → ExceptT TargetError m Unit)
    (plan : PermissionEditPlan) (current : SecurityDescriptor) (mode : ApplyMode) :
    ExceptT TargetError m DescriptorEditResult := do
  let result := plan.executeOnDescriptor current mode
  if mode = .apply then
    match result.updatedDescriptor with
    | some updated => write updated
    | none => throw (.unsupported "permission_target".toList
        "apply_without_updated_descriptor".toList none)
  pure result

def PermissionEditPlan.executeAgainstTarget (read : ExceptT TargetError m SecurityDescriptor)
    (write : SecurityDescriptor → ExceptT TargetError m Unit) (plan : PermissionEditPlan)
    (mode : ApplyMode) : ExceptT TargetError m DescriptorEditResult := do
  let current ← read
  plan.executeForTarget write current mode

end Plan

structure SddlApi (δ : Type) where
  convertString : Text → Except UInt32 δ
  hasDacl : δ → Bool
  hasOwner : δ → Bool
  hasGroup : δ → Bool

structure SecurityInformation where
  owner : Bool
  group : Bool
  deriving DecidableEq

/-- The part of `write_descriptor` before the object is changed. `missing` makes the error for a
part that the generated descriptor lacks. -/
def generatedDescriptor {δ : Type} (api : SddlApi δ) (missing : Text → TargetError)
    (descriptor : SecurityDescriptor) : Except TargetError (δ × SecurityInformation) :=
  match api.convertString (descriptorToSddl descriptor) with
  | .error code =>
    .error (.windowsApi code "ConvertStringSecurityDescriptorToSecurityDescriptorW".toList)
  | .ok generated =>
    if api.hasDacl generated = false then
      .error (missing "generated security descriptor has no DACL".toList)
    else if descriptor.owner.isSome ∧ api.hasOwner generated = false then
      .error (missing "generated security descriptor has no owner SID".toList)
    else if descriptor.group.isSome ∧ api.hasGroup generated = false then
      .error (missing "generated security descriptor has no group SID".toList)
    else .ok (generated, ⟨descriptor.owner.isSome, descriptor.group.isSome⟩)

end WindowsErg.Security
