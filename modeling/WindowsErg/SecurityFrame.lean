import WindowsErg.SecurityStored

/-! What permission edits leave alone. An edit reads the whole list, drops what it does not
understand and writes the rest. -/
namespace WindowsErg.Security
open List TextScan ByteCodec SddlLanguage

variable {aliases : Text → Option Bytes} {κ : Type}

def inheritedFlag : UInt8 := 0x10

/-- The operation is about this entry of the stored list. Inherited entries are exempt under a
policy that preserves them. -/
def PermissionOperation.Matches (policy : PermissionEditPolicy) (rule : AccessRule Bytes) :
    PermissionOperation → Prop
  | .grant _ _ => False
  | .deny _ _ => False
  | .revoke trustee access =>
    ¬ (policy.preserveInherited = true ∧ rule.flags &&& inheritedFlag ≠ 0) ∧
      rule.trustee = trustee.raw ∧ ∀ mask ∈ access, rule.mask = mask.bits
  | .replaceTrustee oldTrustee _ =>
    ¬ (policy.preserveInherited = true ∧ rule.flags &&& inheritedFlag ≠ 0) ∧
      rule.trustee = oldTrustee.raw

theorem entryFlags_not_inherited (flags : InheritanceFlags) :
    entryFlags flags &&& inheritedFlag = 0 := by
  rcases flags with ⟨oi, ci, io, np⟩
  cases oi <;> cases ci <;> cases io <;> cases np <;> decide

theorem ontoAce_of_unmatched (policy : PermissionEditPolicy) (entry : Ace)
    (op : PermissionOperation) (h : ¬ op.Matches policy (entryRule entry)) :
    PermissionEditPlan.ontoAce policy entry op = some entry := by
  have hinherited : ¬ (policy.preserveInherited = true ∧
      (entryRule entry).flags &&& inheritedFlag ≠ 0) :=
    fun hp => hp.2 (entryFlags_not_inherited entry.inheritance)
  cases op with
  | grant trustee access => rfl
  | deny trustee access => rfl
  | revoke trustee access =>
    have hretains : PermissionEditPlan.retains policy trustee access entry = true := by
      unfold PermissionEditPlan.retains
      split_ifs with hp ht
      · rfl
      · rfl
      · -- the trustee is the one to revoke, so there is a mask and it is another one
        have htrustee : entry.trustee = trustee := by simpa using ht
        cases access with
        | none => exact absurd ⟨hinherited, congrArg Sid.raw htrustee, by simp⟩ h
        | some mask =>
          have hmask : entry.accessMask ≠ mask := by
            intro he
            apply h
            refine ⟨hinherited, congrArg Sid.raw htrustee, ?_⟩
            intro m hm
            rw [← Option.some.inj hm, ← he]
            rfl
          exact bne_iff_ne.mpr hmask
    exact if_pos hretains
  | replaceTrustee oldTrustee newTrustee =>
    have hne : (entry.trustee == oldTrustee) = false :=
      beq_eq_false_iff_ne.mpr fun he => h ⟨hinherited, congrArg Sid.raw he⟩
    simp [PermissionEditPlan.ontoAce, PermissionEditPlan.replaced, hne]

theorem trackAce_of_unmatched (policy : PermissionEditPolicy) (ops : List PermissionOperation)
    (entry : Ace) (h : ∀ op ∈ ops, ¬ op.Matches policy (entryRule entry)) :
    PermissionEditPlan.trackAce policy ops entry = some entry := by
  induction ops with
  | nil => rfl
  | cons op ops ih =>
    rw [PermissionEditPlan.trackAce, ontoAce_of_unmatched policy entry op (h op (by simp))]
    exact ih fun o ho => h o (by simp [ho])

theorem mem_edited_of_unmatched (plan : PermissionEditPlan) (current : Dacl) (entry : Ace)
    (hentry : entry ∈ current.entries)
    (h : ∀ op ∈ plan.operations, ¬ op.Matches plan.policy (entryRule entry)) :
    entry ∈ (plan.edited current).entries := by
  rw [(plan.edited_perm current).mem_iff]
  apply mem_append_left
  exact mem_filterMap.mpr ⟨entry, hentry, trackAce_of_unmatched _ _ entry h⟩

structure PermissionEditPlan.Frame (plan : PermissionEditPlan) (before after : Stored) : Prop where
  aces : ∀ ace ∈ before.aces,
    (∀ op ∈ plan.operations, ¬ op.Matches plan.policy ace.toAccessRule) →
      ∃ kept ∈ after.aces, kept.toAccessRule = ace.toAccessRule
  control : after.daclControl = before.daclControl
  null : after.daclEntries.isNone = before.daclEntries.isNone

/-- The edits that succeed on an object with this text, whatever else the system answers, are
within the frame. -/
def EditsInFrame (aliases : Text → Option Bytes) (target : PermissionTarget) (text : Text) : Prop :=
  ∀ before ∈ SddlLanguage.read (resolveTrustee aliases) text,
    ∀ (κ : Type) (sys : SecuritySystem aliases κ), target.Returns sys text →
      ∀ (plan : PermissionEditPlan) (result : DescriptorEditResult) (after : Stored),
        (plan.executeAgainstTarget (target.readStored sys) (target.writeStored sys)
          .apply).run.run before = (.ok result, after) → plan.Frame before after

/-- The DACL has no control flag and is not NULL, and for each of its entries the backend reads one
of the same type, flags, mask and trustee; or the backend does not read the text at all. -/
def KeptWhole (aliases : Text → Option Bytes) (target : PermissionTarget) (text : Text) : Prop :=
  ∀ before ∈ SddlLanguage.read (resolveTrustee aliases) text,
    ∀ current ∈ (target.parseText text).toOption,
      before.daclControl = {} ∧ before.daclEntries.isSome = true ∧
        ∀ ace ∈ before.aces, ∃ entry ∈ current.dacl.entries, entryRule entry = ace.toAccessRule

instance (aliases : Text → Option Bytes) (target : PermissionTarget) (text : Text) :
    Decidable (KeptWhole aliases target text) :=
  inferInstanceAs (Decidable (∀ before ∈ SddlLanguage.read (resolveTrustee aliases) text,
    ∀ current ∈ (target.parseText text).toOption,
      before.daclControl = {} ∧ before.daclEntries.isSome = true ∧
        ∀ ace ∈ before.aces, ∃ entry ∈ current.dacl.entries, entryRule entry = ace.toAccessRule))

def emptyPlan : PermissionEditPlan where
  policy := {}
  operations := []
  consistent := fun _ => rfl

theorem aces_storeWritten (d : SecurityDescriptor) (stored : Stored) :
    (storeWritten aliases d stored).aces = d.dacl.entries.map entryAce := by
  rw [Descriptor.aces, Descriptor.daclEntries, storeWritten_dacl]
  rfl

theorem editsInFrame_of_keptWhole {target : PermissionTarget} {text : Text}
    (h : KeptWhole aliases target text) : EditsInFrame aliases target text := by
  intro before hbefore κ sys htext plan result after hrun
  obtain ⟨current, hread, rfl⟩ := executeAgainstTarget_ok hrun
  have hparse := parseText_of_readDescriptor htext hread
  obtain ⟨hcontrol, hnull, haces⟩ := h before hbefore current (by rw [hparse]; rfl)
  refine ⟨?_, ?_, ?_⟩
  · intro ace hace hunmatched
    obtain ⟨entry, hentry, hrule⟩ := haces ace hace
    rw [← hrule] at hunmatched
    have hkept := mem_edited_of_unmatched plan current.dacl entry hentry hunmatched
    refine ⟨entryAce entry, ?_, hrule⟩
    rw [aces_storeWritten]
    exact mem_map_of_mem hkept
  · rw [hcontrol, Descriptor.daclControl, storeWritten_dacl]
    rfl
  · have hnone : before.daclEntries.isNone = false := by rw [← Option.not_isSome, hnull]; rfl
    rw [hnone, Descriptor.daclEntries, storeWritten_dacl]
    rfl

theorem keptWhole_of_editsInFrame {target : PermissionTarget} {text : Text}
    (h : EditsInFrame aliases target text) : KeptWhole aliases target text := by
  intro before hbefore current hcurrent
  have hparse : target.parseText text = .ok current := by
    cases hp : target.parseText text with
    | error e => simp [hp, Except.toOption] at hcurrent
    | ok d => simpa [hp, Except.toOption] using hcurrent
  -- the empty plan succeeds where nothing is refused, and it matches no entry
  have hread := (willingSystem_read aliases target text).trans hparse
  have hwrite := willingSystem_write aliases target text
    { current with dacl := emptyPlan.edited current.dacl } hparse
  have hrun := executeAgainstTarget_apply target (willingSystem aliases text) emptyPlan before
  simp only [hread, hwrite] at hrun
  have hframe := h before hbefore Unit (willingSystem aliases text)
    (willingSystem_returns aliases target text) emptyPlan _ _ hrun
  refine ⟨?_, ?_, ?_⟩
  · rw [← hframe.control, Descriptor.daclControl, storeWritten_dacl]
    rfl
  · have hnull := hframe.null
    rw [Descriptor.daclEntries, storeWritten_dacl] at hnull
    rw [← Option.not_isNone, ← hnull]
    rfl
  · intro ace hace
    obtain ⟨kept, hkept, hrule⟩ := hframe.aces ace hace (by simp [emptyPlan])
    rw [aces_storeWritten] at hkept
    obtain ⟨entry, hentry, rfl⟩ := mem_map.mp hkept
    refine ⟨entry, ?_, hrule⟩
    exact (Dacl.mem_canonicalize current.dacl entry).mp hentry

def domainAliases (text : Text) : Option Bytes :=
  if text = "DA".toList then spelledSid "S-1-5-21-1-2-3-512".toList
  else (sddlAliasToSid text).bind spelledSid

def LeavesFrame (text : Text) : Prop :=
  ¬ EditsInFrame domainAliases (.filePath "C:\\data".toList) text ∧
    ¬ EditsInFrame domainAliases (.registryPath "HKLM\\Software".toList) text

theorem leavesFrame_of_loss {text : Text}
    (hfile : ¬ KeptWhole domainAliases (.filePath "C:\\data".toList) text)
    (hkey : ¬ KeptWhole domainAliases (.registryPath "HKLM\\Software".toList) text) :
    LeavesFrame text :=
  ⟨fun h => hfile (keptWhole_of_editsInFrame h), fun h => hkey (keptWhole_of_editsInFrame h)⟩

end WindowsErg.Security
