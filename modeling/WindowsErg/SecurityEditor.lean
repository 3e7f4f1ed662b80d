import WindowsErg.ListDiff
import WindowsErg.SecurityAcl

/-! Permission edits planned over a DACL and their diff, `src/security/editor.rs`. -/
namespace WindowsErg.Security
open List TextScan

inductive ApplyMode where
  | validateOnly
  | apply
  | dryRunDiff
  deriving DecidableEq, Repr

structure PermissionEditPolicy where
  preserveInherited : Bool := true
  rejectConflictingChanges : Bool := true
  deriving DecidableEq, Repr

inductive PermissionOperation where
  | grant (trustee : Sid) (access : AccessMask)
  | deny (trustee : Sid) (access : AccessMask)
  | revoke (trustee : Sid) (access : Option AccessMask)
  | replaceTrustee (oldTrustee newTrustee : Sid)
  deriving DecidableEq

structure PermissionEditError where
  operation : Text
  reason : Text
  deriving DecidableEq, Repr

def PermissionOperation.conflictsIn (operations : List PermissionOperation) :
    PermissionOperation → Bool
  | .grant trustee access => operations.contains (.deny trustee access)
  | _ => false

structure PermissionEditor where
  policy : PermissionEditPolicy := {}
  operations : List PermissionOperation := []
  deriving DecidableEq

/-- A plan is only made by `build`, so that it has passed the conflict check of its
policy. -/
@[ext] structure PermissionEditPlan where
  policy : PermissionEditPolicy
  operations : List PermissionOperation
  consistent : policy.rejectConflictingChanges = true →
    operations.any (·.conflictsIn operations) = false
  deriving DecidableEq

namespace PermissionEditor

def grant (editor : PermissionEditor) (trustee : Sid) (access : AccessMask) :
    PermissionEditor :=
  { editor with operations := editor.operations ++ [.grant trustee access] }

def deny (editor : PermissionEditor) (trustee : Sid) (access : AccessMask) :
    PermissionEditor :=
  { editor with operations := editor.operations ++ [.deny trustee access] }

def revoke (editor : PermissionEditor) (trustee : Sid) (access : Option AccessMask) :
    PermissionEditor :=
  { editor with operations := editor.operations ++ [.revoke trustee access] }

def replaceTrustee (editor : PermissionEditor) (oldTrustee newTrustee : Sid) :
    PermissionEditor :=
  { editor with operations := editor.operations ++ [.replaceTrustee oldTrustee newTrustee] }

def build (editor : PermissionEditor) : Except PermissionEditError PermissionEditPlan :=
  if h : editor.policy.rejectConflictingChanges = true ∧
      editor.operations.any (·.conflictsIn editor.operations) = true then
    .error ⟨"grant/deny".toList,
      "conflicting allow and deny operation for same trustee and mask".toList⟩
  else
    .ok ⟨editor.policy, editor.operations,
      fun hp => Bool.eq_false_iff.mpr (fun hc => h ⟨hp, hc⟩)⟩

end PermissionEditor

structure PermissionDiff where
  added : List Ace
  removed : List Ace
  deriving DecidableEq

def PermissionDiff.between (before after : Dacl) : PermissionDiff where
  added := after.entries.filter (fun ace => !before.entries.contains ace)
  removed := before.entries.filter (fun ace => !after.entries.contains ace)

structure PermissionEditResult where
  mode : ApplyMode
  updatedDacl : Option Dacl
  diff : PermissionDiff
  deriving DecidableEq

structure DescriptorEditResult where
  mode : ApplyMode
  updatedDescriptor : Option SecurityDescriptor
  diff : PermissionDiff
  deriving DecidableEq

variable (plan : PermissionEditPlan) (current : Dacl)

namespace PermissionEditPlan

def retains (policy : PermissionEditPolicy) (trustee : Sid) (access : Option AccessMask)
    (ace : Ace) : Bool :=
  if policy.preserveInherited && ace.inherited then true
  else if ace.trustee != trustee then true
  else
    match access with
    | some mask => ace.accessMask != mask
    | none => false

def replaced (policy : PermissionEditPolicy) (oldTrustee newTrustee : Sid) (ace : Ace) : Ace :=
  if policy.preserveInherited && ace.inherited then ace
  else if ace.trustee == oldTrustee then { ace with trustee := newTrustee }
  else ace

def applyOperation (policy : PermissionEditPolicy) (next : List Ace) :
    PermissionOperation → List Ace
  | .grant trustee access => next ++ [Ace.new trustee .allow access]
  | .deny trustee access => next ++ [Ace.new trustee .deny access]
  | .revoke trustee access => next.filter (retains policy trustee access)
  | .replaceTrustee oldTrustee newTrustee => next.map (replaced policy oldTrustee newTrustee)

def edited (plan : PermissionEditPlan) (current : Dacl) : Dacl :=
  (Dacl.mk (plan.operations.foldl (applyOperation plan.policy) current.entries)).canonicalize

def execute (plan : PermissionEditPlan) (current : Dacl) (mode : ApplyMode) :
    PermissionEditResult :=
  if mode = .validateOnly then
    { mode, updatedDacl := none, diff := PermissionDiff.between current current }
  else
    let next := plan.edited current
    { mode, updatedDacl := if mode = .apply then some next else none,
      diff := PermissionDiff.between current next }

def executeOnDescriptor (plan : PermissionEditPlan) (current : SecurityDescriptor)
    (mode : ApplyMode) : DescriptorEditResult :=
  let daclResult := plan.execute current.dacl mode
  { mode := daclResult.mode,
    updatedDescriptor := daclResult.updatedDacl.map (fun next => { current with dacl := next }),
    diff := daclResult.diff }

def ontoAce (policy : PermissionEditPolicy) (ace : Ace) : PermissionOperation → Option Ace
  | .grant _ _ => some ace
  | .deny _ _ => some ace
  | .revoke trustee access => if retains policy trustee access ace then some ace else none
  | .replaceTrustee oldTrustee newTrustee => some (replaced policy oldTrustee newTrustee ace)

def trackAce (policy : PermissionEditPolicy) : List PermissionOperation → Ace → Option Ace
  | [], ace => some ace
  | op :: ops, ace => (ontoAce policy ace op).bind (trackAce policy ops)

def newAce : PermissionOperation → List Ace
  | .grant trustee access => [Ace.new trustee .allow access]
  | .deny trustee access => [Ace.new trustee .deny access]
  | .revoke _ _ => []
  | .replaceTrustee _ _ => []

def newAces (policy : PermissionEditPolicy) : List PermissionOperation → List Ace
  | [] => []
  | op :: ops => (newAce op).filterMap (trackAce policy ops) ++ newAces policy ops

theorem applyOperation_eq (policy : PermissionEditPolicy) (next : List Ace)
    (op : PermissionOperation) :
    applyOperation policy next op = next.filterMap (ontoAce policy · op) ++ newAce op := by
  cases op with
  | grant trustee access => simp [applyOperation, ontoAce, newAce]
  | deny trustee access => simp [applyOperation, ontoAce, newAce]
  | revoke trustee access =>
    simp only [applyOperation, ontoAce, newAce, append_nil]
    exact filterMap_eq_filter.symm ▸ rfl
  | replaceTrustee oldTrustee newTrustee =>
    simp only [applyOperation, ontoAce, newAce, append_nil]
    exact (congrFun filterMap_eq_map next).symm

theorem foldl_applyOperation (policy : PermissionEditPolicy) (ops : List PermissionOperation)
    (next : List Ace) :
    ops.foldl (applyOperation policy) next =
      next.filterMap (trackAce policy ops) ++ newAces policy ops := by
  -- one operation after the other, on the entries that the ones before have left
  induction ops generalizing next with
  | nil => simp [trackAce, newAces]
  | cons op ops ih =>
    rw [foldl_cons, ih, applyOperation_eq, filterMap_append,
      filterMap_filterMap, newAces, append_assoc]
    rfl

theorem edited_perm :
    (plan.edited current).entries.Perm
      (current.entries.filterMap (trackAce plan.policy plan.operations) ++
        newAces plan.policy plan.operations) := by
  rw [← foldl_applyOperation]
  exact Dacl.canonicalize_perm _

def copiesMade (plan : PermissionEditPlan) (current : Dacl) (ace : Ace) : ℕ :=
  current.entries.countP
      (fun x => decide (x ≠ ace ∧ trackAce plan.policy plan.operations x = some ace))+
    (newAces plan.policy plan.operations).count ace

theorem count_edited (ace : Ace) :
    (plan.edited current).entries.count ace =
      (if trackAce plan.policy plan.operations ace = some ace then current.entries.count ace
        else 0)+plan.copiesMade current ace := by
  rw [(plan.edited_perm current).count_eq, count_append, ListDiff.count_filterMap,
    copiesMade, Nat.add_assoc]

/-- No entry of the current list changes its number of copies without vanishing: one that
the plan keeps is not made again, one that it drops or rewrites is made again not at all
or as often as it was there. -/
def KeepsCounts (plan : PermissionEditPlan) (current : Dacl) : Prop :=
  ∀ ace ∈ current.entries,
    if trackAce plan.policy plan.operations ace = some ace then plan.copiesMade current ace = 0
    else plan.copiesMade current ace = 0 ∨
      plan.copiesMade current ace = current.entries.count ace

instance (plan : PermissionEditPlan) (current : Dacl) : Decidable (plan.KeepsCounts current) :=
  inferInstanceAs (Decidable (∀ ace ∈ current.entries,
    if trackAce plan.policy plan.operations ace = some ace then plan.copiesMade current ace = 0
    else plan.copiesMade current ace = 0 ∨
      plan.copiesMade current ace = current.entries.count ace))

theorem keepsCounts_iff :
    plan.KeepsCounts current ↔ ∀ ace ∈ current.entries, ace ∈ (plan.edited current).entries →
      current.entries.count ace = (plan.edited current).entries.count ace := by
  apply forall₂_congr
  intro ace hace
  have hpos : 0 < current.entries.count ace := count_pos_iff.mpr hace
  rw [← count_pos_iff (l := (plan.edited current).entries), count_edited]
  by_cases hkeep : trackAce plan.policy plan.operations ace = some ace
  · rw [if_pos hkeep, if_pos hkeep]
    omega
  · rw [if_neg hkeep, if_neg hkeep]
    omega

end PermissionEditPlan

/-- What a diff of `before` and `after` is for: it patches the one multiset of entries
into the other, and it is empty exactly when they are the same. -/
structure PermissionDiff.Faithful (diff : PermissionDiff) (before after : Dacl) : Prop where
  patches : (before.entries : Multiset Ace)-diff.removed+diff.added = after.entries
  empty_iff : (diff.added = [] ∧ diff.removed = []) ↔
    (before.entries : Multiset Ace) = after.entries

theorem PermissionDiff.between_faithful_iff (before after : Dacl) :
    (PermissionDiff.between before after).Faithful before after ↔
      ∀ ace ∈ before.entries, ace ∈ after.entries →
        before.entries.count ace = after.entries.count ace := by
  have hpatch := ListDiff.patch_eq_iff before.entries after.entries
  constructor
  · intro h
    exact hpatch.mp h.patches
  · intro h
    refine ⟨hpatch.mpr h, ?_, ?_⟩
    · rintro ⟨hadded, hremoved⟩
      -- an empty patch changes nothing
      have hp := hpatch.mpr h
      rw [show ListDiff.missing before.entries after.entries = [] from hremoved,
        show ListDiff.missing after.entries before.entries = [] from hadded] at hp
      simpa using hp
    · intro he
      have hperm : before.entries.Perm after.entries := Multiset.coe_eq_coe.mp he
      exact ⟨ListDiff.missing_eq_nil_of_perm _ _ hperm.symm,
        ListDiff.missing_eq_nil_of_perm _ _ hperm⟩

def PermissionEditPlan.DiffFaithful (plan : PermissionEditPlan) (current : Dacl) : Prop :=
  ∃ next, (plan.execute current .apply).updatedDacl = some next ∧
    (plan.execute current .apply).diff.Faithful current next ∧
    (plan.execute current .dryRunDiff).diff.Faithful current next

theorem PermissionEditPlan.diffFaithful_iff_between :
    plan.DiffFaithful current ↔
      (PermissionDiff.between current (plan.edited current)).Faithful current
        (plan.edited current) := by
  constructor
  · rintro ⟨next, hnext, hdiff, -⟩
    have he : plan.edited current = next := Option.some.inj hnext
    subst he
    exact hdiff
  · intro h
    exact ⟨plan.edited current, rfl, h, h⟩

/-- The diff of a plan is faithful exactly when the plan changes no entry's number of copies
short of removing the entry. -/
theorem permission_diff_faithful_iff (plan : PermissionEditPlan) (current : Dacl) :
    plan.DiffFaithful current ↔ plan.KeepsCounts current := by
  rw [plan.diffFaithful_iff_between, PermissionDiff.between_faithful_iff, plan.keepsCounts_iff]

/-- Granting an entry that is already there adds a second copy, and the diff is empty. -/
theorem permission_diff_misses_second_grant :
    ∃ (sid : Sid) (plan : PermissionEditPlan),
      Sid.parse "S-1-5-32-545".toList = .ok sid ∧
      (PermissionEditor.grant {} sid ⟨2⟩).build = .ok plan ∧
      (plan.execute ⟨[Ace.new sid .allow ⟨2⟩]⟩ .apply).updatedDacl =
        some ⟨[Ace.new sid .allow ⟨2⟩, Ace.new sid .allow ⟨2⟩]⟩ ∧
      (plan.execute ⟨[Ace.new sid .allow ⟨2⟩]⟩ .apply).diff = ⟨[], []⟩ ∧
      ¬ plan.DiffFaithful ⟨[Ace.new sid .allow ⟨2⟩]⟩ := by
  obtain ⟨sid, hsid, -, -⟩ := Sid.exists_parse "S-1-5-32-545".toList
    [1, 2, 0, 0, 0, 0, 0, 5, 32, 0, 0, 0, 33, 2, 0, 0] (by decide)
  let ace := Ace.new sid .allow ⟨2⟩
  let plan : PermissionEditPlan :=
    ⟨{}, [.grant sid ⟨2⟩], fun _ => by simp [PermissionOperation.conflictsIn]⟩
  have hedited : plan.edited ⟨[ace]⟩ = ⟨[ace, ace]⟩ := rfl
  have hbetween : PermissionDiff.between ⟨[ace]⟩ ⟨[ace, ace]⟩ = ⟨[], []⟩ := by
    simp [PermissionDiff.between]
  refine ⟨sid, plan, hsid, ?_, ?_, ?_, ?_⟩
  · simp [PermissionEditor.build, PermissionEditor.grant, PermissionOperation.conflictsIn, plan]
  · exact congrArg some hedited
  · calc
      (plan.execute ⟨[ace]⟩ .apply).diff
        = PermissionDiff.between ⟨[ace]⟩ (plan.edited ⟨[ace]⟩) := rfl
      _ = PermissionDiff.between ⟨[ace]⟩ ⟨[ace, ace]⟩ := by rw [hedited]
      _ = ⟨[], []⟩ := hbetween
  · intro h
    have hf := (plan.diffFaithful_iff_between ⟨[ace]⟩).mp h
    rw [hedited] at hf
    have hcount := (PermissionDiff.between_faithful_iff _ _).mp hf ace (by simp) (by simp)
    simp at hcount

end WindowsErg.Security
