import WindowsErg.OrderedRules
import WindowsErg.SecurityCanonical

/-! What revoking a mask does to the access that a list grants. -/
namespace WindowsErg.Security
open List TextScan ByteCodec OrderedRules

abbrev Token := Bytes → Bool

def Ace.concerns (bit : Fin 32) (ace : Ace) : Bool :=
  !ace.inheritance.inheritOnly && ace.accessMask.bits.toNat.testBit bit

def Ace.allows (ace : Ace) : Bool := ace.aceType = .allow

/-- The bits that evaluating the list in its order grants to the token: for each bit the first
entry for one of the token's SIDs decides. -/
def Dacl.grantedAccess (dacl : Dacl) (token : Token) : Finset (Fin 32) :=
  {bit | granted (fun ace => token ace.trustee.raw && ace.concerns bit) Ace.allows
    dacl.entries = true}

def PermissionOperation.RevokesMask (op : PermissionOperation) : Prop :=
  ∃ trustee mask, op = .revoke trustee (some mask)

variable {plan : PermissionEditPlan} {mask : AccessMask}

namespace PermissionEditPlan

variable {policy : PermissionEditPolicy}

def stays (policy : PermissionEditPolicy) (ops : List PermissionOperation) (ace : Ace) : Bool :=
  (trackAce policy ops ace).isSome

theorem foldl_revokes (ops : List PermissionOperation) (h : ∀ op ∈ ops, op.RevokesMask)
    (next : List Ace) :
    ops.foldl (applyOperation policy) next = next.filter (stays policy ops) := by
  induction ops generalizing next with
  | nil => exact (filter_eq_self.mpr fun _ _ => rfl).symm
  | cons op ops ih =>
    obtain ⟨trustee, mask, rfl⟩ := h op mem_cons_self
    rw [foldl_cons, ih fun o ho => h o (mem_cons_of_mem _ ho), applyOperation,
      filter_filter]
    apply filter_congr
    intro ace _
    unfold stays
    rw [trackAce, ontoAce]
    cases retains policy trustee (some mask) ace with
    | false => simp
    | true => simp

theorem edited_revokes {current : Dacl} (hc : current.Canonical)
    (h : ∀ op ∈ plan.operations, op.RevokesMask) :
    plan.edited current = ⟨current.entries.filter (stays plan.policy plan.operations)⟩ := by
  unfold edited
  rw [foldl_revokes plan.operations h]
  apply Dacl.canonicalize_eq_self
  rw [Dacl.canonical_iff_sorted] at hc ⊢
  exact hc.filter _

def beforeLast (plan : PermissionEditPlan) (current : Dacl) : List Ace :=
  plan.operations.dropLast.foldl (applyOperation plan.policy) current.entries

theorem mem_edited_last {trustee : Sid}
    (hlast : plan.operations.getLast? = some (.revoke trustee (some mask))) (current : Dacl)
    (ace : Ace) :
    ace ∈ (plan.edited current).entries ↔
      ace ∈ plan.beforeLast current ∧ retains plan.policy trustee (some mask) ace = true := by
  have hops : plan.operations = plan.operations.dropLast ++ [.revoke trustee (some mask)] :=
    (dropLast_append_getLast? _ hlast).symm
  have hfold : plan.operations.foldl (applyOperation plan.policy) current.entries =
      (plan.beforeLast current).filter (retains plan.policy trustee (some mask)) := by
    rw [hops, foldl_append]
    rfl
  unfold edited
  rw [Dacl.mem_canonicalize, hfold]
  exact mem_filter

end PermissionEditPlan

def Ace.StillAllows (ace : Ace) (trustee : Sid) (mask : AccessMask) : Prop :=
  ace.inherited = false ∧ ace.aceType = .allow ∧ ace.trustee.raw = trustee.raw ∧
    ace.accessMask.bits &&& mask.bits ≠ 0

theorem retains_explicit (policy : PermissionEditPolicy) {trustee : Sid} {ace : Ace}
    (h : ace.inherited = false) :
    PermissionEditPlan.retains policy trustee (some mask) ace = true ↔
      ¬ (ace.trustee = trustee ∧ ace.accessMask = mask) := by
  unfold PermissionEditPlan.retains
  by_cases ht : ace.trustee = trustee
  · simp [h, ht]
  · simp [h, ht]

theorem noneStillAllows_iff {trustee : Sid}
    (hlast : plan.operations.getLast? = some (.revoke trustee (some mask))) (current : Dacl) :
    (∀ ace ∈ (plan.edited current).entries, ¬ ace.StillAllows trustee mask) ↔
      ∀ ace ∈ plan.beforeLast current, ace.StillAllows trustee mask →
        ace.trustee = trustee ∧ ace.accessMask = mask := by
  constructor
  · intro h ace hace hallows
    by_contra hother
    have hretained := (retains_explicit plan.policy hallows.1).mpr hother
    exact h ace ((PermissionEditPlan.mem_edited_last hlast current ace).mpr
      ⟨hace, hretained⟩) hallows
  · intro h ace hace hallows
    obtain ⟨hin, hretained⟩ := (PermissionEditPlan.mem_edited_last hlast current ace).mp hace
    exact (retains_explicit plan.policy hallows.1).mp hretained (h ace hin hallows)

def PermissionEditPlan.DropsNoShield (plan : PermissionEditPlan) (current : Dacl) : Prop :=
  ∀ bit, Shielded (fun ace => ace.trustee.raw) (Ace.concerns bit) Ace.allows
    (stays plan.policy plan.operations) current.entries

theorem grantedAccess_subset_iff {current : Dacl} (hc : current.Canonical)
    (h : ∀ op ∈ plan.operations, op.RevokesMask) :
    (∀ token, (plan.edited current).grantedAccess token ⊆ current.grantedAccess token) ↔
      plan.DropsNoShield current := by
  rw [PermissionEditPlan.edited_revokes hc h]
  -- bit by bit, for all tokens at once
  have hbits : (∀ token, Dacl.grantedAccess
        ⟨current.entries.filter (PermissionEditPlan.stays plan.policy plan.operations)⟩ token ⊆
        current.grantedAccess token) ↔
      ∀ bit : Fin 32, ∀ token : Token,
        granted (fun ace => token ace.trustee.raw && ace.concerns bit) Ace.allows
          (current.entries.filter (PermissionEditPlan.stays plan.policy plan.operations)) = true →
        granted (fun ace => token ace.trustee.raw && ace.concerns bit) Ace.allows
          current.entries = true := by
    simp only [Dacl.grantedAccess, Finset.subset_iff, Finset.mem_filter, Finset.mem_univ, true_and]
    exact forall_comm
  rw [hbits]
  apply forall_congr'
  intro bit
  exact granted_filter_le_iff (fun ace : Ace => ace.trustee.raw) (Ace.concerns bit) Ace.allows
    (PermissionEditPlan.stays plan.policy plan.operations) current.entries

/-- After a last revoke of a mask no explicit allow entry of the trustee has a bit of it, exactly
when those that had one had the very mask and the SID in the revoke's spelling; and a plan of such
revokes takes access away exactly when it drops no deny entry that held back one that stays. -/
theorem revoke_takes_access_away_iff (plan : PermissionEditPlan) (current next : Dacl)
    (hc : current.Canonical) (hnext : (plan.execute current .apply).updatedDacl = some next) :
    (∀ trustee mask, plan.operations.getLast? = some (.revoke trustee (some mask)) →
      ((∀ ace ∈ next.entries, ¬ ace.StillAllows trustee mask) ↔
        ∀ ace ∈ plan.beforeLast current, ace.StillAllows trustee mask →
          ace.trustee = trustee ∧ ace.accessMask = mask)) ∧
    ((∀ op ∈ plan.operations, op.RevokesMask) →
      ((∀ token, next.grantedAccess token ⊆ current.grantedAccess token) ↔
        plan.DropsNoShield current)) := by
  have hedited : plan.edited current = next := Option.some.inj hnext
  subst hedited
  exact ⟨fun trustee mask hlast => noneStillAllows_iff hlast current,
    fun h => grantedAccess_subset_iff hc h⟩

/-- The revoke of the one mask that the trustee has takes all of its access away. -/
theorem revoke_takes_access_away_exact_mask :
    ∃ (users : Sid) (plan : PermissionEditPlan) (next : Dacl),
      Sid.parse "S-1-5-32-545".toList = .ok users ∧
      (PermissionEditor.revoke {} users (some ⟨1⟩)).build = .ok plan ∧
      (plan.execute ⟨[Ace.new users .allow ⟨1⟩]⟩ .apply).updatedDacl = some next ∧
      (∀ ace ∈ next.entries, ¬ ace.StillAllows users ⟨1⟩) ∧
      ∀ token, next.grantedAccess token ⊆
        Dacl.grantedAccess ⟨[Ace.new users .allow ⟨1⟩]⟩ token := by
  obtain ⟨users, husers, -, -⟩ := Sid.exists_parse "S-1-5-32-545".toList
    [1, 2, 0, 0, 0, 0, 0, 5, 32, 0, 0, 0, 33, 2, 0, 0] (by decide)
  let plan : PermissionEditPlan :=
    ⟨{}, [.revoke users (some ⟨1⟩)], fun _ => by simp [PermissionOperation.conflictsIn]⟩
  let current : Dacl := ⟨[Ace.new users .allow ⟨1⟩]⟩
  have hc : current.Canonical := rfl
  have hiff := revoke_takes_access_away_iff plan current _ hc rfl
  refine ⟨users, plan, _, husers, ?_, rfl, ?_, ?_⟩
  · simp [PermissionEditor.build, PermissionEditor.revoke, PermissionOperation.conflictsIn, plan]
  · apply (hiff.1 users ⟨1⟩ rfl).mpr
    intro ace hace _
    have hone : ace = Ace.new users .allow ⟨1⟩ := mem_singleton.mp hace
    rw [hone]
    exact ⟨rfl, rfl⟩
  · apply (hiff.2 ?_).mpr
    · intro bit
      apply shielded_of_dropped_allow
      intro ace hace _
      have hone : ace = Ace.new users .allow ⟨1⟩ := mem_singleton.mp hace
      rw [hone]
      rfl
    · intro op hop
      exact ⟨users, ⟨1⟩, mem_singleton.mp hop⟩

theorem concerns_one (trustee : Sid) (aceType : AceType) (bit : Fin 32) :
    (Ace.new trustee aceType ⟨1⟩).concerns bit = decide (bit = 0) := by
  have hbits : ∀ b : Fin 32, (1 : UInt32).toNat.testBit b = decide (b = 0) := by decide
  exact hbits bit

/-- Revoking 1 from a group that has 3 leaves 3, and revoking 1 from a group that is denied 1 gives
its members what everyone has. -/
theorem revoke_leaves_and_grants_access :
    ∃ (users everyone : Sid) (plan : PermissionEditPlan),
      Sid.parse "S-1-5-32-545".toList = .ok users ∧ Sid.parse "S-1-1-0".toList = .ok everyone ∧
      (PermissionEditor.revoke {} users (some ⟨1⟩)).build = .ok plan ∧
      (plan.execute ⟨[Ace.new users .allow ⟨3⟩]⟩ .apply).updatedDacl =
        some ⟨[Ace.new users .allow ⟨3⟩]⟩ ∧
      (Ace.new users .allow ⟨3⟩).StillAllows users ⟨1⟩ ∧
      Dacl.Canonical ⟨[Ace.new users .deny ⟨1⟩, Ace.new everyone .allow ⟨1⟩]⟩ ∧
      (plan.execute ⟨[Ace.new users .deny ⟨1⟩, Ace.new everyone .allow ⟨1⟩]⟩ .apply).updatedDacl =
        some ⟨[Ace.new everyone .allow ⟨1⟩]⟩ ∧
      Dacl.grantedAccess ⟨[Ace.new users .deny ⟨1⟩, Ace.new everyone .allow ⟨1⟩]⟩
        (fun s => s = users.raw ∨ s = everyone.raw) = ∅ ∧
      Dacl.grantedAccess ⟨[Ace.new everyone .allow ⟨1⟩]⟩
        (fun s => s = users.raw ∨ s = everyone.raw) = {0} := by
  obtain ⟨users, husers, hraw, -⟩ := Sid.exists_parse "S-1-5-32-545".toList
    [1, 2, 0, 0, 0, 0, 0, 5, 32, 0, 0, 0, 33, 2, 0, 0] (by decide)
  obtain ⟨everyone, heveryone, hraw', -⟩ := Sid.exists_parse "S-1-1-0".toList
    [1, 1, 0, 0, 0, 0, 0, 1, 0, 0, 0, 0] (by decide)
  have hne : everyone ≠ users := by
    intro he
    rw [he, hraw] at hraw'
    exact absurd hraw' (by decide)
  have htrustee (s : Sid) (t : AceType) (m : AccessMask) : (Ace.new s t m).trustee = s := rfl
  have hallows (s : Sid) (t : AceType) (m : AccessMask) :
      (Ace.new s t m).allows = decide (t = .allow) := rfl
  let plan : PermissionEditPlan :=
    ⟨{}, [.revoke users (some ⟨1⟩)], fun _ => by simp [PermissionOperation.conflictsIn]⟩
  refine ⟨users, everyone, plan, husers, heveryone, ?_, ?_, ?_, rfl, ?_, ?_, ?_⟩
  · simp [PermissionEditor.build, PermissionEditor.revoke, PermissionOperation.conflictsIn, plan]
  · have hstays : PermissionEditPlan.retains {} users (some ⟨1⟩) (Ace.new users .allow ⟨3⟩) =
        true := by
      simp [PermissionEditPlan.retains, Ace.new]
    simp [PermissionEditPlan.execute, PermissionEditPlan.edited, PermissionEditPlan.applyOperation,
      plan, hstays, Dacl.canonicalize]
  · exact ⟨rfl, rfl, rfl, show (3 : UInt32) &&& 1 ≠ 0 by decide⟩
  · have hdrops : PermissionEditPlan.retains {} users (some ⟨1⟩) (Ace.new users .deny ⟨1⟩) =
        false := by
      simp [PermissionEditPlan.retains, Ace.new]
    have hstays : PermissionEditPlan.retains {} users (some ⟨1⟩) (Ace.new everyone .allow ⟨1⟩) =
        true := by
      simp [PermissionEditPlan.retains, Ace.new, hne]
    simp [PermissionEditPlan.execute, PermissionEditPlan.edited, PermissionEditPlan.applyOperation,
      plan, hdrops, hstays, Dacl.canonicalize]
  · ext bit
    by_cases hb : bit = 0
    · simp [Dacl.grantedAccess, granted, concerns_one, hb, htrustee, hallows]
    · simp [Dacl.grantedAccess, granted, concerns_one, hb]
  · ext bit
    by_cases hb : bit = 0
    · simp [Dacl.grantedAccess, granted, concerns_one, hb, htrustee, hallows]
    · simp [Dacl.grantedAccess, granted, concerns_one, hb]

end WindowsErg.Security
