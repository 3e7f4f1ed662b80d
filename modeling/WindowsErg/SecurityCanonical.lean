import WindowsErg.KeyedSort
import WindowsErg.SecurityEditor

/-! The order of an edited list and its inherited entries, `src/security/editor.rs` and
`src/security/acl.rs`. -/
namespace WindowsErg.Security
open List KeyedSort

namespace Dacl

def ofKind (dacl : Dacl) (inherited : Bool) (aceType : AceType) : List Ace :=
  dacl.entries.filter fun ace => ace.inherited = inherited ∧ ace.aceType = aceType

def Canonical (dacl : Dacl) : Prop :=
  dacl.entries = dacl.ofKind false .deny ++ dacl.ofKind false .allow ++
    dacl.ofKind true .deny ++ dacl.ofKind true .allow

instance (dacl : Dacl) : Decidable dacl.Canonical := inferInstanceAs (Decidable (_ = _))

def kindKey (inherited : Bool) (aceType : AceType) : ℕ ×ₗ ℕ :=
  toLex (if inherited then 1 else 0,
    match aceType with
    | .deny => 0
    | .allow => 1)

theorem canonicalKey_eq_iff (ace : Ace) (inherited : Bool) (aceType : AceType) :
    canonicalKey ace = kindKey inherited aceType ↔
      ace.inherited = inherited ∧ ace.aceType = aceType := by
  rcases ace with ⟨trustee, type, mask, flags, inh⟩
  cases inh <;> cases type <;> cases inherited <;> cases aceType <;>
    simp [canonicalKey, kindKey]

theorem ofKind_eq_keyClass (dacl : Dacl) (inherited : Bool) (aceType : AceType) :
    dacl.ofKind inherited aceType =
      keyClass canonicalKey (kindKey inherited aceType) dacl.entries := by
  apply filter_congr
  intro ace _
  rw [decide_eq_decide]
  exact (canonicalKey_eq_iff ace inherited aceType).symm

def kindKeys : List (ℕ ×ₗ ℕ) :=
  [kindKey false .deny, kindKey false .allow, kindKey true .deny, kindKey true .allow]

theorem canonicalKey_mem_kindKeys (ace : Ace) : canonicalKey ace ∈ kindKeys := by
  have hkey : canonicalKey ace = kindKey ace.inherited ace.aceType :=
    (canonicalKey_eq_iff ace _ _).mpr ⟨rfl, rfl⟩
  rw [hkey]
  cases ace.inherited <;> cases ace.aceType <;> simp [kindKeys]

theorem kindKeys_increasing : kindKeys.Pairwise (· < ·) := by
  decide

theorem canonical_iff_sorted (dacl : Dacl) :
    dacl.Canonical ↔ dacl.entries.Pairwise fun a b => canonicalKey a ≤ canonicalKey b := by
  have hclasses : (kindKeys.flatMap fun k => keyClass canonicalKey k dacl.entries) =
      dacl.ofKind false .deny ++ dacl.ofKind false .allow ++ dacl.ofKind true .deny ++
        dacl.ofKind true .allow := by
    simp [kindKeys, ofKind_eq_keyClass]
  constructor
  · intro h
    rw [h, ← hclasses]
    apply pairwise_flatMap.mpr
    refine ⟨fun k _ => pairwise_keyClass canonicalKey k dacl.entries, ?_⟩
    apply kindKeys_increasing.imp
    intro k k' hlt a ha b hb
    rw [(mem_keyClass.mp ha).2, (mem_keyClass.mp hb).2]
    exact hlt.le
  · intro h
    rw [Canonical, ← hclasses]
    exact eq_flatMap_keyClass canonicalKey kindKeys kindKeys_increasing dacl.entries h
      fun ace _ => canonicalKey_mem_kindKeys ace

theorem canonicalize_canonical (dacl : Dacl) : dacl.canonicalize.Canonical :=
  (canonical_iff_sorted _).mpr (pairwise_insertionSort _ _)

theorem canonicalize_stable (dacl : Dacl) :
    StablePerm canonicalKey dacl.canonicalize.entries dacl.entries :=
  stablePerm_insertionSort canonicalKey dacl.entries

theorem ofKind_canonicalize (dacl : Dacl) (inherited : Bool) (aceType : AceType) :
    dacl.canonicalize.ofKind inherited aceType = dacl.ofKind inherited aceType := by
  rw [ofKind_eq_keyClass, ofKind_eq_keyClass]
  exact dacl.canonicalize_stable.classes _

theorem canonicalize_eq_self {dacl : Dacl} (h : dacl.Canonical) : dacl.canonicalize = dacl := by
  have hsorted := (canonical_iff_sorted dacl).mp h
  exact congrArg Dacl.mk hsorted.insertionSort_eq

end Dacl

namespace PermissionEditPlan

variable {policy : PermissionEditPolicy}

theorem filter_inherited_applyOperation (hp : policy.preserveInherited = true) (next : List Ace)
    (op : PermissionOperation) :
    (applyOperation policy next op).filter (·.inherited) = next.filter (·.inherited) := by
  cases op with
  | grant trustee access => simp [applyOperation, Ace.new]
  | deny trustee access => simp [applyOperation, Ace.new]
  | revoke trustee access =>
    rw [applyOperation, filter_filter]
    apply filter_congr
    intro ace _
    cases hi : ace.inherited with
    | false => simp
    | true => simp [retains, hp, hi]
  | replaceTrustee oldTrustee newTrustee =>
    -- the trustee changes in explicit entries only, and the flag in none
    have hflag (ace : Ace) : (replaced policy oldTrustee newTrustee ace).inherited =
        ace.inherited := by
      unfold replaced
      split_ifs <;> rfl
    rw [applyOperation, filter_map]
    have hfilter : next.filter ((·.inherited) ∘ replaced policy oldTrustee newTrustee) =
        next.filter (·.inherited) := filter_congr fun ace _ => hflag ace
    have hself : ∀ ace ∈ next.filter (·.inherited),
        replaced policy oldTrustee newTrustee ace = id ace := by
      intro ace hace
      have hi : ace.inherited = true := (mem_filter.mp hace).2
      simp [replaced, hp, hi]
    calc (next.filter ((·.inherited) ∘ replaced policy oldTrustee newTrustee)).map
          (replaced policy oldTrustee newTrustee)
        = (next.filter (·.inherited)).map (replaced policy oldTrustee newTrustee) := by rw [hfilter]
      _ = (next.filter (·.inherited)).map id := map_congr_left hself
      _ = next.filter (·.inherited) := map_id _

theorem filter_inherited_foldl (hp : policy.preserveInherited = true)
    (ops : List PermissionOperation) (next : List Ace) :
    (ops.foldl (applyOperation policy) next).filter (·.inherited) = next.filter (·.inherited) := by
  induction ops generalizing next with
  | nil => rfl
  | cons op ops ih =>
    rw [foldl_cons, ih, filter_inherited_applyOperation hp]

theorem ofKind_true_eq_filter (dacl : Dacl) (aceType : AceType) :
    dacl.ofKind true aceType =
      (dacl.entries.filter (·.inherited)).filter fun ace => ace.aceType = aceType := by
  rw [Dacl.ofKind, filter_filter]
  apply filter_congr
  intro ace _
  simp [Bool.and_comm]

/-- The edited list has the inherited entries of `current`, is in canonical order, and is what the
operations make of `current`. -/
structure EditsInOrder (plan : PermissionEditPlan) (current next : Dacl) : Prop where
  inherited : (next.entries.filter (·.inherited) : Multiset Ace) =
    current.entries.filter (·.inherited)
  inheritedOrder : ∀ aceType, next.ofKind true aceType = current.ofKind true aceType
  canonical : next.Canonical
  stable : StablePerm Dacl.canonicalKey next.entries
    (plan.operations.foldl (applyOperation plan.policy) current.entries)

theorem edited_editsInOrder (plan : PermissionEditPlan)
    (hp : plan.policy.preserveInherited = true) (current : Dacl) :
    plan.EditsInOrder current (plan.edited current) := by
  let folded := Dacl.mk (plan.operations.foldl (applyOperation plan.policy) current.entries)
  have hfilter : folded.entries.filter (·.inherited) = current.entries.filter (·.inherited) :=
    filter_inherited_foldl hp plan.operations current.entries
  have hstable := folded.canonicalize_stable
  refine ⟨?_, ?_, folded.canonicalize_canonical, hstable⟩
  · rw [← hfilter]
    exact Multiset.coe_eq_coe.mpr (hstable.perm.filter _)
  · intro aceType
    calc (plan.edited current).ofKind true aceType = folded.ofKind true aceType :=
          folded.ofKind_canonicalize true aceType
      _ = (folded.entries.filter (·.inherited)).filter fun ace => ace.aceType = aceType :=
          ofKind_true_eq_filter folded aceType
      _ = current.ofKind true aceType := by rw [hfilter, ← ofKind_true_eq_filter]

end PermissionEditPlan

/-- With `preserve_inherited`, the list that `Apply` returns has exactly the inherited entries of the
current one and is the canonical, stable rearrangement of the operations' result. -/
theorem inherited_aces_preserved (plan : PermissionEditPlan)
    (hp : plan.policy.preserveInherited = true) (current : Dacl) :
    ∃ next, (plan.execute current .apply).updatedDacl = some next ∧
      plan.EditsInOrder current next :=
  ⟨plan.edited current, rfl, plan.edited_editsInOrder hp current⟩

/-- A revoke for the trustee of an inherited and of an explicit entry. -/
theorem inherited_aces_preserved_revoke :
    ∃ (sid : Sid) (plan : PermissionEditPlan),
      Sid.parse "S-1-5-18".toList = .ok sid ∧
      (PermissionEditor.revoke {} sid none).build = .ok plan ∧
      ∃ next, (plan.execute ⟨[(Ace.new sid .allow ⟨1⟩).withInherited true,
          Ace.new sid .allow ⟨1⟩]⟩ .apply).updatedDacl = some next ∧
        plan.EditsInOrder ⟨[(Ace.new sid .allow ⟨1⟩).withInherited true,
          Ace.new sid .allow ⟨1⟩]⟩ next := by
  obtain ⟨sid, hsid, -, -⟩ := Sid.exists_parse "S-1-5-18".toList
    [1, 1, 0, 0, 0, 0, 0, 5, 18, 0, 0, 0] (by decide)
  let plan : PermissionEditPlan :=
    ⟨{}, [.revoke sid none], fun _ => by simp [PermissionOperation.conflictsIn]⟩
  refine ⟨sid, plan, hsid, ?_, inherited_aces_preserved plan rfl _⟩
  simp [PermissionEditor.build, PermissionEditor.revoke, PermissionOperation.conflictsIn, plan]

end WindowsErg.Security
