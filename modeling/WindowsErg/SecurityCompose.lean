import WindowsErg.SecurityCanonical
import WindowsErg.SecurityFrame

/-! Edits that follow one another. -/
namespace WindowsErg.Security
open List TextScan ByteCodec SddlLanguage KeyedSort

theorem Dacl.canonicalize_congr {a b : Dacl}
    (h : ∀ inherited aceType, a.ofKind inherited aceType = b.ofKind inherited aceType) :
    a.canonicalize = b.canonicalize := by
  have hentries : a.canonicalize.entries = b.canonicalize.entries := by
    rw [a.canonicalize_canonical, b.canonicalize_canonical]
    simp only [Dacl.ofKind_canonicalize, h]
  exact congrArg Dacl.mk hentries

namespace PermissionEditPlan

theorem ontoAce_kind {policy : PermissionEditPolicy} {ace next : Ace} {op : PermissionOperation}
    (h : ontoAce policy ace op = some next) :
    next.inherited = ace.inherited ∧ next.aceType = ace.aceType := by
  cases op with
  | grant trustee access => cases h; exact ⟨rfl, rfl⟩
  | deny trustee access => cases h; exact ⟨rfl, rfl⟩
  | revoke trustee access =>
    obtain ⟨-, hsame⟩ := Option.ite_none_right_eq_some.mp h
    cases hsame
    exact ⟨rfl, rfl⟩
  | replaceTrustee oldTrustee newTrustee =>
    cases h
    unfold replaced
    split_ifs <;> exact ⟨rfl, rfl⟩

theorem trackAce_kind {policy : PermissionEditPolicy} {ops : List PermissionOperation}
    {ace last : Ace} (h : trackAce policy ops ace = some last) :
    last.inherited = ace.inherited ∧ last.aceType = ace.aceType := by
  induction ops generalizing ace with
  | nil => cases h; exact ⟨rfl, rfl⟩
  | cons op ops ih =>
    obtain ⟨next, hnext, hrest⟩ := Option.bind_eq_some_iff.mp h
    obtain ⟨hinherited, htype⟩ := ontoAce_kind hnext
    exact ⟨(ih hrest).1.trans hinherited, (ih hrest).2.trans htype⟩

theorem ofKind_foldl (policy : PermissionEditPolicy) (ops : List PermissionOperation) (dacl : Dacl)
    (inherited : Bool) (aceType : AceType) :
    (Dacl.mk (ops.foldl (applyOperation policy) dacl.entries)).ofKind inherited aceType =
      (dacl.ofKind inherited aceType).filterMap (trackAce policy ops) ++
        (Dacl.mk (newAces policy ops)).ofKind inherited aceType := by
  have hkind : ∀ entries : List Ace, (entries.filterMap (trackAce policy ops)).filter
      (fun ace => ace.inherited = inherited ∧ ace.aceType = aceType) =
        (entries.filter fun ace => ace.inherited = inherited ∧ ace.aceType = aceType).filterMap
          (trackAce policy ops) := by
    intro entries
    rw [filter_filterMap, filterMap_filter]
    apply filterMap_congr
    intro ace _
    cases htrack : trackAce policy ops ace with
    | none => simp
    | some last =>
      obtain ⟨hinherited, htype⟩ := trackAce_kind htrack
      simp [Option.filter, hinherited, htype]
  rw [Dacl.ofKind, foldl_applyOperation, filter_append, hkind]
  rfl

/-- The order that the first edit puts the list in does not show in the result of the second. -/
theorem edited_edited {first second both : PermissionEditPlan}
    (hfirst : first.policy = both.policy) (hsecond : second.policy = both.policy)
    (hboth : both.operations = first.operations ++ second.operations) (current : Dacl) :
    second.edited (first.edited current) = both.edited current := by
  apply Dacl.canonicalize_congr
  intro inherited aceType
  rw [ofKind_foldl, edited, Dacl.ofKind_canonicalize, ← ofKind_foldl, hfirst, hsecond, hboth,
    foldl_append]

end PermissionEditPlan

theorem exists_grant_revoke : ∃ (sid : Sid) (first second both : PermissionEditPlan),
    sid.Reparsable ∧ (first.policy = both.policy ∧ second.policy = both.policy) ∧
      first.operations = [.grant sid ⟨1⟩] ∧ second.operations = [.revoke sid (some ⟨1⟩)] ∧
      both.operations = first.operations ++ second.operations := by
  obtain ⟨sid, -, hraw, hstring⟩ := Sid.exists_parse "S-1-5-18".toList
    [1, 1, 0, 0, 0, 0, 0, 5, 18, 0, 0, 0] (by decide)
  have hsid : sid.Reparsable := by
    unfold Sid.Reparsable Sid.identifierAuthority
    rw [hstring, hraw]
    decide
  exact ⟨sid, ⟨{}, [.grant sid ⟨1⟩], fun _ => by simp [PermissionOperation.conflictsIn]⟩,
    ⟨{}, [.revoke sid (some ⟨1⟩)], fun _ => by simp [PermissionOperation.conflictsIn]⟩,
    ⟨{}, [.grant sid ⟨1⟩, .revoke sid (some ⟨1⟩)],
      fun _ => by simp [PermissionOperation.conflictsIn]⟩, hsid, ⟨rfl, rfl⟩, rfl, rfl, rfl⟩

/-- Two edits one after the other give the list that the one edit with the operations of both
does. -/
theorem edits_compose {first second both : PermissionEditPlan} (hfirst : first.policy = both.policy)
    (hsecond : second.policy = both.policy)
    (hboth : both.operations = first.operations ++ second.operations) (current : Dacl) :
    ((first.execute current .apply).updatedDacl.bind fun next =>
        (second.execute next .apply).updatedDacl) = (both.execute current .apply).updatedDacl :=
  congrArg some (PermissionEditPlan.edited_edited hfirst hsecond hboth current)

/-- A right is granted and then revoked again. -/
theorem edits_compose_grant_revoke : ∃ (sid : Sid) (first second both : PermissionEditPlan),
    first.operations = [.grant sid ⟨1⟩] ∧ second.operations = [.revoke sid (some ⟨1⟩)] ∧
      ∀ current : Dacl, ((first.execute current .apply).updatedDacl.bind fun next =>
        (second.execute next .apply).updatedDacl) = (both.execute current .apply).updatedDacl := by
  obtain ⟨sid, first, second, both, -, ⟨hfirst, hsecond⟩, hgrant, hrevoke, hboth⟩ :=
    exists_grant_revoke
  exact ⟨sid, first, second, both, hgrant, hrevoke, edits_compose hfirst hsecond hboth⟩

theorem parseText_written {target : PermissionTarget} {d current : SecurityDescriptor}
    (h : target.parseText (descriptorToSddl d) = .ok current) :
    current.dacl = Dacl.canonicalize ⟨d.dacl.entries.filterMap readBack⟩ := by
  cases target with
  | filePath path =>
    simp only [PermissionTarget.parseText, File.sddlToDescriptor, sddlToDescriptor_written] at h
    cases h
    rfl
  | registryPath path =>
    obtain ⟨_, -, h⟩ := (Outcome.bind_eq_ok_iff _ _ _).mp h
    simp only [Registry.sddlToDescriptor, sddlToDescriptor_written] at h
    cases h
    rfl

/-- A list that the library itself has written is edited without a loss, as long as its SIDs can be
parsed. -/
theorem library_edits_in_frame (aliases : Text → Option Bytes) (target : PermissionTarget)
    (d : SecurityDescriptor) (h : ∀ entry ∈ d.dacl.entries, entry.trustee.Reparsable) :
    EditsInFrame aliases target (descriptorToSddl d) := by
  apply editsInFrame_of_keptWhole
  intro before hbefore current hcurrent
  rw [read_descriptorToSddl] at hbefore
  cases hbefore
  have hparse : target.parseText (descriptorToSddl d) = .ok current := by
    cases hp : target.parseText (descriptorToSddl d) with
    | error e => simp [hp, Except.toOption] at hcurrent
    | ok d => simpa [hp, Except.toOption] using hcurrent
  refine ⟨rfl, rfl, fun ace hace => ?_⟩
  obtain ⟨entry, hentry, rfl⟩ := mem_map.mp hace
  refine ⟨entry.withInherited false, ?_, rfl⟩
  rw [parseText_written hparse, Dacl.mem_canonicalize]
  exact mem_filterMap.mpr ⟨entry, hentry, if_pos (h entry hentry)⟩

/-- An entry for the local system account. -/
theorem library_edits_in_frame_entry : ∃ sid : Sid, sid.Reparsable ∧
    EditsInFrame domainAliases (.filePath "C:\\data".toList)
      (descriptorToSddl { target := .detached, dacl := ⟨[Ace.new sid .allow ⟨1⟩]⟩ }) := by
  obtain ⟨sid, -, -, -, hsid, -⟩ := exists_grant_revoke
  exact ⟨sid, hsid, library_edits_in_frame _ _ _ (forall_mem_singleton.mpr hsid)⟩

end WindowsErg.Security
