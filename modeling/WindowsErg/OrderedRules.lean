import Mathlib.Data.List.Basic

/-! Lists of rules in which the first one that speaks about a request decides it. -/
namespace OrderedRules
open List

variable {α σ : Type*} {speaks allows keep : α → Bool}

/-- The first rule that speaks allows. Without one nothing is granted. -/
def granted (speaks allows : α → Bool) (rules : List α) : Bool := (rules.find? speaks).any allows

theorem granted_of_agree {pre : List α} {rule : α} (post : List α) (hspeaks : speaks rule = true)
    (hpre : ∀ other ∈ pre, speaks other = true → allows other = allows rule) :
    granted speaks allows (pre ++ rule :: post) = allows rule := by
  induction pre with
  | nil => simp [granted, hspeaks]
  | cons other pre ih =>
    have htail := ih fun a ha => hpre a (mem_cons_of_mem other ha)
    cases hother : speaks other with
    | false => simpa [granted, hother] using htail
    | true => simp [granted, hother, hpre other mem_cons_self hother]

theorem exposed_of_granted_filter {rules : List α}
    (hafter : granted speaks allows (rules.filter keep) = true)
    (hbefore : granted speaks allows rules = false) :
    ∃ pre deny mid allow post, rules = pre ++ deny :: (mid ++ allow :: post) ∧
      (speaks deny = true ∧ allows deny = false ∧ keep deny = false) ∧
      (speaks allow = true ∧ allows allow = true ∧ keep allow = true) ∧
      (∀ rule ∈ pre, speaks rule = false) ∧
      ∀ rule ∈ mid, keep rule = true → speaks rule = false := by
  obtain ⟨allow, hallow, hallows⟩ : ∃ allow, (rules.filter keep).find? speaks = some allow ∧
      allows allow = true := by
    cases hf : (rules.filter keep).find? speaks with
    | none => simp [granted, hf] at hafter
    | some allow => exact ⟨allow, rfl, by simpa [granted, hf] using hafter⟩
  have hmem := mem_of_find?_eq_some hallow
  have hspeaks : speaks allow = true := List.find?_some hallow
  obtain ⟨hin, hkeep⟩ := mem_filter.mp hmem
  cases hfirst : rules.find? speaks with
  | none => exact absurd hspeaks (List.find?_eq_none.mp hfirst allow hin)
  | some deny =>
    obtain ⟨hdeny, pre, rest, rfl, hpre⟩ := List.find?_eq_some_iff_append.mp hfirst
    have hdenies : allows deny = false := by simpa [granted, hfirst] using hbefore
    have hpre' : ∀ rule ∈ pre, speaks rule = false := fun rule hr => by simpa using hpre rule hr
    have hdropped : keep deny = false := by
      -- a kept first rule would decide as before
      by_contra hk
      have hk' : keep deny = true := by simpa using hk
      rw [filter_append, filter_cons_of_pos hk'] at hafter
      rw [granted_of_agree _ hdeny] at hafter
      · simp [hdenies] at hafter
      · intro other ho hs
        have hno := hpre' other (mem_of_mem_filter ho)
        simp [hno] at hs
    have hnone : (pre.filter keep).find? speaks = none := by
      apply List.find?_eq_none.mpr
      intro rule hr
      simp [hpre' rule (mem_of_mem_filter hr)]
    rw [filter_append, filter_cons_of_neg (by simp [hdropped]), List.find?_append,
      hnone, Option.none_or, List.find?_filter] at hallow
    obtain ⟨-, mid, post, rfl, hmid⟩ := List.find?_eq_some_iff_append.mp hallow
    refine ⟨pre, deny, mid, allow, post, rfl, ⟨hdeny, hdenies, hdropped⟩,
      ⟨hspeaks, hallows, hkeep⟩, hpre', ?_⟩
    intro rule hr hk
    simpa [hk] using hmid rule hr

section Subjects
variable (subject : α → σ) (about allows keep : α → Bool)

/-- A deny rule may go in front of an allow rule for the same right if another deny rule for one of
the two subjects stays in front, or an allow rule for one of them came first anyway. -/
def Shielded (rules : List α) : Prop :=
  ∀ pre deny mid allow post, rules = pre ++ deny :: (mid ++ allow :: post) →
    about deny = true ∧ allows deny = false ∧ keep deny = false →
    about allow = true ∧ allows allow = true ∧ keep allow = true →
    (∃ rule ∈ pre, about rule = true ∧ allows rule = true ∧
      (subject rule = subject deny ∨ subject rule = subject allow)) ∨
    ∃ rule ∈ pre ++ mid, about rule = true ∧ allows rule = false ∧ keep rule = true ∧
      (subject rule = subject deny ∨ subject rule = subject allow)

theorem granted_filter_le_iff [DecidableEq σ] (rules : List α) :
    (∀ token : σ → Bool,
      granted (fun a => token (subject a) && about a) allows (rules.filter keep) = true →
      granted (fun a => token (subject a) && about a) allows rules = true) ↔
      Shielded subject about allows keep rules := by
  constructor
  · rintro h pre deny mid allow post rfl ⟨hdeny, hdenies, hdropped⟩ ⟨hallow, hallows, hkept⟩
    by_contra hnot
    obtain ⟨hnoAllow, hnoDeny⟩ := not_or.mp hnot
    -- the token that holds the two subjects and nothing else
    let token : σ → Bool := fun s => s = subject deny ∨ s = subject allow
    have hbefore : granted (fun a => token (subject a) && about a) allows
        (pre ++ deny :: (mid ++ allow :: post)) = false := by
      rw [granted_of_agree _ (by simp [token, hdeny])]
      · exact hdenies
      · intro other ho hs
        simp only [Bool.and_eq_true, token, decide_eq_true_eq] at hs
        rw [hdenies]
        by_contra ha
        exact hnoAllow ⟨other, ho, hs.2, by simpa using ha, hs.1⟩
    have hfilter : (pre ++ deny :: (mid ++ allow :: post)).filter keep =
        (pre ++ mid).filter keep ++ allow :: post.filter keep := by
      simp [filter_append, hdropped, hkept]
    have hafter : granted (fun a => token (subject a) && about a) allows
        ((pre ++ deny :: (mid ++ allow :: post)).filter keep) = true := by
      rw [hfilter, granted_of_agree _ (by simp [token, hallow])]
      · exact hallows
      · intro other ho hs
        simp only [Bool.and_eq_true, token, decide_eq_true_eq] at hs
        obtain ⟨hin, hk⟩ := mem_filter.mp ho
        rw [hallows]
        by_contra hd
        exact hnoDeny ⟨other, hin, hs.2, by simpa using hd, hk, hs.1⟩
    have hgrown := h token hafter
    cases hbefore.symm.trans hgrown
  · intro h token hafter
    by_contra hbefore
    obtain ⟨pre, deny, mid, allow, post, hrules, ⟨hdeny, hdenies, hdropped⟩,
      ⟨hallow, hallows, hkept⟩, hpre, hmid⟩ :=
      exposed_of_granted_filter hafter (by simpa using hbefore)
    simp only [Bool.and_eq_true] at hdeny hallow
    -- both subjects are in the token, so a shield would have spoken itself
    have hspeaks (rule : α) (ha : about rule = true)
        (hs : subject rule = subject deny ∨ subject rule = subject allow) :
        (token (subject rule) && about rule) = true := by
      rcases hs with hs | hs
      · rw [hs, hdeny.1, ha]
        rfl
      · rw [hs, hallow.1, ha]
        rfl
    rcases h pre deny mid allow post hrules ⟨hdeny.2, hdenies, hdropped⟩
        ⟨hallow.2, hallows, hkept⟩ with ⟨rule, hr, ha, -, hs⟩ | ⟨rule, hr, ha, -, hk, hs⟩
    · have hsilent := hpre rule hr
      rw [hspeaks rule ha hs] at hsilent
      contradiction
    · rcases mem_append.mp hr with hr | hr
      · have hsilent := hpre rule hr
        rw [hspeaks rule ha hs] at hsilent
        contradiction
      · have hsilent := hmid rule hr hk
        rw [hspeaks rule ha hs] at hsilent
        contradiction

theorem shielded_of_dropped_allow (rules : List α)
    (h : ∀ rule ∈ rules, keep rule = false → allows rule = true) :
    Shielded subject about allows keep rules := by
  rintro pre deny mid allow post rfl ⟨-, hdenies, hdropped⟩ -
  have hallows := h deny (by simp) hdropped
  cases hdenies.symm.trans hallows

end Subjects
end OrderedRules
