import Mathlib.Data.Finset.Card
import Mathlib.Data.Fintype.Card
import Mathlib.Data.Set.Finite.Basic
import Mathlib.Logic.Relation
import WindowsErg.Outcome

/-! Walks over a graph that is given by the children or by a parent of each node. A walk that is
not over when its fuel is used up has no result. -/
namespace ChildGraph
open Option List Relation

variable {α : Type}

section Below
variable (children : α → List α)

def Child (a b : α) : Prop := b ∈ children a

abbrev Below (a b : α) : Prop := TransGen (Child children) a b

def Grounded (a : α) : Prop := ∀ b, ReflTransGen (Child children) a b → ¬Below children b b

end Below

variable {node : α} {fuel : ℕ} {a : α} (nodes : Finset α)

section Collect

/-- The nodes that a depth-first walk marks, which goes on from a child only if it was not marked
before. -/
def collect [DecidableEq α] (children : α → List α) : ℕ → α → List α → Option (List α)
  | 0, _, _ => none
  | fuel+1, node, marked =>
    (children node).foldlM (fun marked child =>
      if child ∈ marked then some marked else collect children fuel child (child :: marked)) marked

variable {children : α → List α}

structure Marks (children : α → List α) (node : α) (before after : List α) : Prop where
  subset : before ⊆ after
  nodup : before.Nodup → after.Nodup
  below : ∀ b ∈ after, b ∉ before → Below children node b
  closed : ∀ b ∈ after, b ∉ before → ∀ c ∈ children b, c ∈ after

theorem Marks.refl (node : α) (marked : List α) : Marks children node marked marked :=
  ⟨List.Subset.refl _, id, fun _ hb hnot => absurd hb hnot, fun _ hb hnot => absurd hb hnot⟩

theorem Marks.trans {first second third : List α} (h₁ : Marks children node first second)
    (h₂ : Marks children node second third) : Marks children node first third := by
  refine ⟨List.Subset.trans h₁.subset h₂.subset, fun hnodup => h₂.nodup (h₁.nodup hnodup), ?_, ?_⟩
  · intro b hb hnot
    by_cases hsecond : b ∈ second
    · exact h₁.below b hsecond hnot
    · exact h₂.below b hb hsecond
  · intro b hb hnot c hc
    by_cases hsecond : b ∈ second
    · exact h₂.subset (h₁.closed b hsecond hnot c hc)
    · exact h₂.closed b hb hsecond c hc

variable [DecidableEq α]

variable {before after : List α}

theorem Marks.child {child : α} (hchild : child ∈ children node) (hnew : child ∉ before)
    (h : Marks children child (child :: before) after)
    (hchildren : ∀ c ∈ children child, c ∈ after) : Marks children node before after := by
  have hedge : Below children node child := TransGen.single hchild
  refine ⟨?_, ?_, ?_, ?_⟩
  · exact List.Subset.trans (subset_cons_self _ _) h.subset
  · intro hnodup
    exact h.nodup (nodup_cons.mpr ⟨hnew, hnodup⟩)
  · intro b hb hnot
    by_cases hsame : b = child
    · exact hsame ▸ hedge
    · have hfresh : b ∉ child :: before := by simp [hsame, hnot]
      exact hedge.trans (h.below b hb hfresh)
  · intro b hb hnot c hc
    by_cases hsame : b = child
    · exact hchildren c (hsame ▸ hc)
    · have hfresh : b ∉ child :: before := by simp [hsame, hnot]
      exact h.closed b hb hfresh c hc

theorem collect_marks (hrun : collect children fuel node before = some after) :
    Marks children node before after ∧ ∀ c ∈ children node, c ∈ after := by
  induction fuel generalizing node before after with
  | zero => cases hrun
  | succ fuel ih =>
    rw [collect] at hrun
    -- the children are walked from the first to the last
    have hwalk : ∀ (rest : List α) (before after : List α), rest ⊆ children node →
        rest.foldlM (fun marked child =>
          if child ∈ marked then some marked else collect children fuel child (child :: marked))
          before = some after →
        Marks children node before after ∧ ∀ c ∈ rest, c ∈ after := by
      intro rest
      induction rest with
      | nil =>
        intro before after _ hfold
        cases hfold
        exact ⟨Marks.refl _ _, fun c hc => absurd hc not_mem_nil⟩
      | cons child rest ihrest =>
        intro before after hsub hfold
        obtain ⟨hchild, hrest⟩ := cons_subset.mp hsub
        rw [foldlM_cons] at hfold
        by_cases hmarked : child ∈ before
        · rw [if_pos hmarked] at hfold
          obtain ⟨hmarks, hall⟩ := ihrest before after hrest hfold
          refine ⟨hmarks, ?_⟩
          intro c hc
          rcases mem_cons.mp hc with rfl | hc
          · exact hmarks.subset hmarked
          · exact hall c hc
        · rw [if_neg hmarked] at hfold
          obtain ⟨middle, hmiddle, hfold⟩ := bind_eq_some_iff.mp hfold
          obtain ⟨hfirst, hchildren⟩ := ih hmiddle
          obtain ⟨hmarks, hall⟩ := ihrest middle after hrest hfold
          refine ⟨(Marks.child hchild hmarked hfirst hchildren).trans hmarks, ?_⟩
          intro c hc
          rcases mem_cons.mp hc with rfl | hc
          · exact hmarks.subset (hfirst.subset mem_cons_self)
          · exact hall c hc
    exact hwalk _ before after (List.Subset.refl _) hrun

theorem collect_eq (hrun : collect children fuel node [] = some after) :
    after.Nodup ∧ ∀ b, b ∈ after ↔ Below children node b := by
  obtain ⟨hmarks, hchildren⟩ := collect_marks hrun
  refine ⟨hmarks.nodup nodup_nil, ?_⟩
  intro b
  constructor
  · intro hb
    exact hmarks.below b hb not_mem_nil
  · intro hb
    induction hb with
    | single hchild => exact hchildren _ hchild
    | tail _ hchild ih => exact hmarks.closed _ ih not_mem_nil _ hchild

theorem card_sdiff_cons_lt {nodes : Finset α} {marked : List α} (ha : a ∈ nodes)
    (hnew : a ∉ marked) : (nodes \ (a :: marked).toFinset).card < (nodes \ marked.toFinset).card := by
  apply Finset.card_lt_card
  refine ⟨?_, ?_⟩
  · intro b hb
    simp only [Finset.mem_sdiff, List.mem_toFinset, mem_cons] at hb ⊢
    exact ⟨hb.1, fun hmarked => hb.2 (Or.inr hmarked)⟩
  · intro hsub
    have hleft : a ∈ nodes \ marked.toFinset := by simp [ha, hnew]
    have hgone := hsub hleft
    simp at hgone

theorem exists_collect (hnodes : ∀ a, ∀ b ∈ children a, b ∈ nodes)
    (hfuel : (nodes \ before.toFinset).card < fuel) :
    ∃ after, collect children fuel node before = some after := by
  induction fuel generalizing node before with
  | zero => omega
  | succ fuel ih =>
    rw [collect]
    -- the marks only grow, so the fuel that was enough at the first child is enough at the next
    have hwalk : ∀ (rest : List α) (before : List α), rest ⊆ children node →
        (nodes \ before.toFinset).card < fuel+1 → ∃ after,
        rest.foldlM (fun marked child =>
          if child ∈ marked then some marked else collect children fuel child (child :: marked))
          before = some after := by
      intro rest
      induction rest with
      | nil => exact fun before _ _ => ⟨before, rfl⟩
      | cons child rest ihrest =>
        intro before hsub hfuel
        obtain ⟨hchild, hrest⟩ := cons_subset.mp hsub
        rw [foldlM_cons]
        by_cases hmarked : child ∈ before
        · rw [if_pos hmarked]
          exact ihrest before hrest hfuel
        · rw [if_neg hmarked]
          -- the child was not marked, so there is one node less
          have hfewer := card_sdiff_cons_lt (hnodes node child hchild) hmarked
          obtain ⟨middle, hmiddle⟩ := @ih child (child :: before) (by omega)
          rw [hmiddle]
          apply ihrest middle hrest
          have hmarks := (collect_marks hmiddle).1.subset
          have hle : (nodes \ middle.toFinset).card ≤ (nodes \ (child :: before).toFinset).card := by
            apply Finset.card_le_card
            intro b hb
            simp only [Finset.mem_sdiff, List.mem_toFinset] at hb ⊢
            exact ⟨hb.1, fun hbefore => hb.2 (hmarks hbefore)⟩
          omega
    exact hwalk _ before (List.Subset.refl _) hfuel

end Collect

section Height
variable (children : α → List α)

def height : ℕ → α → Option ℕ
  | 0, _ => none
  | fuel+1, node =>
    match children node with
    | [] => some 0
    | kids => do
      let heights ← kids.mapM (height fuel)
      return 1+heights.foldr max 0

variable {children}

theorem height_leaf (hleaf : children a = []) : height children (fuel+1) a = some 0 := by
  simp only [height, hleaf]

theorem height_node (hnode : children a ≠ []) :
    height children (fuel+1) a =
      ((children a).mapM (height children fuel)).map fun heights => 1+heights.foldr max 0 := by
  rw [height]
  split
  · rename_i hleaf
    exact absurd hleaf hnode
  · rename_i hkids
    cases hheights : (children a).mapM (height children fuel) <;> rfl

variable {h : ℕ}

theorem height_succ (hheight : height children fuel a = some h) :
    height children (fuel+1) a = some h := by
  induction fuel generalizing a h with
  | zero => cases hheight
  | succ fuel ih =>
    by_cases hleaf : children a = []
    · rw [height_leaf hleaf] at hheight ⊢
      exact hheight
    · rw [height_node hleaf] at hheight ⊢
      obtain ⟨heights, hmap, hmax⟩ := map_eq_some_iff.mp hheight
      have hmore : (children a).mapM (height children (fuel+1)) = some heights :=
        Outcome.mapM_some_mono (fun b _ k hk => ih hk) hmap
      rw [hmore, map_some, hmax]

theorem height_mono {more : ℕ} (hheight : height children fuel a = some h) (hle : fuel ≤ more) :
    height children more a = some h := by
  induction hle with
  | refl => exact hheight
  | step _ ih => exact height_succ ih

theorem height_unique {fuel' h' : ℕ} (hheight : height children fuel a = some h)
    (hheight' : height children fuel' a = some h') : h = h' := by
  have hmax := height_mono hheight (Nat.le_max_left fuel fuel')
  have hmax' := height_mono hheight' (Nat.le_max_right fuel fuel')
  exact Option.some.inj (hmax.symm.trans hmax')

theorem le_foldr_max {heights : List ℕ} (hmem : h ∈ heights) : h ≤ heights.foldr max 0 := by
  induction heights with
  | nil => exact absurd hmem not_mem_nil
  | cons k heights ih =>
    rw [foldr_cons]
    rcases mem_cons.mp hmem with rfl | hmem
    · exact Nat.le_max_left _ _
    · exact (ih hmem).trans (Nat.le_max_right _ _)

theorem height_child {b : α} (hheight : height children (fuel+1) a = some h)
    (hchild : Child children a b) : ∃ k < h, height children fuel b = some k := by
  have hnode : children a ≠ [] := ne_nil_of_mem hchild
  rw [height_node hnode] at hheight
  obtain ⟨heights, hmap, rfl⟩ := map_eq_some_iff.mp hheight
  obtain ⟨k, hk, hb⟩ := Outcome.mapM_some_image hmap hchild
  have hle := le_foldr_max hk
  exact ⟨k, by omega, hb⟩

theorem height_lt_of_below {fuel' h' : ℕ} {b : α} (hheight : height children fuel a = some h)
    (hheight' : height children fuel' b = some h') (hbelow : Below children a b) : h' < h := by
  induction hbelow using TransGen.head_induction_on generalizing fuel h with
  | @single a hchild =>
    cases fuel with
    | zero => cases hheight
    | succ fuel =>
      obtain ⟨k, hk, hb⟩ := height_child hheight hchild
      have hsame := height_unique hb hheight'
      omega
  | @head a c hchild _ ih =>
    cases fuel with
    | zero => cases hheight
    | succ fuel =>
      obtain ⟨k, hk, hc⟩ := height_child hheight hchild
      have hlower := ih hc
      omega

theorem exists_fuel {nodes : List α} (h : ∀ b ∈ nodes, ∃ fuel h, height children fuel b = some h) :
    ∃ fuel, ∀ b ∈ nodes, ∃ h, height children fuel b = some h := by
  induction nodes with
  | nil => exact ⟨0, fun b hb => absurd hb not_mem_nil⟩
  | cons c nodes ih =>
    obtain ⟨hc, hrest⟩ := forall_mem_cons.mp h
    obtain ⟨first, k, hk⟩ := hc
    obtain ⟨fuel, hall⟩ := ih hrest
    refine ⟨max first fuel, forall_mem_cons.mpr ⟨?_, ?_⟩⟩
    · exact ⟨k, height_mono hk (Nat.le_max_left _ _)⟩
    · intro b hb
      obtain ⟨j, hj⟩ := hall b hb
      exact ⟨j, height_mono hj (Nat.le_max_right _ _)⟩

theorem exists_height_iff_acc :
    (∃ fuel h, height children fuel a = some h) ↔ Acc (fun b a => Child children a b) a := by
  constructor
  · rintro ⟨fuel, h, hheight⟩
    induction fuel generalizing a h with
    | zero => cases hheight
    | succ fuel ih =>
      refine Acc.intro a fun b hchild => ?_
      obtain ⟨k, -, hb⟩ := height_child hheight hchild
      exact ih k hb
  · intro hacc
    induction hacc with
    | intro a _ ih =>
      by_cases hleaf : children a = []
      · exact ⟨1, 0, height_leaf hleaf⟩
      · -- the largest of the children's amounts of fuel is enough for all of them
        obtain ⟨fuel, hall⟩ := exists_fuel ih
        obtain ⟨heights, hmap⟩ := Outcome.exists_mapM hall
        refine ⟨fuel+1, 1+heights.foldr max 0, ?_⟩
        rw [height_node hleaf, hmap, map_some]

theorem not_below_self_of_acc (hacc : Acc (fun b a => Child children a b) a) :
    ¬Below children a a := by
  obtain ⟨fuel, h, hheight⟩ := exists_height_iff_acc.mpr hacc
  intro hbelow
  exact lt_irrefl h (height_lt_of_below hheight hheight hbelow)

theorem acc_iff_grounded (hnodes : ∀ a, ∀ b ∈ children a, b ∈ nodes) :
    Acc (fun b a => Child children a b) a ↔ Grounded children a := by
  constructor
  · intro hacc b hreach
    apply not_below_self_of_acc
    induction hreach with
    | refl => exact hacc
    | tail _ hchild ih => exact ih.inv hchild
  · intro hgrounded
    -- on the nodes that are reached, being below is transitive and irreflexive
    let Reached : Set α := {b | ReflTransGen (Child children) a b}
    have hfinite : Finite Reached := by
      apply Set.Finite.subset (nodes.finite_toSet.insert a)
      intro b hb
      rcases ReflTransGen.cases_tail hb with rfl | ⟨c, -, hchild⟩
      · exact Set.mem_insert _ _
      · exact Set.mem_insert_of_mem _ (hnodes c b hchild)
    let lower : Reached → Reached → Prop := fun b c => Below children c.1 b.1
    have : IsTrans Reached lower := ⟨fun _ _ _ hbc hcd => hcd.trans hbc⟩
    have : Std.Irrefl lower := ⟨fun b hb => hgrounded b.1 b.2 hb⟩
    have hwf : WellFounded lower := Finite.wellFounded_of_trans_of_irrefl lower
    have hall : ∀ b : Reached, Acc (fun b a => Child children a b) b.1 := by
      intro b
      induction b using hwf.induction with
      | _ b ih =>
        refine Acc.intro _ fun c hchild => ?_
        have hc : c ∈ Reached := ReflTransGen.tail b.2 hchild
        exact ih ⟨c, hc⟩ (TransGen.single hchild)
    exact hall ⟨a, ReflTransGen.refl⟩

end Height

section Climb
variable [DecidableEq α]

def climb (parent : α → Option α) : ℕ → List α → α → Option α
  | 0, _, _ => none
  | fuel+1, visited, node =>
    match parent node with
    | none => some node
    | some up => if node ∈ visited then some node else climb parent fuel (node :: visited) up

variable {parent : α → Option α}

def Up (parent : α → Option α) (a b : α) : Prop := parent a = some b

variable {visited : List α}

theorem exists_climb (hnodes : ∀ a b, parent a = some b → a ∈ nodes)
    (hfuel : (nodes \ visited.toFinset).card < fuel) :
    ∃ root, climb parent fuel visited node = some root := by
  induction fuel generalizing visited node with
  | zero => omega
  | succ fuel ih =>
    rw [climb]
    cases hup : parent node with
    | none => exact ⟨node, rfl⟩
    | some up =>
      by_cases hvisited : node ∈ visited
      · exact ⟨node, if_pos hvisited⟩
      · simp only [if_neg hvisited]
        apply ih
        have hfewer := card_sdiff_cons_lt (hnodes node up hup) hvisited
        omega

theorem climb_eq {root : α} (hvisited : ∀ a ∈ visited, TransGen (Up parent) a node)
    (hrun : climb parent fuel visited node = some root) :
    ReflTransGen (Up parent) node root ∧ (parent root = none ∨ TransGen (Up parent) root root) := by
  induction fuel generalizing visited node with
  | zero => cases hrun
  | succ fuel ih =>
    rw [climb] at hrun
    cases hup : parent node with
    | none =>
      simp only [hup] at hrun
      cases hrun
      exact ⟨ReflTransGen.refl, Or.inl hup⟩
    | some up =>
      simp only [hup] at hrun
      by_cases hagain : node ∈ visited
      · rw [if_pos hagain] at hrun
        cases hrun
        exact ⟨ReflTransGen.refl, Or.inr (hvisited _ hagain)⟩
      · rw [if_neg hagain] at hrun
        have hedge : Up parent node up := hup
        have hnext : ∀ a ∈ node :: visited, TransGen (Up parent) a up := by
          intro a ha
          rcases mem_cons.mp ha with rfl | ha
          · exact TransGen.single hedge
          · exact (hvisited a ha).tail hedge
        obtain ⟨hreach, hend⟩ := ih hnext hrun
        exact ⟨ReflTransGen.head hedge hreach, hend⟩

theorem climb_unique {fuel' : ℕ} {root root' : α}
    (hrun : climb parent fuel visited node = some root)
    (hrun' : climb parent fuel' visited node = some root') : root = root' := by
  induction fuel generalizing fuel' visited node with
  | zero => cases hrun
  | succ fuel ih =>
    cases fuel' with
    | zero => cases hrun'
    | succ fuel' =>
      rw [climb] at hrun hrun'
      cases hup : parent node with
      | none =>
        simp only [hup] at hrun hrun'
        exact Option.some.inj (hrun.symm.trans hrun')
      | some up =>
        simp only [hup] at hrun hrun'
        by_cases hagain : node ∈ visited
        · rw [if_pos hagain] at hrun hrun'
          exact Option.some.inj (hrun.symm.trans hrun')
        · rw [if_neg hagain] at hrun hrun'
          exact ih hrun hrun'

omit [DecidableEq α] in
theorem up_of_cycle {b : α} (hcycle : TransGen (Up parent) a a)
    (hreach : ReflTransGen (Up parent) a b) : TransGen (Up parent) b a := by
  induction hreach with
  | refl => exact hcycle
  | @tail b c _ hup ih =>
    obtain ⟨c', hfirst, hrest⟩ := TransGen.head'_iff.mp ih
    have hsame : c' = c := Option.some.inj (hfirst.symm.trans hup)
    rw [hsame] at hrest
    rcases ReflTransGen.cases_head hrest with rfl | ⟨d, hnext, hd⟩
    · exact hcycle
    · exact TransGen.head' hnext hd

theorem climb_eq_of_parent_eq_none {root top : α} (hrun : climb parent fuel [] node = some root)
    (hreach : ReflTransGen (Up parent) node top) (htop : parent top = none) : root = top := by
  obtain ⟨hroot, hend⟩ := climb_eq (fun a ha => absurd ha not_mem_nil) hrun
  have hunique : Relator.RightUnique (Up parent) := by
    intro a b c hb hc
    exact Option.some.inj (hb.symm.trans hc)
  have hstuck : ∀ a b, parent a = none → ReflTransGen (Up parent) a b → b = a := by
    intro a b hnone hab
    rcases ReflTransGen.cases_head hab with rfl | ⟨c, hup, -⟩
    · rfl
    · exact absurd (hnone.symm.trans hup) (by simp)
  rcases ReflTransGen.total_of_right_unique hunique hroot hreach with hon | hback
  · rcases hend with hnone | hcycle
    · exact (hstuck root top hnone hon).symm
    · -- on from the cycle there is always a parent
      obtain ⟨c, hup, -⟩ := TransGen.head'_iff.mp (up_of_cycle hcycle hon)
      exact absurd (htop.symm.trans hup) (by simp)
  · exact hstuck top root htop hback

end Climb

end ChildGraph
