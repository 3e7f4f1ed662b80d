import Mathlib.Data.List.Sort
import WindowsErg.ChildGraph
import WindowsErg.UnicodeText

/-! Listing the processes and killing a tree of them, `src/process/list.rs` and
`src/process/tree.rs`. A hash map hands out what it holds in any order. -/
namespace WindowsErg.Process
open List TextScan UnicodeText ChildGraph Relation

abbrev ProcessId := UInt32

structure ProcessEntry where
  th32ProcessID : UInt32
  th32ParentProcessID : UInt32
  cntThreads : UInt32
  szExeFile : List UInt16

structure ProcessInfo where
  pid : ProcessId
  parentPid : Option ProcessId
  name : Text
  threadCount : UInt32
  deriving DecidableEq

structure ProcessOpenError where
  pid : ProcessId
  reason : Text
  errorCode : Int32
  deriving DecidableEq

def ProcessEntry.info (entry : ProcessEntry) : ProcessInfo where
  pid := entry.th32ProcessID
  parentPid := if entry.th32ParentProcessID = 0 then none else some entry.th32ParentProcessID
  name := decodeUtf16Lossy (entry.szExeFile.takeWhile (· ≠ 0))
  threadCount := entry.cntThreads

/-- The answer of the tool help calls: the code of the failed snapshot, or the entries that come
before the first call that fails, for whatever reason. -/
abbrev Toolhelp := Except Int32 (List ProcessEntry)

/-- The number that is returned is the length of the list. -/
def listWithFilterImpl (filter : ProcessInfo → Bool) (snapshot : Toolhelp) :
    Except ProcessOpenError (List ProcessInfo) :=
  match snapshot with
  | .error code => .error ⟨0, "Failed to create process snapshot".toList, code⟩
  | .ok entries => .ok ((entries.map (·.info)).filter filter)

def listWithBuffer (snapshot : Toolhelp) : Except ProcessOpenError (List ProcessInfo) :=
  listWithFilterImpl (fun _ => true) snapshot

structure HashOrder where
  arrange : {α : Type} → List α → List α
  perm : ∀ {α : Type} (l : List α), (arrange l).Perm l

abbrev ProcessMap := List (ProcessId × List ProcessId)

/-- `tree.entry(parent).or_default().push(pid)`. -/
def addChild (parent pid : ProcessId) : ProcessMap → ProcessMap
  | [] => [(parent, [pid])]
  | (key, children) :: rest =>
    if key = parent then (key, children ++ [pid]) :: rest
    else (key, children) :: addChild parent pid rest

def buildProcessTree (processes : List ProcessInfo) : ProcessMap :=
  processes.foldl (fun tree proc =>
    match proc.parentPid with
    | some parentPid => addChild parentPid proc.pid tree
    | none => tree) []

/-- `tree.get(&pid)`, with no children where there is no entry. -/
def childrenOf (tree : ProcessMap) (pid : ProcessId) : List ProcessId := (tree.lookup pid).getD []

def collectDescendants (tree : ProcessMap) (fuel : ℕ) (pid : ProcessId) (result : List ProcessId) :
    Option (List ProcessId) :=
  collect (childrenOf tree) fuel pid result

def treeDepth (tree : ProcessMap) : ℕ → ProcessId → Option ℕ
  | 0, _ => none
  | fuel+1, pid =>
    match tree.lookup pid with
    | some children => do
      let depths ← children.mapM (treeDepth tree fuel)
      return 1+depths.foldr max 0
    | none => some 0

/-- `child_to_parent`: a later pair replaces an earlier one with the same child. -/
def childToParent (order : HashOrder) (tree : ProcessMap) (pid : ProcessId) : Option ProcessId :=
  ((order.arrange tree).flatMap fun entry => entry.2.map fun child => (child, entry.1)).reverse.lookup
    pid

def findRootAncestor (order : HashOrder) (fuel : ℕ) (pid : ProcessId) (tree : ProcessMap) :
    Option ProcessId :=
  climb (childToParent order tree) fuel [] pid

/-- `sort_by_key` with reversed keys. The key of a single element is not asked for. -/
def sortByKeyReverse (key : ProcessId → Option ℕ) (pids : List ProcessId) :
    Option (List ProcessId) :=
  if pids.length < 2 then some pids
  else do
    let keyed ← pids.mapM fun pid => (key pid).map fun depth => (OrderDual.toDual depth, pid)
    return (keyed.insertionSort fun a b => a.1 ≤ b.1).map (·.2)

/-- `to_kill.insert(pid)`. -/
def toKill (pid : ProcessId) (descendants : List ProcessId) : List ProcessId :=
  if pid ∈ descendants then descendants else pid :: descendants

/-- The ids in the order in which they are killed; what each kill answers is ignored. -/
def killTreeByIdWithBuffer (order : HashOrder) (fuel : ℕ) (snapshot : Toolhelp) (pid : ProcessId) :
    Option (Except ProcessOpenError (List ProcessId)) :=
  match listWithBuffer snapshot with
  | .error e => some (.error e)
  | .ok processes => do
    let tree := buildProcessTree processes
    let descendants ← collectDescendants tree fuel pid []
    -- the set hands out its ids in any order, and the sort is stable
    let killOrder ← sortByKeyReverse (treeDepth tree fuel) (order.arrange (toKill pid descendants))
    return .ok killOrder

/-- The processes are listed again before the tree of the root is killed. -/
def killTreeFromRootWithBuffer (mapOrder setOrder : HashOrder) (fuel : ℕ) (first second : Toolhelp)
    (pid : ProcessId) : Option (Except ProcessOpenError (List ProcessId)) :=
  match listWithBuffer first with
  | .error e => some (.error e)
  | .ok processes => do
    let root ← findRootAncestor mapOrder fuel pid (buildProcessTree processes)
    killTreeByIdWithBuffer setOrder fuel second root

def ParentOf (processes : List ProcessInfo) (parent pid : ProcessId) : Prop :=
  ∃ proc ∈ processes, proc.pid = pid ∧ proc.parentPid = some parent

def Listed (processes : List ProcessInfo) (pid : ProcessId) : Prop :=
  ∃ proc ∈ processes, proc.pid = pid

theorem lookup_addChild (parent pid key : ProcessId) (tree : ProcessMap) :
    (addChild parent pid tree).lookup key =
      if key = parent then some (childrenOf tree parent ++ [pid]) else tree.lookup key := by
  induction tree with
  | nil =>
    by_cases hkey : key = parent
    · simp [addChild, childrenOf, hkey]
    · simp [addChild, lookup_cons, hkey, beq_eq_false_iff_ne.mpr hkey]
  | cons entry rest ih =>
    obtain ⟨first, children⟩ := entry
    rw [addChild]
    by_cases hfirst : first = parent
    · subst hfirst
      by_cases hkey : key = first
      · simp [childrenOf, hkey]
      · simp [lookup_cons, hkey, beq_eq_false_iff_ne.mpr hkey]
    · have hparent : (parent == first) = false := beq_eq_false_iff_ne.mpr (Ne.symm hfirst)
      have hsame : childrenOf ((first, children) :: rest) parent = childrenOf rest parent := by
        simp only [childrenOf, lookup_cons, hparent]
      rw [if_neg hfirst, hsame, lookup_cons, lookup_cons, ih]
      by_cases hkey : key = first
      · subst hkey
        simp [hfirst]
      · simp [beq_eq_false_iff_ne.mpr hkey]

def childList (processes : List ProcessInfo) (parent : ProcessId) : List ProcessId :=
  (processes.filter fun proc => proc.parentPid = some parent).map (·.pid)

theorem mem_childList {processes : List ProcessInfo} {parent pid : ProcessId} :
    pid ∈ childList processes parent ↔ ParentOf processes parent pid := by
  simp only [childList, ParentOf, mem_map, mem_filter, decide_eq_true_eq]
  constructor
  · rintro ⟨proc, ⟨hmem, hparent⟩, hpid⟩
    exact ⟨proc, hmem, hpid, hparent⟩
  · rintro ⟨proc, hmem, hpid, hparent⟩
    exact ⟨proc, ⟨hmem, hparent⟩, hpid⟩

theorem getD_of_nonempty (children : List ProcessId) :
    (if children = [] then none else some children).getD [] = children := by
  split
  · rename_i hnone
    exact hnone.symm
  · rfl

theorem lookup_buildProcessTree (processes : List ProcessInfo) (key : ProcessId) :
    (buildProcessTree processes).lookup key =
      if childList processes key = [] then none else some (childList processes key) := by
  induction processes using List.reverseRecOn generalizing key with
  | nil => rfl
  | append_singleton processes proc ih =>
    rw [buildProcessTree, foldl_concat, ← buildProcessTree]
    cases hparent : proc.parentPid with
    | none =>
      have hsame : childList (processes ++ [proc]) key = childList processes key := by
        simp [childList, hparent]
      rw [hsame]
      exact ih key
    | some parent =>
      have hchildren : childrenOf (buildProcessTree processes) parent =
          childList processes parent := by
        rw [childrenOf, ih parent, getD_of_nonempty]
      dsimp only
      rw [lookup_addChild, hchildren]
      by_cases hkey : key = parent
      · subst hkey
        simp [childList, hparent]
      · have hsame : childList (processes ++ [proc]) key = childList processes key := by
          simp [childList, hparent, Ne.symm hkey]
        rw [if_neg hkey, hsame]
        exact ih key

theorem childrenOf_buildProcessTree (processes : List ProcessInfo) (pid : ProcessId) :
    childrenOf (buildProcessTree processes) pid = childList processes pid := by
  rw [childrenOf, lookup_buildProcessTree, getD_of_nonempty]

theorem child_iff {processes : List ProcessInfo} {parent pid : ProcessId} :
    Child (childrenOf (buildProcessTree processes)) parent pid ↔ ParentOf processes parent pid := by
  rw [Child, childrenOf_buildProcessTree, mem_childList]

theorem treeDepth_eq_height (processes : List ProcessInfo) (fuel : ℕ) (pid : ProcessId) :
    treeDepth (buildProcessTree processes) fuel pid =
      height (childrenOf (buildProcessTree processes)) fuel pid := by
  induction fuel generalizing pid with
  | zero => rfl
  | succ fuel ih =>
    have hsame : treeDepth (buildProcessTree processes) fuel =
        height (childrenOf (buildProcessTree processes)) fuel := funext ih
    have hchildren := childrenOf_buildProcessTree processes pid
    rw [treeDepth, lookup_buildProcessTree, hsame]
    by_cases hleaf : childList processes pid = []
    · rw [if_pos hleaf, height_leaf (hchildren.trans hleaf)]
    · rw [if_neg hleaf, height_node (hchildren ▸ hleaf), hchildren]
      dsimp only
      cases (childList processes pid).mapM
        (height (childrenOf (buildProcessTree processes)) fuel) <;> rfl

def pids (processes : List ProcessInfo) : Finset ProcessId := (processes.map (·.pid)).toFinset

theorem children_subset_pids (processes : List ProcessInfo) (parent : ProcessId) :
    ∀ pid ∈ childrenOf (buildProcessTree processes) parent, pid ∈ pids processes := by
  intro pid hpid
  obtain ⟨proc, hmem, hproc, -⟩ := child_iff.mp hpid
  rw [pids, mem_toFinset, mem_map]
  exact ⟨proc, hmem, hproc⟩

section KillOrder
variable {key : ProcessId → Option ℕ} {pids sorted : List ProcessId}

theorem sortByKeyReverse_isSome_iff :
    (∃ sorted, sortByKeyReverse key pids = some sorted) ↔
      pids.length < 2 ∨ ∀ pid ∈ pids, ∃ depth, key pid = some depth := by
  unfold sortByKeyReverse
  by_cases hshort : pids.length < 2
  · rw [if_pos hshort]
    exact iff_of_true ⟨pids, rfl⟩ (Or.inl hshort)
  rw [if_neg hshort]
  constructor
  · rintro ⟨sorted, hsorted⟩
    obtain ⟨keyed, hkeyed, -⟩ := Option.bind_eq_some_iff.mp hsorted
    refine Or.inr fun pid hpid => ?_
    obtain ⟨pair, -, hpair⟩ := Outcome.mapM_some_image hkeyed hpid
    obtain ⟨depth, hdepth, -⟩ := Option.map_eq_some_iff.mp hpair
    exact ⟨depth, hdepth⟩
  · intro hall
    have hkeys := hall.resolve_left hshort
    have hpairs : ∀ pid ∈ pids, ∃ pair,
        ((key pid).map fun depth => (OrderDual.toDual depth, pid)) = some pair := by
      intro pid hpid
      obtain ⟨depth, hdepth⟩ := hkeys pid hpid
      exact ⟨(OrderDual.toDual depth, pid), by rw [hdepth, Option.map_some]⟩
    obtain ⟨keyed, hkeyed⟩ := Outcome.exists_mapM hpairs
    exact ⟨_, Option.bind_eq_some_iff.mpr ⟨keyed, hkeyed, rfl⟩⟩

theorem pairwise_of_length_lt_two {R : ProcessId → ProcessId → Prop} (hshort : pids.length < 2) :
    pids.Pairwise R := by
  match pids, hshort with
  | [], _ => exact List.Pairwise.nil
  | [pid], _ => exact pairwise_singleton _ _

theorem sortByKeyReverse_eq (hsorted : sortByKeyReverse key pids = some sorted) :
    sorted.Perm pids ∧ sorted.Pairwise fun a b =>
      ∀ depth depth', key a = some depth → key b = some depth' → depth' ≤ depth := by
  unfold sortByKeyReverse at hsorted
  by_cases hshort : pids.length < 2
  · rw [if_pos hshort] at hsorted
    cases hsorted
    exact ⟨List.Perm.refl _, pairwise_of_length_lt_two hshort⟩
  rw [if_neg hshort] at hsorted
  obtain ⟨keyed, hkeyed, hresult⟩ := Option.bind_eq_some_iff.mp hsorted
  cases hresult
  have hback : keyed.map (·.2) = pids := by
    apply Outcome.map_of_mapM_some _ hkeyed
    intro pid pair hpair
    obtain ⟨depth, -, rfl⟩ := Option.map_eq_some_iff.mp hpair
    rfl
  have hdepths : ∀ pair ∈ keyed, key pair.2 = some (OrderDual.ofDual pair.1) := by
    intro pair hpair
    obtain ⟨pid, -, hpid⟩ := Outcome.mapM_some_mem _ _ _ hkeyed pair hpair
    obtain ⟨depth, hdepth, rfl⟩ := Option.map_eq_some_iff.mp hpid
    exact hdepth
  have hperm := perm_insertionSort (fun a b : ℕᵒᵈ × ProcessId => a.1 ≤ b.1) keyed
  refine ⟨hback ▸ hperm.map _, ?_⟩
  have hordered := pairwise_insertionSort (fun a b : ℕᵒᵈ × ProcessId => a.1 ≤ b.1) keyed
  rw [pairwise_map]
  refine hordered.imp_of_mem fun {a b} ha hb hle depth depth' hdepth hdepth' => ?_
  have hsame := hdepth.symm.trans (hdepths a (hperm.mem_iff.mp ha))
  have hsame' := hdepth'.symm.trans (hdepths b (hperm.mem_iff.mp hb))
  rw [Option.some.inj hsame, Option.some.inj hsame']
  exact hle

end KillOrder

/-- No cycle of recorded parents is reached from the process, or the process is the only one below
itself, in which case no depth is asked for. -/
def Settles (processes : List ProcessInfo) (pid : ProcessId) : Prop :=
  (∀ other, ReflTransGen (ParentOf processes) pid other → ¬TransGen (ParentOf processes) other other) ∨
    ∀ child, ParentOf processes pid child → child = pid

section Kill
variable {processes : List ProcessInfo} {pid : ProcessId}

theorem child_eq_parentOf (processes : List ProcessInfo) :
    Child (childrenOf (buildProcessTree processes)) = ParentOf processes := by
  funext parent pid
  exact propext child_iff

theorem grounded_iff :
    Grounded (childrenOf (buildProcessTree processes)) pid ↔
      ∀ other, ReflTransGen (ParentOf processes) pid other →
        ¬TransGen (ParentOf processes) other other := by
  simp only [Grounded, Below, child_eq_parentOf]

theorem exists_treeDepth_iff :
    (∃ fuel depth, treeDepth (buildProcessTree processes) fuel pid = some depth) ↔
      Grounded (childrenOf (buildProcessTree processes)) pid := by
  simp only [treeDepth_eq_height]
  rw [exists_height_iff_acc, acc_iff_grounded (pids processes) (children_subset_pids processes)]

theorem toKill_spec {fuel : ℕ} {descendants : List ProcessId}
    (hcollect : collectDescendants (buildProcessTree processes) fuel pid [] = some descendants) :
    (toKill pid descendants).Nodup ∧
      ∀ other, other ∈ toKill pid descendants ↔
        other = pid ∨ TransGen (ParentOf processes) pid other := by
  obtain ⟨hnodup, hbelow⟩ := collect_eq hcollect
  simp only [Below, child_eq_parentOf] at hbelow
  unfold toKill
  split
  · rename_i hmem
    refine ⟨hnodup, fun other => ?_⟩
    rw [hbelow]
    constructor
    · exact Or.inr
    · rintro (rfl | hother)
      · exact (hbelow _).mp hmem
      · exact hother
  · rename_i hmem
    refine ⟨nodup_cons.mpr ⟨hmem, hnodup⟩, fun other => ?_⟩
    rw [mem_cons, hbelow]

variable {order : HashOrder} {fuel : ℕ} {snapshot : Toolhelp}

theorem killTreeById_error {e : ProcessOpenError} (hlist : listWithBuffer snapshot = .error e) :
    killTreeByIdWithBuffer order fuel snapshot pid = some (.error e) := by
  simp only [killTreeByIdWithBuffer, hlist]

theorem killTreeById_eq_some_iff {result : Except ProcessOpenError (List ProcessId)}
    (hlist : listWithBuffer snapshot = .ok processes) :
    killTreeByIdWithBuffer order fuel snapshot pid = some result ↔
      ∃ descendants killOrder,
        collectDescendants (buildProcessTree processes) fuel pid [] = some descendants ∧
        sortByKeyReverse (treeDepth (buildProcessTree processes) fuel)
          (order.arrange (toKill pid descendants)) = some killOrder ∧ result = .ok killOrder := by
  simp only [killTreeByIdWithBuffer, hlist]
  constructor
  · intro hrun
    obtain ⟨descendants, hcollect, hrun⟩ := Option.bind_eq_some_iff.mp hrun
    obtain ⟨killOrder, hsort, hrun⟩ := Option.bind_eq_some_iff.mp hrun
    exact ⟨descendants, killOrder, hcollect, hsort, (Option.some.inj hrun).symm⟩
  · rintro ⟨descendants, killOrder, hcollect, hsort, rfl⟩
    exact Option.bind_eq_some_iff.mpr ⟨descendants, hcollect,
      Option.bind_eq_some_iff.mpr ⟨killOrder, hsort, rfl⟩⟩

theorem exists_collectDescendants (processes : List ProcessInfo) (pid : ProcessId) (hfuel : (pids processes).card < fuel) :
    ∃ descendants, collectDescendants (buildProcessTree processes) fuel pid [] = some descendants := by
  apply exists_collect (pids processes) (children_subset_pids processes)
  simpa using hfuel

theorem length_arrange_toKill_lt_two_iff {descendants : List ProcessId}
    (hcollect : collectDescendants (buildProcessTree processes) fuel pid [] = some descendants) :
    (order.arrange (toKill pid descendants)).length < 2 ↔
      ∀ child, ParentOf processes pid child → child = pid := by
  obtain ⟨hnodup, hmem⟩ := toKill_spec hcollect
  rw [(order.perm _).length_eq]
  constructor
  · intro hshort child hchild
    have hfirst : pid ∈ toKill pid descendants := (hmem pid).mpr (Or.inl rfl)
    have hsecond : child ∈ toKill pid descendants := (hmem child).mpr (Or.inr (.single hchild))
    obtain ⟨only, honly⟩ : ∃ only, toKill pid descendants = [only] :=
      length_eq_one_iff.mp (by
        have hpos := length_pos_of_mem hfirst
        omega)
    rw [honly, mem_singleton] at hfirst hsecond
    exact hsecond.trans hfirst.symm
  · intro honly
    have hall : ∀ other ∈ toKill pid descendants, other = pid := by
      intro other hother
      rcases (hmem other).mp hother with rfl | hbelow
      · rfl
      · induction hbelow with
        | single hchild => exact honly _ hchild
        | tail hbelow hchild ih =>
          have hsame := ih ((hmem _).mpr (Or.inr hbelow))
          exact honly _ (hsame ▸ hchild)
    have hlength : (toKill pid descendants).length ≤ 1 := by
      have hsub : (toKill pid descendants).Subperm [pid] :=
        hnodup.subperm fun other hother => mem_singleton.mpr (hall other hother)
      exact hsub.length_le
    omega

theorem exists_depths_of_grounded
    (hgrounded : Grounded (childrenOf (buildProcessTree processes)) pid) :
    ∃ fuel₀, ∀ fuel ≥ fuel₀, ∀ other, other = pid ∨ TransGen (ParentOf processes) pid other →
      ∃ depth, treeDepth (buildProcessTree processes) fuel other = some depth := by
  obtain ⟨descendants, hcollect⟩ :=
    exists_collectDescendants processes pid (Nat.lt_succ_self (pids processes).card)
  obtain ⟨-, hmem⟩ := toKill_spec hcollect
  have hheights : ∀ other ∈ toKill pid descendants, ∃ fuel depth,
      height (childrenOf (buildProcessTree processes)) fuel other = some depth := by
    intro other hother
    have hreach : ReflTransGen (ParentOf processes) pid other := by
      rcases (hmem other).mp hother with rfl | hbelow
      · exact ReflTransGen.refl
      · exact hbelow.to_reflTransGen
    rw [exists_height_iff_acc, acc_iff_grounded (pids processes) (children_subset_pids processes),
      grounded_iff]
    exact fun final hfinal => grounded_iff.mp hgrounded final (hreach.trans hfinal)
  obtain ⟨fuel₀, hall⟩ := exists_fuel hheights
  refine ⟨fuel₀, fun fuel hfuel other hother => ?_⟩
  obtain ⟨depth, hdepth⟩ := hall other ((hmem other).mpr hother)
  exact ⟨depth, (treeDepth_eq_height _ _ _).trans (height_mono hdepth hfuel)⟩

theorem exists_kill_of_settles (hlist : listWithBuffer snapshot = .ok processes)
    (hsettles : Settles processes pid) :
    ∃ fuel₀, ∀ fuel ≥ fuel₀, ∃ result,
      killTreeByIdWithBuffer order fuel snapshot pid = some result := by
  have hsorted : ∃ fuel₀, ∀ fuel ≥ fuel₀, ∀ descendants,
      collectDescendants (buildProcessTree processes) fuel pid [] = some descendants →
      ∃ killOrder, sortByKeyReverse (treeDepth (buildProcessTree processes) fuel)
        (order.arrange (toKill pid descendants)) = some killOrder := by
    rcases hsettles with hgrounded | honly
    · obtain ⟨fuel₀, hdepths⟩ := exists_depths_of_grounded (grounded_iff.mpr hgrounded)
      refine ⟨fuel₀, fun fuel hfuel descendants hcollect => ?_⟩
      refine sortByKeyReverse_isSome_iff.mpr (Or.inr fun other hother => ?_)
      exact hdepths fuel hfuel other
        (((toKill_spec hcollect).2 other).mp ((order.perm _).mem_iff.mp hother))
    · refine ⟨0, fun fuel _ descendants hcollect => ?_⟩
      exact sortByKeyReverse_isSome_iff.mpr
        (Or.inl ((length_arrange_toKill_lt_two_iff hcollect).mpr honly))
  obtain ⟨fuel₀, hsorted⟩ := hsorted
  refine ⟨max fuel₀ ((pids processes).card+1), fun fuel hfuel => ?_⟩
  obtain ⟨descendants, hcollect⟩ := exists_collectDescendants processes pid
    (show (pids processes).card < fuel by omega)
  obtain ⟨killOrder, hsort⟩ := hsorted fuel (by omega) descendants hcollect
  exact ⟨_, (killTreeById_eq_some_iff hlist).mpr ⟨descendants, killOrder, hcollect, hsort, rfl⟩⟩

theorem exists_kill_iff (hlist : listWithBuffer snapshot = .ok processes) :
    (∃ fuel, (killTreeByIdWithBuffer order fuel snapshot pid).isSome) ↔ Settles processes pid := by
  constructor
  · rintro ⟨fuel, hrun⟩
    obtain ⟨result, hresult⟩ := Option.isSome_iff_exists.mp hrun
    obtain ⟨descendants, killOrder, hcollect, hsort, -⟩ := (killTreeById_eq_some_iff hlist).mp hresult
    rcases sortByKeyReverse_isSome_iff.mp ⟨killOrder, hsort⟩ with hshort | hdepths
    · exact Or.inr ((length_arrange_toKill_lt_two_iff hcollect).mp hshort)
    · have hself : pid ∈ order.arrange (toKill pid descendants) :=
        (order.perm _).mem_iff.mpr (((toKill_spec hcollect).2 pid).mpr (Or.inl rfl))
      exact Or.inl (grounded_iff.mp (exists_treeDepth_iff.mp ⟨fuel, hdepths pid hself⟩))
  · intro hsettles
    obtain ⟨fuel₀, hkill⟩ := exists_kill_of_settles hlist hsettles
    obtain ⟨result, hresult⟩ := hkill fuel₀ le_rfl
    exact ⟨fuel₀, Option.isSome_iff_exists.mpr ⟨result, hresult⟩⟩

end Kill

section Root
variable {processes : List ProcessInfo} {pid : ProcessId} {order : HashOrder} {fuel : ℕ}

theorem exists_entry_addChild {parent pid key child : ProcessId} {tree : ProcessMap} :
    (∃ entry ∈ addChild parent pid tree, entry.1 = key ∧ child ∈ entry.2) ↔
      (key = parent ∧ child = pid) ∨ ∃ entry ∈ tree, entry.1 = key ∧ child ∈ entry.2 := by
  induction tree with
  | nil =>
    simp only [addChild, mem_singleton, exists_eq_left, not_mem_nil, false_and,
      exists_false, or_false]
    exact and_congr_left fun _ => eq_comm
  | cons entry rest ih =>
    rw [addChild]
    by_cases hfirst : entry.1 = parent
    · rw [if_pos hfirst]
      simp only [exists_mem_cons_iff, mem_append, mem_singleton]
      grind
    · rw [if_neg hfirst]
      simp only [exists_mem_cons_iff, ih]
      grind

theorem exists_entry_iff {parent child : ProcessId} :
    (∃ entry ∈ buildProcessTree processes, entry.1 = parent ∧ child ∈ entry.2) ↔
      ParentOf processes parent child := by
  induction processes using List.reverseRecOn with
  | nil => simp [buildProcessTree, ParentOf]
  | append_singleton processes proc ih =>
    have hlast : ParentOf (processes ++ [proc]) parent child ↔
        ParentOf processes parent child ∨ proc.pid = child ∧ proc.parentPid = some parent := by
      simp [ParentOf, or_and_right, exists_or]
    rw [hlast, buildProcessTree, foldl_concat, ← buildProcessTree]
    cases hparent : proc.parentPid with
    | none => simpa using ih
    | some recorded =>
      dsimp only
      rw [exists_entry_addChild, ih]
      grind

theorem mem_pairs_iff (order : HashOrder) {parent child : ProcessId} :
    (child, parent) ∈ ((order.arrange (buildProcessTree processes)).flatMap fun entry =>
      entry.2.map fun child => (child, entry.1)) ↔ ParentOf processes parent child := by
  rw [← exists_entry_iff]
  simp only [mem_flatMap, mem_map, Prod.mk.injEq, (order.perm _).mem_iff]
  grind

theorem parentOf_of_childToParent {parent : ProcessId}
    (h : childToParent order (buildProcessTree processes) pid = some parent) :
    ParentOf processes parent pid := by
  obtain ⟨before, after, hpairs, -⟩ := lookup_eq_some_iff.mp h
  have hmem : (pid, parent) ∈ ((order.arrange (buildProcessTree processes)).flatMap fun entry =>
      entry.2.map fun child => (child, entry.1)) := by
    rw [← mem_reverse, hpairs]
    exact mem_append_right _ mem_cons_self
  exact (mem_pairs_iff order).mp hmem

theorem not_parentOf_of_childToParent_eq_none
    (h : childToParent order (buildProcessTree processes) pid = none) (parent : ProcessId) :
    ¬ParentOf processes parent pid := by
  intro hparent
  have hmem := mem_reverse.mpr ((mem_pairs_iff order).mpr hparent)
  have hother := lookup_eq_none_iff.mp h _ hmem
  simp at hother

theorem Listed.of_childToParent {parent : ProcessId}
    (h : childToParent order (buildProcessTree processes) pid = some parent) :
    Listed processes pid := by
  obtain ⟨proc, hmem, hpid, -⟩ := parentOf_of_childToParent h
  exact ⟨proc, hmem, hpid⟩

theorem exists_findRootAncestor (processes : List ProcessInfo) (pid : ProcessId) (order : HashOrder)
    (hfuel : (pids processes).card < fuel) :
    ∃ root, findRootAncestor order fuel pid (buildProcessTree processes) = some root := by
  apply exists_climb (pids processes)
  · intro child parent hparent
    obtain ⟨proc, hmem, hproc⟩ := Listed.of_childToParent hparent
    rw [pids, mem_toFinset, mem_map]
    exact ⟨proc, hmem, hproc⟩
  · simpa using hfuel

theorem findRootAncestor_unique {fuel' : ℕ} {root root' : ProcessId} {tree : ProcessMap}
    (hroot : findRootAncestor order fuel pid tree = some root)
    (hroot' : findRootAncestor order fuel' pid tree = some root') : root = root' :=
  climb_unique hroot hroot'

theorem exists_killFromRoot_iff {setOrder : HashOrder} {first second : Toolhelp} {root : ProcessId}
    (hfirst : listWithBuffer first = .ok processes)
    (hroot : ∃ fuel, findRootAncestor order fuel pid (buildProcessTree processes) = some root) :
    (∃ fuel, (killTreeFromRootWithBuffer order setOrder fuel first second pid).isSome) ↔
      ∀ later, listWithBuffer second = .ok later → Settles later root := by
  obtain ⟨fuel₀, hroot⟩ := hroot
  constructor
  · rintro ⟨fuel, hrun⟩ later hsecond
    obtain ⟨result, hresult⟩ := Option.isSome_iff_exists.mp hrun
    simp only [killTreeFromRootWithBuffer, hfirst] at hresult
    obtain ⟨root', hroot', hkill⟩ := Option.bind_eq_some_iff.mp hresult
    rw [findRootAncestor_unique hroot hroot']
    exact (exists_kill_iff hsecond).mp ⟨fuel, Option.isSome_iff_exists.mpr ⟨result, hkill⟩⟩
  · intro hsettles
    -- a second listing that fails ends the kill as well
    have hkill : ∃ fuel₁, ∀ fuel ≥ fuel₁, ∃ result,
        killTreeByIdWithBuffer setOrder fuel second root = some result := by
      cases hsecond : listWithBuffer second with
      | error e => exact ⟨0, fun fuel _ => ⟨_, killTreeById_error hsecond⟩⟩
      | ok later => exact exists_kill_of_settles hsecond (hsettles later hsecond)
    obtain ⟨fuel₁, hkill⟩ := hkill
    -- enough fuel for both: the walk gives the same root with more of it
    let fuel := max fuel₁ ((pids processes).card+1)
    obtain ⟨root', hroot'⟩ := exists_findRootAncestor processes pid order
      (show (pids processes).card < fuel by omega)
    obtain ⟨result, hresult⟩ := hkill fuel (Nat.le_max_left _ _)
    refine ⟨fuel, Option.isSome_iff_exists.mpr ⟨result, ?_⟩⟩
    simp only [killTreeFromRootWithBuffer, hfirst]
    rw [findRootAncestor_unique hroot hroot'] at hresult
    exact Option.bind_eq_some_iff.mpr ⟨root', hroot', hresult⟩

end Root

/-- Killing ends exactly if a listing fails, or no cycle of recorded parents is reached from the
process, or there is nothing else below it. -/
theorem kill_tree_terminates_iff (mapOrder setOrder : HashOrder) (first second : Toolhelp)
    (pid : ProcessId) :
    ((∃ fuel, (killTreeByIdWithBuffer setOrder fuel first pid).isSome) ↔
      ∀ processes, listWithBuffer first = .ok processes → Settles processes pid) ∧
    ((∃ fuel, (killTreeFromRootWithBuffer mapOrder setOrder fuel first second pid).isSome) ↔
      ∀ processes later, listWithBuffer first = .ok processes → listWithBuffer second = .ok later →
        ∃ root, (∃ fuel, findRootAncestor mapOrder fuel pid (buildProcessTree processes) = some root) ∧
          Settles later root) := by
  cases hfirst : listWithBuffer first with
  | error e =>
    refine ⟨iff_of_true ⟨0, ?_⟩ ?_, iff_of_true ⟨0, ?_⟩ ?_⟩
    · rw [killTreeById_error hfirst, Option.isSome_some]
    · intro processes hok
      cases hok
    · simp [killTreeFromRootWithBuffer, hfirst]
    · intro processes later hok
      cases hok
  | ok processes =>
    obtain ⟨root, hroot⟩ := exists_findRootAncestor processes pid mapOrder
      (Nat.lt_succ_self (pids processes).card)
    rw [exists_kill_iff hfirst, exists_killFromRoot_iff hfirst ⟨_, hroot⟩]
    refine ⟨⟨?_, fun h => h processes rfl⟩, ⟨?_, ?_⟩⟩
    · intro hsettles listed hlisted
      cases hlisted
      exact hsettles
    · intro hsettles listed later hlisted hlater
      cases hlisted
      exact ⟨root, ⟨_, hroot⟩, hsettles later hlater⟩
    · intro h later hlater
      obtain ⟨root', ⟨fuel', hroot'⟩, hsettles⟩ := h processes later rfl hlater
      rw [findRootAncestor_unique hroot hroot']
      exact hsettles

def HashOrder.same : HashOrder := ⟨fun l => l, fun l => List.Perm.refl l⟩

def parentCycle : Toolhelp := .ok [⟨4, 8, 1, []⟩, ⟨8, 4, 1, []⟩]

/-- No amount of fuel is enough, for the kill by id and for the kill from the root. -/
theorem kill_tree_cycle_never_ends :
    (¬∃ fuel, (killTreeByIdWithBuffer .same fuel parentCycle 4).isSome) ∧
      ¬∃ fuel, (killTreeFromRootWithBuffer .same .same fuel parentCycle parentCycle 4).isSome := by
  let processes : List ProcessInfo := [⟨4, some 8, [], 1⟩, ⟨8, some 4, [], 1⟩]
  have hlist : listWithBuffer parentCycle = .ok processes := rfl
  have hdown : ParentOf processes 4 8 := ⟨_, mem_cons_of_mem _ mem_cons_self, rfl, rfl⟩
  have hup : ParentOf processes 8 4 := ⟨_, mem_cons_self, rfl, rfl⟩
  have hcycle : ¬Settles processes 4 := by
    rintro (hgrounded | honly)
    · exact hgrounded 4 ReflTransGen.refl ((TransGen.single hdown).tail hup)
    · exact absurd (honly 8 hdown) (by decide)
  have hroot : findRootAncestor .same 3 4 (buildProcessTree processes) = some 4 := by decide +kernel
  refine ⟨?_, ?_⟩
  · rw [exists_kill_iff hlist]
    exact hcycle
  · rw [exists_killFromRoot_iff hlist ⟨3, hroot⟩]
    exact fun hsettles => hcycle (hsettles processes hlist)

section KillSet
variable {processes : List ProcessInfo} {pid : ProcessId} {order : HashOrder} {fuel : ℕ}
  {snapshot : Toolhelp} {kills : List ProcessId}

section
variable (hlist : listWithBuffer snapshot = .ok processes)
    (hrun : killTreeByIdWithBuffer order fuel snapshot pid = some (.ok kills))
include hlist hrun

theorem kills_spec :
    kills.Nodup ∧ ∀ other, other ∈ kills ↔ other = pid ∨ TransGen (ParentOf processes) pid other := by
  obtain ⟨descendants, killOrder, hcollect, hsort, hresult⟩ := (killTreeById_eq_some_iff hlist).mp hrun
  cases hresult
  obtain ⟨hnodup, hmem⟩ := toKill_spec hcollect
  have hperm := (sortByKeyReverse_eq hsort).1.trans (order.perm _)
  exact ⟨hperm.nodup_iff.mpr hnodup, fun other => hperm.mem_iff.trans (hmem other)⟩

theorem kills_top_down :
    kills.Pairwise fun earlier later => ¬TransGen (ParentOf processes) later earlier := by
  obtain ⟨descendants, killOrder, hcollect, hsort, hresult⟩ := (killTreeById_eq_some_iff hlist).mp hrun
  cases hresult
  obtain ⟨hperm, hordered⟩ := sortByKeyReverse_eq hsort
  rcases sortByKeyReverse_isSome_iff.mp ⟨_, hsort⟩ with hshort | hdepths
  · exact pairwise_of_length_lt_two (hperm.length_eq ▸ hshort)
  · refine hordered.imp_of_mem fun {earlier later} hearlier hlater hle hbelow => ?_
    obtain ⟨depth, hdepth⟩ := hdepths earlier (hperm.mem_iff.mp hearlier)
    obtain ⟨depth', hdepth'⟩ := hdepths later (hperm.mem_iff.mp hlater)
    have hle' := hle depth depth' hdepth hdepth'
    rw [treeDepth_eq_height] at hdepth hdepth'
    rw [← child_eq_parentOf] at hbelow
    have hlt := height_lt_of_below hdepth' hdepth hbelow
    omega

end

theorem exists_kills (order : HashOrder) (hlist : listWithBuffer snapshot = .ok processes)
    (hsettles : Settles processes pid) :
    ∃ fuel kills, killTreeByIdWithBuffer order fuel snapshot pid = some (.ok kills) := by
  obtain ⟨fuel, hkill⟩ := exists_kill_of_settles hlist hsettles
  obtain ⟨result, hresult⟩ := hkill fuel le_rfl
  obtain ⟨-, kills, -, -, rfl⟩ := (killTreeById_eq_some_iff hlist).mp hresult
  exact ⟨fuel, kills, hresult⟩

end KillSet

/-- In an acyclic snapshot the kills are the process and those below it, each once; but a process
comes behind all that are below it only if there are none. -/
theorem kill_tree_exact_and_bottom_up_iff (order : HashOrder) (snapshot : Toolhelp)
    (processes : List ProcessInfo) (hlist : listWithBuffer snapshot = .ok processes)
    (hacyclic : ∀ other, ¬TransGen (ParentOf processes) other other) (pid : ProcessId) :
    (∃ fuel kills, killTreeByIdWithBuffer order fuel snapshot pid = some (.ok kills)) ∧
    ∀ fuel kills, killTreeByIdWithBuffer order fuel snapshot pid = some (.ok kills) →
      (∀ other, other ∈ kills ↔ other = pid ∨ TransGen (ParentOf processes) pid other) ∧
      kills.Nodup ∧
      ((kills.Pairwise fun earlier later => ¬TransGen (ParentOf processes) earlier later) ↔
        ∀ child, ¬ParentOf processes pid child) := by
  refine ⟨exists_kills order hlist (Or.inl fun other _ => hacyclic other), ?_⟩
  intro fuel kills hrun
  obtain ⟨hnodup, hkills⟩ := kills_spec hlist hrun
  refine ⟨hkills, hnodup, ?_, ?_⟩
  · intro hbottomUp child hchild
    have hbelow : TransGen (ParentOf processes) pid child := TransGen.single hchild
    have hboth := hbottomUp.and (kills_top_down hlist hrun)
    -- of the process and its child one is killed first, and either order is excluded
    have hsymm : Std.Symm fun a b => ¬TransGen (ParentOf processes) a b ∧
        ¬TransGen (ParentOf processes) b a := ⟨fun _ _ hapart => ⟨hapart.2, hapart.1⟩⟩
    have hne : pid ≠ child := by
      intro hsame
      exact hacyclic pid (hsame ▸ hbelow)
    have hapart := hboth.forall ((hkills pid).mpr (Or.inl rfl)) ((hkills child).mpr (Or.inr hbelow)) hne
    exact hapart.1 hbelow
  · intro hnone
    apply pairwise_of_forall_mem_list
    intro earlier hearlier later _ hbelow
    -- whoever is killed leads to a child of the process
    have hpath : TransGen (ParentOf processes) pid later := by
      rcases (hkills earlier).mp hearlier with rfl | habove
      · exact hbelow
      · exact habove.trans hbelow
    obtain ⟨child, hchild, -⟩ := TransGen.head'_iff.mp hpath
    exact hnone child hchild

theorem kill_tree_exact_and_bottom_up_single :
    ∃ fuel kills, killTreeByIdWithBuffer .same fuel (.ok [⟨4, 0, 1, []⟩]) 4 = some (.ok kills) ∧
      kills.Nodup ∧ kills.Pairwise fun earlier later =>
        ¬TransGen (ParentOf [⟨4, none, [], 1⟩]) earlier later := by
  have hnone : ∀ parent child, ¬ParentOf [⟨4, none, [], 1⟩] parent child := by
    rintro parent child ⟨proc, hmem, -, hparent⟩
    rw [mem_singleton.mp hmem] at hparent
    cases hparent
  have hacyclic : ∀ other, ¬TransGen (ParentOf [⟨4, none, [], 1⟩]) other other := by
    intro other hcycle
    obtain ⟨child, hchild, -⟩ := TransGen.head'_iff.mp hcycle
    exact hnone other child hchild
  obtain ⟨⟨fuel, kills, hrun⟩, hall⟩ := kill_tree_exact_and_bottom_up_iff .same
    (.ok [⟨4, 0, 1, []⟩]) [⟨4, none, [], 1⟩] rfl hacyclic 4
  obtain ⟨-, hnodup, hbottomUp⟩ := hall fuel kills hrun
  exact ⟨fuel, kills, hrun, hnodup, hbottomUp.mpr (hnone 4)⟩

/-- The parent 4 is killed before its child 8. -/
theorem kill_tree_parent_first :
    killTreeByIdWithBuffer .same 3 (.ok [⟨4, 0, 1, []⟩, ⟨8, 4, 1, []⟩]) 4 = some (.ok [4, 8]) ∧
      ParentOf [⟨4, none, [], 1⟩, ⟨8, some 4, [], 1⟩] 4 8 :=
  ⟨by decide +kernel, ⟨_, mem_cons_of_mem _ mem_cons_self, rfl, rfl⟩⟩

def ListedParent (processes : List ProcessInfo) (pid parent : ProcessId) : Prop :=
  ParentOf processes parent pid ∧ Listed processes parent

structure IsRootAncestor (processes : List ProcessInfo) (pid root : ProcessId) : Prop where
  listed : Listed processes root
  ancestor : ReflTransGen (ListedParent processes) pid root
  top : (∀ parent, ¬ListedParent processes root parent) ∨
    TransGen (ListedParent processes) root root

/-- The walk always ends. Where it ends is a root ancestor exactly if every id that it comes to is
listed. -/
theorem root_ancestor_listed_iff (order : HashOrder) (processes : List ProcessInfo)
    (pid : ProcessId) :
    ∃ root, (∃ fuel, findRootAncestor order fuel pid (buildProcessTree processes) = some root) ∧
      (IsRootAncestor processes pid root ↔
        ∀ other, ReflTransGen (Up (childToParent order (buildProcessTree processes))) pid other →
          Listed processes other) := by
  obtain ⟨root, hrun⟩ := exists_findRootAncestor processes pid order
    (Nat.lt_succ_self (pids processes).card)
  obtain ⟨hroot, hend⟩ := climb_eq (fun a ha => absurd ha not_mem_nil) hrun
  refine ⟨root, ⟨_, hrun⟩, ?_, ?_⟩
  · intro hancestor other hreach
    cases hparent : childToParent order (buildProcessTree processes) other with
    | some parent => exact Listed.of_childToParent hparent
    | none => exact climb_eq_of_parent_eq_none hrun hreach hparent ▸ hancestor.listed
  · intro hlisted
    set up := Up (childToParent order (buildProcessTree processes))
    -- every step of the walk goes to a parent that is recorded and listed
    have hstep : ∀ a b, ReflTransGen up pid a → up a b → ListedParent processes a b := by
      intro a b hreach hup
      exact ⟨parentOf_of_childToParent hup, hlisted b (hreach.tail hup)⟩
    have hway : ∀ a, ReflTransGen up pid a → ReflTransGen (ListedParent processes) pid a := by
      intro a hreach
      induction hreach with
      | refl => exact ReflTransGen.refl
      | tail hreach hup ih => exact ih.tail (hstep _ _ hreach hup)
    have hcycle : ∀ a, TransGen up root a → TransGen (ListedParent processes) root a := by
      intro a hreach
      induction hreach with
      | single hup => exact TransGen.single (hstep _ _ hroot hup)
      | tail hreach hup ih => exact ih.tail (hstep _ _ (hroot.trans hreach.to_reflTransGen) hup)
    refine ⟨hlisted root hroot, hway root hroot, ?_⟩
    rcases hend with hnone | hback
    · exact Or.inl fun parent hparent => not_parentOf_of_childToParent_eq_none hnone parent hparent.1
    · exact Or.inr (hcycle root hback)

/-- The parent 99 of the only listed process has exited, and the walk ends there. -/
theorem root_ancestor_exited :
    Listed [⟨5, some 99, [], 1⟩] 5 ∧
      findRootAncestor .same 3 5 (buildProcessTree [⟨5, some 99, [], 1⟩]) = some 99 ∧
      ¬Listed [⟨5, some 99, [], 1⟩] 99 := by
  refine ⟨⟨_, mem_cons_self, rfl⟩, by decide +kernel, ?_⟩
  intro hlisted
  obtain ⟨proc, hmem, hproc⟩ := hlisted
  rw [mem_singleton.mp hmem] at hproc
  exact absurd hproc (by decide)

theorem reflTransGen_parentOf_of_findRootAncestor {order : HashOrder} {fuel : ℕ}
    {processes : List ProcessInfo} {pid root : ProcessId}
    (hroot : findRootAncestor order fuel pid (buildProcessTree processes) = some root) :
    ReflTransGen (ParentOf processes) root pid := by
  have hup := (climb_eq (fun a ha => absurd ha not_mem_nil) hroot).1
  rw [← reflTransGen_swap]
  exact ReflTransGen.mono (fun a b hstep => parentOf_of_childToParent hstep) _ _ hup

/-- On one snapshot, the kill from the root kills all that the kill by id does, also where the parent
links have cycles. -/
theorem kill_from_root_covers {mapOrder setOrder order : HashOrder} {fuel fuel' : ℕ}
    {snapshot : Toolhelp} {pid : ProcessId} {fromRoot byId : List ProcessId}
    (hroot : killTreeFromRootWithBuffer mapOrder setOrder fuel snapshot snapshot pid =
      some (.ok fromRoot))
    (hid : killTreeByIdWithBuffer order fuel' snapshot pid = some (.ok byId)) :
    byId ⊆ fromRoot := by
  intro other hother
  cases hlist : listWithBuffer snapshot with
  | error e => cases (killTreeById_error hlist).symm.trans hid
  | ok processes =>
    simp only [killTreeFromRootWithBuffer, hlist] at hroot
    obtain ⟨root, hfind, hkill⟩ := Option.bind_eq_some_iff.mp hroot
    have hway := reflTransGen_parentOf_of_findRootAncestor hfind
    rw [(kills_spec hlist hkill).2]
    have hbelow : ReflTransGen (ParentOf processes) root other := by
      rcases ((kills_spec hlist hid).2 other).mp hother with rfl | hunder
      · exact hway
      · exact hway.trans hunder.to_reflTransGen
    exact reflTransGen_iff_eq_or_transGen.mp hbelow

/-- The sibling 12 of the process 8 goes down with its parent 4. -/
theorem kill_from_root_covers_siblings :
    let snapshot : Toolhelp := .ok [⟨4, 0, 1, []⟩, ⟨8, 4, 1, []⟩, ⟨12, 4, 1, []⟩]
    killTreeFromRootWithBuffer .same .same 5 snapshot snapshot 8 = some (.ok [4, 12, 8]) ∧
      [8] ⊆ [4, 12, (8 : ProcessId)] := by
  intro snapshot
  have hroot : killTreeFromRootWithBuffer .same .same 5 snapshot snapshot 8 =
      some (.ok [4, 12, 8]) := by decide +kernel
  have hid : killTreeByIdWithBuffer .same 5 snapshot 8 = some (.ok [8]) := by decide +kernel
  exact ⟨hroot, kill_from_root_covers hroot hid⟩

end WindowsErg.Process
