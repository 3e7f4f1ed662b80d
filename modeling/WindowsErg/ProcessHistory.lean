import WindowsErg.ProcessTree

/-! Who is killed, over histories of process creations and exits. An id is free again when its
process exits. -/
namespace WindowsErg.Process
open List Relation

/-- A process: its number in the order of creation, its id, the id that its creator had (zero if it
has none), and its creator's number. -/
structure ProcessRecord where
  serial : ℕ
  pid : ProcessId
  parentId : ProcessId
  creator : Option ℕ
  deriving DecidableEq

structure ProcessHistory where
  created : List ProcessRecord
  running : List ProcessRecord

def ProcessHistory.start : ProcessHistory := ⟨[], []⟩

def ProcessHistory.child (history : ProcessHistory) (creator : Option ProcessRecord)
    (pid : ProcessId) : ProcessRecord where
  serial := history.created.length
  pid := pid
  parentId := (creator.map (·.pid)).getD 0
  creator := creator.map (·.serial)

inductive HistoryStep : ProcessHistory → ProcessHistory → Prop
  | create {history : ProcessHistory} (creator : Option ProcessRecord) (pid : ProcessId)
      (hcreator : ∀ proc ∈ creator, proc ∈ history.running)
      (hpid : ∀ proc ∈ history.running, proc.pid ≠ pid) :
      HistoryStep history ⟨history.created ++ [history.child creator pid],
        history.child creator pid :: history.running⟩
  | exit {history : ProcessHistory} (proc : ProcessRecord) :
      HistoryStep history ⟨history.created, history.running.erase proc⟩

abbrev Reachable (history : ProcessHistory) : Prop := ReflTransGen HistoryStep .start history

def ProcessHistory.Creates (history : ProcessHistory) (parent child : ℕ) : Prop :=
  ∃ proc ∈ history.created, proc.serial = child ∧ proc.creator = some parent

def ProcessHistory.Family (history : ProcessHistory) (target proc : ProcessRecord) : Prop :=
  ReflTransGen history.Creates target.serial proc.serial

theorem nodup_pids_step {history next : ProcessHistory} (hstep : HistoryStep history next)
    (hnodup : (history.running.map (·.pid)).Nodup) : (next.running.map (·.pid)).Nodup := by
  cases hstep with
  | create creator pid hcreator hpid =>
    rw [map_cons, nodup_cons]
    refine ⟨?_, hnodup⟩
    intro hmem
    obtain ⟨proc, hproc, hsame⟩ := mem_map.mp hmem
    exact hpid proc hproc hsame
  | exit proc => exact hnodup.sublist (List.Sublist.map _ (erase_sublist))

theorem nodup_pids {history : ProcessHistory} (hreach : Reachable history) :
    (history.running.map (·.pid)).Nodup := by
  induction hreach with
  | refl => exact nodup_nil
  | tail _ hstep ih => exact nodup_pids_step hstep ih

theorem eq_of_pid_eq {history : ProcessHistory} (hreach : Reachable history)
    {first second : ProcessRecord} (hfirst : first ∈ history.running)
    (hsecond : second ∈ history.running) (hpid : first.pid = second.pid) : first = second :=
  inj_on_of_nodup_map (nodup_pids hreach) hfirst hsecond hpid

def Lists (history : ProcessHistory) (entries : List ProcessEntry) : Prop :=
  (entries.map fun entry => (entry.th32ProcessID, entry.th32ParentProcessID)).Perm
    (history.running.map fun proc => (proc.pid, proc.parentId))

theorem listWithBuffer_ok (entries : List ProcessEntry) :
    listWithBuffer (.ok entries) = .ok (entries.map (·.info)) := by
  simp [listWithBuffer, listWithFilterImpl]

section Snapshot
variable {history : ProcessHistory} {entries : List ProcessEntry}

theorem parentOf_snapshot_iff (hlists : Lists history entries) {parent pid : ProcessId} :
    ParentOf (entries.map (·.info)) parent pid ↔
      ∃ proc ∈ history.running, proc.pid = pid ∧ proc.parentId = parent ∧ parent ≠ 0 := by
  have hmem : ∀ pair, (∃ entry ∈ entries, (entry.th32ProcessID, entry.th32ParentProcessID) = pair) ↔
      ∃ proc ∈ history.running, (proc.pid, proc.parentId) = pair := by
    intro pair
    rw [← mem_map, ← mem_map]
    exact hlists.mem_iff
  have hinfo : ∀ entry : ProcessEntry, entry.info.parentPid = some parent ↔
      entry.th32ParentProcessID = parent ∧ parent ≠ 0 := by
    intro entry
    by_cases hzero : entry.th32ParentProcessID = 0
    · simp only [ProcessEntry.info, hzero, if_true, reduceCtorEq, false_iff, not_and, not_not]
      exact Eq.symm
    · rw [ProcessEntry.info, if_neg hzero, Option.some.injEq]
      exact ⟨fun hsame => ⟨hsame, hsame ▸ hzero⟩, fun hsame => hsame.1⟩
  constructor
  · intro hparent
    obtain ⟨info, hmapped, hpid, hparent⟩ := hparent
    obtain ⟨entry, hentry, rfl⟩ := mem_map.mp hmapped
    obtain ⟨proc, hproc, hpair⟩ := (hmem _).mp ⟨entry, hentry, rfl⟩
    obtain ⟨hrecorded, hzero⟩ := (hinfo entry).mp hparent
    have hsamePid : proc.pid = entry.th32ProcessID := congrArg Prod.fst hpair
    have hsameParent : proc.parentId = entry.th32ParentProcessID := congrArg Prod.snd hpair
    exact ⟨proc, hproc, hsamePid.trans hpid, hsameParent.trans hrecorded, hzero⟩
  · intro hrunning
    obtain ⟨proc, hproc, hpid, hparent, hzero⟩ := hrunning
    obtain ⟨entry, hentry, hpair⟩ := (hmem _).mpr ⟨proc, hproc, rfl⟩
    have hsamePid : entry.th32ProcessID = proc.pid := congrArg Prod.fst hpair
    have hsameParent : entry.th32ParentProcessID = proc.parentId := congrArg Prod.snd hpair
    refine ⟨entry.info, mem_map.mpr ⟨entry, hentry, rfl⟩, hsamePid.trans hpid, ?_⟩
    exact (hinfo entry).mpr ⟨hsameParent.trans hparent, hzero⟩

end Snapshot

def parentAndChild : ProcessHistory := ⟨[⟨0, 4, 0, none⟩, ⟨1, 8, 4, some 0⟩],
  [⟨1, 8, 4, some 0⟩, ⟨0, 4, 0, none⟩]⟩

theorem reachable_parentAndChild : Reachable parentAndChild := by
  have hfirst : Reachable ⟨[⟨0, 4, 0, none⟩], [⟨0, 4, 0, none⟩]⟩ :=
    ReflTransGen.single (HistoryStep.create none 4 (by simp) (by simp [ProcessHistory.start]))
  refine hfirst.tail (HistoryStep.create (some ⟨0, 4, 0, none⟩) 8 ?_ ?_)
  · intro proc hproc
    cases hproc
    exact mem_cons_self
  · intro proc hproc
    rw [mem_singleton.mp hproc]
    decide

def reusedId : ProcessHistory := ⟨[⟨0, 4, 0, none⟩, ⟨1, 8, 4, some 0⟩, ⟨2, 4, 0, none⟩],
  [⟨2, 4, 0, none⟩, ⟨1, 8, 4, some 0⟩]⟩

theorem reachable_reusedId : Reachable reusedId := by
  have hexit : Reachable ⟨[⟨0, 4, 0, none⟩, ⟨1, 8, 4, some 0⟩], [⟨1, 8, 4, some 0⟩]⟩ :=
    reachable_parentAndChild.tail (HistoryStep.exit ⟨0, 4, 0, none⟩)
  refine hexit.tail (HistoryStep.create none 4 (by simp) ?_)
  intro proc hproc
  rw [mem_singleton.mp hproc]
  decide

end WindowsErg.Process
