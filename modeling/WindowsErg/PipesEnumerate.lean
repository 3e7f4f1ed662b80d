import Mathlib.Data.Char
import Mathlib.Data.Finmap
import Mathlib.Data.List.Lex
import WindowsErg.KeyedSort
import WindowsErg.SetPatch
import WindowsErg.TextScan

/-! The poller of the pipe namespace, `src/pipes/enumerate.rs`. -/
namespace WindowsErg.Pipes
open List TextScan SetPatch

def pipeRoot : Text := "\\\\.\\pipe\\".toList

structure PipeName where
  asStr : Text
  starts : pipeRoot <+: asStr
  segment : asStr ≠ pipeRoot
  deriving DecidableEq

/-- An entry of a listing; `details` stands for its times, sizes and attributes. -/
structure NamedPipeInfo (δ : Type) where
  pipeName : PipeName
  details : δ

inductive NamedPipeChange (δ : Type) where
  | appeared (info : NamedPipeInfo δ)
  | removed (info : NamedPipeInfo δ)

variable {δ ε : Type}

def NamedPipeChange.pipeName : NamedPipeChange δ → PipeName
  | .appeared info | .removed info => info.pipeName

/-- Names are compared as texts; the bytes of UTF-8 are in the order of the characters. -/
def changeName (change : NamedPipeChange δ) : Text := change.pipeName.asStr

def NamedPipeChange.step : NamedPipeChange δ → Step PipeName
  | .appeared info => .add info.pipeName
  | .removed info => .drop info.pipeName

theorem key_step (change : NamedPipeChange δ) : change.step.key = change.pipeName := by
  cases change <;> rfl

abbrev PipeMap (δ : Type) := Finmap fun _ : PipeName => NamedPipeInfo δ

abbrev PipeEntry (δ : Type) := Sigma fun _ : PipeName => NamedPipeInfo δ

/-- The order in which a hash map is walked: some order, which depends on its hash keys. -/
structure HashOrder (δ : Type) where
  entries : PipeMap δ → List (PipeEntry δ)
  coe_entries : ∀ map, (entries map : Multiset (PipeEntry δ)) = map.entries

instance : Nonempty (HashOrder δ) :=
  ⟨⟨fun map => map.entries.toList, fun map => map.entries.coe_toList⟩⟩

namespace HashOrder
variable (order : HashOrder δ) (map : PipeMap δ)

theorem nodup_names : ((order.entries map).map Sigma.fst).Nodup := by
  have hkeys := map.nodupKeys
  rw [← order.coe_entries map] at hkeys
  exact Multiset.coe_nodupKeys.mp hkeys

theorem mem_names (name : PipeName) : name ∈ (order.entries map).map Sigma.fst ↔ name ∈ map.keys := by
  rw [Finmap.mem_keys, Finmap.mem_def, ← order.coe_entries map, Multiset.coe_keys]
  rfl

end HashOrder

def UnderOwnName (map : PipeMap δ) : Prop :=
  ∀ name info, map.lookup name = some info → info.pipeName = name

theorem HashOrder.name_of_mem (order : HashOrder δ) {map : PipeMap δ} (h : UnderOwnName map)
    {entry : PipeEntry δ} (he : entry ∈ order.entries map) : entry.2.pipeName = entry.1 := by
  have hmem : entry ∈ map.entries := by
    rw [← order.coe_entries map]
    exact he
  exact h entry.1 entry.2 (Finmap.mem_lookup_iff.mpr hmem)

/-- The loop that fills the map of a snapshot: the last entry of a name stays. -/
def snapshotMap (pipes : List (NamedPipeInfo δ)) : PipeMap δ :=
  pipes.foldl (fun map pipe => map.insert pipe.pipeName pipe) ∅

def snapshotNames (pipes : List (NamedPipeInfo δ)) : Finset PipeName :=
  (pipes.map NamedPipeInfo.pipeName).toFinset

theorem UnderOwnName.insert {map : PipeMap δ} (h : UnderOwnName map) (pipe : NamedPipeInfo δ) :
    UnderOwnName (map.insert pipe.pipeName pipe) := by
  intro name info hlookup
  by_cases hname : name = pipe.pipeName
  · subst hname
    rw [Finmap.lookup_insert, Option.some.injEq] at hlookup
    rw [hlookup]
  · rw [Finmap.lookup_insert_of_ne _ hname] at hlookup
    exact h name info hlookup

section
variable (pipes : List (NamedPipeInfo δ))

theorem underOwnName_foldl_insert (map : PipeMap δ) (h : UnderOwnName map) :
    UnderOwnName (pipes.foldl (fun map pipe => map.insert pipe.pipeName pipe) map) := by
  induction pipes generalizing map with
  | nil => exact h
  | cons pipe pipes ih => exact ih _ (h.insert pipe)

theorem underOwnName_empty : UnderOwnName (∅ : PipeMap δ) := by
  intro name info hlookup
  rw [Finmap.lookup_empty] at hlookup
  cases hlookup

theorem underOwnName_snapshotMap : UnderOwnName (snapshotMap pipes) :=
  underOwnName_foldl_insert pipes ∅ underOwnName_empty

theorem mem_foldl_insert (map : PipeMap δ) (name : PipeName) :
    name ∈ pipes.foldl (fun map pipe => map.insert pipe.pipeName pipe) map ↔
      name ∈ map ∨ name ∈ pipes.map NamedPipeInfo.pipeName := by
  induction pipes generalizing map with
  | nil => simp
  | cons pipe pipes ih =>
    rw [foldl_cons, ih, Finmap.mem_insert, map_cons, mem_cons, or_comm (a := name = _), or_assoc]

theorem keys_snapshotMap :
    (snapshotMap pipes).keys = snapshotNames pipes := by
  ext name
  rw [Finmap.mem_keys, snapshotMap, mem_foldl_insert, snapshotNames, mem_toFinset]
  exact or_iff_right Finmap.notMem_empty

end

structure NamedPipePoller (δ : Type) where
  knownPipes : PipeMap δ

namespace NamedPipePoller

def new : NamedPipePoller δ := ⟨∅⟩

def names (poller : NamedPipePoller δ) : Finset PipeName := poller.knownPipes.keys

def unsortedChanges (known current : PipeMap δ) (currentOrder knownOrder : HashOrder δ) :
    List (NamedPipeChange δ) :=
  ((currentOrder.entries current).filter fun entry => entry.1 ∉ known).map
      (fun entry => .appeared entry.2) ++
    ((knownOrder.entries known).filter fun entry => entry.1 ∉ current).map
      (fun entry => .removed entry.2)

def sortChanges (changes : List (NamedPipeChange δ)) : List (NamedPipeChange δ) :=
  changes.insertionSort fun left right => changeName left ≤ changeName right

def poll (poller : NamedPipePoller δ) (listing : Except ε (List (NamedPipeInfo δ)))
    (currentOrder knownOrder : HashOrder δ) :
    NamedPipePoller δ × Except ε (List (NamedPipeChange δ)) :=
  match listing with
  | .error e => (poller, .error e)
  | .ok currentPipes =>
    let currentMap := snapshotMap currentPipes
    (⟨currentMap⟩, .ok (sortChanges
      (unsortedChanges poller.knownPipes currentMap currentOrder knownOrder)))

def seed (poller : NamedPipePoller δ) (listing : Except ε (List (NamedPipeInfo δ))) :
    NamedPipePoller δ × Except ε ℕ :=
  match listing with
  | .error e => (poller, .error e)
  | .ok currentPipes => (⟨snapshotMap currentPipes⟩, .ok (snapshotMap currentPipes).keys.card)

end NamedPipePoller

theorem steps_pass (order : HashOrder δ) {walked : PipeMap δ} (h : UnderOwnName walked)
    (other : PipeMap δ) (make : NamedPipeInfo δ → NamedPipeChange δ) (step : PipeName → Step PipeName)
    (hmake : ∀ info, (make info).step = step info.pipeName) :
    (((order.entries walked).filter fun entry => entry.1 ∉ other).map fun entry =>
      make entry.2).map NamedPipeChange.step =
    (((order.entries walked).map Sigma.fst).filter fun name => name ∉ other.keys).map step := by
  rw [filter_map, map_map, map_map]
  simp only [Function.comp_def, Finmap.mem_keys, hmake]
  apply map_congr_left
  intro entry he
  exact congrArg step (order.name_of_mem h (mem_filter.mp he).1)

theorem patch_unsortedChanges {known current : PipeMap δ} (hknown : UnderOwnName known)
    (hcurrent : UnderOwnName current) (currentOrder knownOrder : HashOrder δ) :
    Patch known.keys current.keys
      ((NamedPipePoller.unsortedChanges known current currentOrder knownOrder).map
        NamedPipeChange.step) := by
  rw [NamedPipePoller.unsortedChanges, map_append,
    steps_pass currentOrder hcurrent known .appeared .add fun _ => rfl,
    steps_pass knownOrder hknown current .removed .drop fun _ => rfl]
  exact patch_two_passes (knownOrder.mem_names known) (currentOrder.mem_names current)
    (knownOrder.nodup_names known) (currentOrder.nodup_names current)

structure Reports (before after : Finset PipeName) (changes : List (NamedPipeChange δ)) : Prop where
  replays : replay before (changes.map NamedPipeChange.step) = after
  increasing : (changes.map changeName).Pairwise (· < ·)

theorem pairwise_lt_of_nodup (changes : List (NamedPipeChange δ))
    (hsorted : changes.Pairwise fun left right => changeName left ≤ changeName right)
    (hnodup : ((changes.map NamedPipeChange.step).map Step.key).Nodup) :
    (changes.map changeName).Pairwise (· < ·) := by
  rw [map_map, nodup_iff_pairwise_ne, pairwise_map] at hnodup
  rw [pairwise_map]
  refine (hsorted.and hnodup).imp ?_
  intro left right hboth
  refine lt_of_le_of_ne hboth.1 fun heq => hboth.2 ?_
  -- a name is its text
  have hname : left.pipeName = right.pipeName := by
    cases hl : left.pipeName
    cases hr : right.pipeName
    simp only [changeName, hl, hr] at heq
    subst heq
    rfl
  rw [Function.comp_apply, Function.comp_apply, key_step, key_step, hname]

theorem reports_sortChanges {known current : PipeMap δ} (hknown : UnderOwnName known)
    (hcurrent : UnderOwnName current) (currentOrder knownOrder : HashOrder δ) :
    Reports known.keys current.keys (NamedPipePoller.sortChanges
      (NamedPipePoller.unsortedChanges known current currentOrder knownOrder)) := by
  have hperm := (KeyedSort.stablePerm_insertionSort changeName
    (NamedPipePoller.unsortedChanges known current currentOrder knownOrder)).perm
  have hpatch := (patch_unsortedChanges hknown hcurrent currentOrder knownOrder).perm
    (hperm.map NamedPipeChange.step)
  refine ⟨hpatch.replay_eq, pairwise_lt_of_nodup _ ?_ hpatch.nodup⟩
  exact pairwise_insertionSort (fun left right => changeName left ≤ changeName right) _

inductive PollerCall where
  | seed
  | poll

structure Observation (δ ε : Type) where
  call : PollerCall
  listing : Except ε (List (NamedPipeInfo δ))
  currentOrder : HashOrder δ
  knownOrder : HashOrder δ

inductive Answer (δ ε : Type) where
  | seeded (count : Except ε ℕ)
  | polled (changes : Except ε (List (NamedPipeChange δ)))

namespace NamedPipePoller

def observe (poller : NamedPipePoller δ) (o : Observation δ ε) : NamedPipePoller δ × Answer δ ε :=
  match o.call with
  | .seed =>
    let (poller', count) := poller.seed o.listing
    (poller', .seeded count)
  | .poll =>
    let (poller', changes) := poller.poll o.listing o.currentOrder o.knownOrder
    (poller', .polled changes)

def run (poller : NamedPipePoller δ) (history : List (Observation δ ε)) : NamedPipePoller δ :=
  history.foldl (fun poller o => (poller.observe o).1) poller

def changesOf (poller : NamedPipePoller δ) : List (Observation δ ε) → List (NamedPipeChange δ)
  | [] => []
  | o :: history =>
    (match (poller.observe o).2 with
      | .polled (.ok changes) => changes
      | _ => []) ++ (poller.observe o).1.changesOf history

section
variable {poller : NamedPipePoller δ} (h : UnderOwnName poller.knownPipes)
include h

theorem underOwnName_observe
    (o : Observation δ ε) : UnderOwnName (poller.observe o).1.knownPipes := by
  obtain ⟨call, listing, currentOrder, knownOrder⟩ := o
  cases call <;> cases listing
  · exact h
  · exact underOwnName_snapshotMap _
  · exact h
  · exact underOwnName_snapshotMap _

theorem underOwnName_run
    (history : List (Observation δ ε)) : UnderOwnName (poller.run history).knownPipes := by
  induction history generalizing poller with
  | nil => exact h
  | cons o history ih => exact ih (underOwnName_observe h o)

theorem replay_changesOf
    (history : List (Observation δ ε)) (hpolls : ∀ o ∈ history, o.call = .poll) :
    replay poller.names ((poller.changesOf history).map NamedPipeChange.step) =
      (poller.run history).names := by
  induction history generalizing poller with
  | nil => rfl
  | cons o history ih =>
    have hrest := ih (underOwnName_observe h o) fun o' ho' => hpolls o' (mem_cons_of_mem _ ho')
    rw [changesOf, map_append, replay_append]
    have hcall := hpolls o mem_cons_self
    obtain ⟨call, listing, currentOrder, knownOrder⟩ := o
    cases hcall
    cases listing with
    | error e => exact hrest
    | ok pipes =>
      have hreports := reports_sortChanges h (underOwnName_snapshotMap pipes) currentOrder knownOrder
      exact (congrArg (replay · _) hreports.replays).trans hrest

end

end NamedPipePoller

/-- After every history, a call whose listing fails changes nothing, and one whose listing
succeeds makes it the baseline and reports the changes. -/
theorem poller_replays_snapshots (history : List (Observation δ ε)) (o : Observation δ ε) :
    let poller := NamedPipePoller.new.run history
    let after := (poller.observe o).1
    let answer := (poller.observe o).2
    match o.call, o.listing with
    | .seed, .error e => after = poller ∧ answer = .seeded (.error e)
    | .poll, .error e => after = poller ∧ answer = .polled (.error e)
    | .seed, .ok pipes =>
      after.names = snapshotNames pipes ∧ answer = .seeded (.ok (snapshotNames pipes).card)
    | .poll, .ok pipes =>
      after.names = snapshotNames pipes ∧ ∃ changes, answer = .polled (.ok changes) ∧
        Reports poller.names (snapshotNames pipes) changes := by
  have hnamed : UnderOwnName (NamedPipePoller.new.run history : NamedPipePoller δ).knownPipes :=
    NamedPipePoller.underOwnName_run underOwnName_empty history
  obtain ⟨call, listing, currentOrder, knownOrder⟩ := o
  cases call <;> cases listing
  case seed.error e => exact ⟨rfl, rfl⟩
  case poll.error e => exact ⟨rfl, rfl⟩
  case seed.ok pipes =>
    refine ⟨keys_snapshotMap pipes, ?_⟩
    rw [← keys_snapshotMap]
    rfl
  case poll.ok pipes =>
    refine ⟨keys_snapshotMap pipes, _, rfl, ?_⟩
    rw [← keys_snapshotMap]
    exact reports_sortChanges hnamed (underOwnName_snapshotMap pipes) currentOrder knownOrder

end WindowsErg.Pipes
