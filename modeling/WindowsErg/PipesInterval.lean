import WindowsErg.PipesEnumerate

/-! Polling for a number of rounds, `poll_interval` of `src/pipes/enumerate.rs`, when listings
fail. -/
namespace WindowsErg.Pipes
open List SetPatch

variable {δ ε : Type}

structure Round (δ ε : Type) where
  listing : Except ε (List (NamedPipeInfo δ))
  currentOrder : HashOrder δ
  knownOrder : HashOrder δ

def Round.observation (r : Round δ ε) : Observation δ ε :=
  ⟨.poll, r.listing, r.currentOrder, r.knownOrder⟩

def Round.succeeds (r : Round δ ε) : Bool :=
  match r.listing with
  | .ok _ => true
  | .error _ => false

namespace NamedPipePoller

/-- The loop of `poll_interval`, with the snapshots pushed so far; there is one element for each
round that would be made. -/
def pollRounds (poller : NamedPipePoller δ) (snapshots : List (List (NamedPipeChange δ))) :
    List (Round δ ε) → NamedPipePoller δ × Except ε (List (List (NamedPipeChange δ)))
  | [] => (poller, .ok snapshots)
  | r :: rounds =>
    match poller.poll r.listing r.currentOrder r.knownOrder with
    | (poller', .error e) => (poller', .error e)
    | (poller', .ok changes) => poller'.pollRounds (snapshots ++ [changes]) rounds

def pollInterval (poller : NamedPipePoller δ) (rounds : List (Round δ ε)) :
    NamedPipePoller δ × Except ε (List (List (NamedPipeChange δ))) :=
  poller.pollRounds [] rounds

/-- The loop of `poll_interval_with_callback`: the baseline, what the callback is given in each
round, and the number of changes. -/
def pollRoundsWithCallback (poller : NamedPipePoller δ) (totalChanges : ℕ)
    (given : List (List (NamedPipeChange δ))) :
    List (Round δ ε) → NamedPipePoller δ × List (List (NamedPipeChange δ)) × Except ε ℕ
  | [] => (poller, given, .ok totalChanges)
  | r :: rounds =>
    match poller.poll r.listing r.currentOrder r.knownOrder with
    | (poller', .error e) => (poller', given, .error e)
    | (poller', .ok changes) =>
      poller'.pollRoundsWithCallback (totalChanges+changes.length) (given ++ [changes]) rounds

def pollAll (poller : NamedPipePoller δ) (rounds : List (Round δ ε)) : NamedPipePoller δ :=
  poller.run (rounds.map Round.observation)

def changesOfAll (poller : NamedPipePoller δ) (rounds : List (Round δ ε)) :
    List (NamedPipeChange δ) :=
  poller.changesOf (rounds.map Round.observation)

end NamedPipePoller

def completed (rounds : List (Round δ ε)) : List (Round δ ε) := rounds.takeWhile Round.succeeds

def returned : Except ε (List (List (NamedPipeChange δ))) → List (NamedPipeChange δ)
  | .ok snapshots => snapshots.flatten
  | .error _ => []

namespace NamedPipePoller
variable {poller : NamedPipePoller δ}

theorem changesOfAll_cons (r : Round δ ε) (rounds : List (Round δ ε))
    {pipes : List (NamedPipeInfo δ)} (hlisting : r.listing = .ok pipes) :
    poller.changesOfAll (r :: rounds) =
      sortChanges (unsortedChanges poller.knownPipes (snapshotMap pipes) r.currentOrder r.knownOrder) ++
        (⟨snapshotMap pipes⟩ : NamedPipePoller δ).changesOfAll rounds := by
  obtain ⟨listing, currentOrder, knownOrder⟩ := r
  cases hlisting
  rfl

theorem pollRounds_eq (poller : NamedPipePoller δ) (rounds : List (Round δ ε))
    (snapshots : List (List (NamedPipeChange δ))) :
    (poller.pollRounds snapshots rounds).1 = poller.pollAll (completed rounds) ∧
      returned (poller.pollRounds snapshots rounds).2 =
        if rounds.all Round.succeeds then snapshots.flatten ++ poller.changesOfAll rounds else [] := by
  induction rounds generalizing poller snapshots with
  | nil => exact ⟨rfl, (append_nil _).symm⟩
  | cons r rounds ih =>
    obtain ⟨listing, currentOrder, knownOrder⟩ := r
    cases listing with
    | error e => exact ⟨rfl, rfl⟩
    | ok pipes =>
      obtain ⟨hbaseline, hreturned⟩ := ih ⟨snapshotMap pipes⟩ (snapshots ++
        [sortChanges (unsortedChanges poller.knownPipes (snapshotMap pipes) currentOrder knownOrder)])
      refine ⟨hbaseline, hreturned.trans ?_⟩
      rw [changesOfAll_cons _ _ rfl, flatten_append, flatten_singleton, append_assoc]
      rfl

section
variable (h : UnderOwnName poller.knownPipes) (rounds : List (Round δ ε))
include h

theorem underOwnName_pollAll :
    UnderOwnName (poller.pollAll rounds).knownPipes :=
  underOwnName_run h _

theorem replay_changesOfAll :
    replay poller.names ((poller.changesOfAll rounds).map NamedPipeChange.step) =
      (poller.pollAll rounds).names := by
  apply replay_changesOf h
  intro o ho
  obtain ⟨r, -, rfl⟩ := mem_map.mp ho
  rfl

theorem changesOfAll_eq_nil_iff (hrounds : ∀ r ∈ rounds, r.succeeds = true) :
    poller.changesOfAll rounds = [] ↔ ∀ r ∈ rounds, ∀ pipes, r.listing = .ok pipes →
      snapshotNames pipes = poller.names := by
  induction rounds generalizing poller with
  | nil => exact iff_of_true rfl nofun
  | cons r rounds ih =>
    have hsucceeds := hrounds r mem_cons_self
    obtain ⟨listing, currentOrder, knownOrder⟩ := r
    cases listing with
    | error e => cases hsucceeds
    | ok pipes =>
      have hcurrent := underOwnName_snapshotMap pipes
      have hpatch := (patch_unsortedChanges h hcurrent currentOrder knownOrder).eq_nil_iff
      have hsorted : sortChanges (unsortedChanges poller.knownPipes (snapshotMap pipes) currentOrder
          knownOrder) = [] ↔ snapshotNames pipes = poller.names := by
        rw [← length_eq_zero_iff, sortChanges, length_insertionSort,
          length_eq_zero_iff, ← map_eq_nil_iff, hpatch, keys_snapshotMap]
        exact eq_comm
      rw [changesOfAll_cons _ _ rfl, append_eq_nil_iff, hsorted, forall_mem_cons]
      have hnext := @ih ⟨snapshotMap pipes⟩ hcurrent
        fun r hr => hrounds r (mem_cons_of_mem _ hr)
      constructor
      · rintro ⟨hsame, hmore⟩
        refine ⟨?_, fun r hr pipes' hlisting => ?_⟩
        · rintro _ ⟨⟩
          exact hsame
        · rw [hnext.mp hmore r hr pipes' hlisting, ← hsame]
          exact keys_snapshotMap pipes
      · rintro ⟨hfirst, hmore⟩
        have hsame := hfirst pipes rfl
        refine ⟨hsame, hnext.mpr fun r hr pipes' hlisting => ?_⟩
        rw [hmore r hr pipes' hlisting, ← hsame]
        exact (keys_snapshotMap pipes).symm

end

/-- Each change of a completed round is returned by the call or by later polls, and all that is
returned leads from the baseline before the call to every later one. -/
structure LosesNothing (poller : NamedPipePoller δ) (rounds : List (Round δ ε)) : Prop where
  contained : ∀ later : List (Round δ ε), ∀ change ∈ poller.changesOfAll (completed rounds),
    change ∈ returned (poller.pollInterval rounds).2 ++
      (poller.pollInterval rounds).1.changesOfAll later
  replays : ∀ later : List (Round δ ε),
    replay poller.names ((returned (poller.pollInterval rounds).2 ++
      (poller.pollInterval rounds).1.changesOfAll later).map NamedPipeChange.step) =
        ((poller.pollInterval rounds).1.pollAll later).names

theorem completed_eq_self {rounds : List (Round δ ε)} (h : rounds.all Round.succeeds = true) :
    completed rounds = rounds :=
  takeWhile_eq_self_iff.mpr (all_eq_true.mp h)

theorem replay_later (h : UnderOwnName poller.knownPipes) {rounds : List (Round δ ε)}
    {changes : List (NamedPipeChange δ)}
    (hchanges : replay poller.names (changes.map NamedPipeChange.step) =
      (poller.pollAll (completed rounds)).names) (later : List (Round δ ε)) :
    replay poller.names ((changes ++ (poller.pollAll (completed rounds)).changesOfAll later).map
      NamedPipeChange.step) = ((poller.pollAll (completed rounds)).pollAll later).names := by
  rw [map_append, replay_append, hchanges,
    replay_changesOfAll (underOwnName_pollAll h (completed rounds))]

theorem losesNothing_iff (h : UnderOwnName poller.knownPipes) (rounds : List (Round δ ε)) :
    poller.LosesNothing rounds ↔ rounds.all Round.succeeds = true ∨
      ∀ r ∈ completed rounds, ∀ pipes, r.listing = .ok pipes → snapshotNames pipes = poller.names := by
  have hcompleted (r : Round δ ε) (hr : r ∈ completed rounds) : r.succeeds = true :=
    mem_takeWhile_imp hr
  have hreplay := replay_changesOfAll h (completed rounds)
  obtain ⟨hbaseline, hreturned⟩ := pollRounds_eq poller rounds []
  rw [← pollInterval, flatten_nil, nil_append] at hreturned
  rw [← pollInterval] at hbaseline
  rw [← changesOfAll_eq_nil_iff h (completed rounds) hcompleted]
  by_cases hall : rounds.all Round.succeeds = true
  · have hsame := completed_eq_self hall
    rw [if_pos hall] at hreturned
    refine iff_of_true ⟨fun later change hchange => ?_, fun later => ?_⟩ (.inl hall)
    · rw [hsame] at hchange
      rw [hreturned]
      exact mem_append_left _ hchange
    · rw [hbaseline, hreturned]
      apply replay_later h
      rw [← hreplay, hsame]
  · rw [if_neg hall] at hreturned
    constructor
    · intro hloses
      -- nothing is returned, and there need not be a later poll
      refine .inr (eq_nil_iff_forall_not_mem.mpr fun change hchange => ?_)
      have hmem := hloses.contained [] change hchange
      rw [hreturned] at hmem
      cases hmem
    · rintro (hsome | hnil)
      · exact absurd hsome hall
      · refine ⟨fun later change hchange => ?_, fun later => ?_⟩
        · rw [hnil] at hchange
          cases hchange
        · rw [hbaseline, hreturned]
          rw [hnil] at hreplay
          exact replay_later h hreplay later

end NamedPipePoller

/-- After every history, a call of `poll_interval` loses nothing exactly if no listing fails, or no
round before the first that fails sees other names than the baseline has. -/
theorem poll_interval_loses_nothing_iff (history : List (Observation δ ε))
    (rounds : List (Round δ ε)) :
    (NamedPipePoller.new.run history).LosesNothing rounds ↔ rounds.all Round.succeeds = true ∨
      ∀ r ∈ completed rounds, ∀ pipes, r.listing = .ok pipes →
        snapshotNames pipes = (NamedPipePoller.new.run history).names :=
  NamedPipePoller.losesNothing_iff (NamedPipePoller.underOwnName_run underOwnName_empty history) rounds

theorem singlePipe_segment : pipeRoot ++ ['a'] ≠ pipeRoot := by
  intro h
  exact cons_ne_nil _ _ (append_right_eq_self.mp h)

def singlePipe : NamedPipeInfo Unit :=
  ⟨⟨pipeRoot ++ ['a'], prefix_append _ _, singlePipe_segment⟩, ()⟩

noncomputable def anyOrder : HashOrder Unit := Classical.choice inferInstance

noncomputable def pipeThenFailure : List (Round Unit Unit) :=
  [⟨.ok [singlePipe], anyOrder, anyOrder⟩, ⟨.error (), anyOrder, anyOrder⟩]

/-- The pipe is in the baseline, but no call has returned or will return that it appeared. -/
theorem poll_interval_loses_pipe :
    (NamedPipePoller.new.pollInterval pipeThenFailure).2 = .error () ∧
      (NamedPipePoller.new.pollInterval pipeThenFailure).1.names = {singlePipe.pipeName} ∧
      ¬ NamedPipePoller.new.LosesNothing pipeThenFailure := by
  refine ⟨rfl, keys_snapshotMap [singlePipe], fun hloses => ?_⟩
  obtain hall | hsame := (NamedPipePoller.losesNothing_iff underOwnName_empty pipeThenFailure).mp hloses
  · cases hall
  · have hnames := hsame ⟨.ok [singlePipe], anyOrder, anyOrder⟩ mem_cons_self [singlePipe] rfl
    have hmem : singlePipe.pipeName ∈ snapshotNames [singlePipe] := Finset.mem_singleton_self _
    rw [hnames] at hmem
    exact absurd hmem (Finset.notMem_empty _)

theorem NamedPipePoller.pollRoundsWithCallback_eq (poller : NamedPipePoller δ) (total : ℕ)
    (given : List (List (NamedPipeChange δ))) (rounds : List (Round δ ε)) :
    let run := poller.pollRoundsWithCallback total given rounds
    let plain := poller.pollRounds given rounds
    run.1 = plain.1 ∧ run.2.1.flatten = given.flatten ++ poller.changesOfAll (completed rounds) ∧
      (total = given.flatten.length →
        run.2.2 = plain.2.map fun snapshots => snapshots.flatten.length) ∧
      ∀ snapshots, plain.2 = .ok snapshots → run.2.1 = snapshots := by
  induction rounds generalizing poller total given with
  | nil =>
    refine ⟨rfl, (append_nil _).symm, fun htotal => congrArg Except.ok htotal, ?_⟩
    rintro _ ⟨⟩
    rfl
  | cons r rounds ih =>
    obtain ⟨listing, currentOrder, knownOrder⟩ := r
    cases listing with
    | error e => exact ⟨rfl, (append_nil _).symm, fun _ => rfl, nofun⟩
    | ok pipes =>
      let changes := sortChanges
        (unsortedChanges poller.knownPipes (snapshotMap pipes) currentOrder knownOrder)
      obtain ⟨hbaseline, hgiven, htotals, hsame⟩ :=
        ih ⟨snapshotMap pipes⟩ (total+changes.length) (given ++ [changes])
      refine ⟨hbaseline, hgiven.trans ?_, fun htotal => htotals ?_, hsame⟩
      · rw [flatten_append, flatten_singleton, append_assoc]
        rfl
      · rw [flatten_append, flatten_singleton, length_append, htotal]

/-- The callback is given what `poll_interval` would return, and no change is lost where a listing
fails: what it was given leads to the baseline that the call leaves. -/
theorem poll_callback_loses_nothing (history : List (Observation δ ε)) (rounds : List (Round δ ε)) :
    let poller : NamedPipePoller δ := NamedPipePoller.new.run history
    let run := poller.pollRoundsWithCallback 0 [] rounds
    let plain := poller.pollInterval rounds
    run.1 = plain.1 ∧
      replay poller.names (run.2.1.flatten.map NamedPipeChange.step) = run.1.names ∧
      run.2.2 = plain.2.map (fun snapshots => snapshots.flatten.length) ∧
      ∀ snapshots, plain.2 = .ok snapshots → run.2.1 = snapshots := by
  intro poller run plain
  have hnamed := NamedPipePoller.underOwnName_run (underOwnName_empty (δ := δ)) history
  obtain ⟨hbaseline, hgiven, htotal, hsame⟩ := poller.pollRoundsWithCallback_eq 0 [] rounds
  refine ⟨hbaseline, ?_, htotal rfl, hsame⟩
  rw [hbaseline, (poller.pollRounds_eq rounds []).1, hgiven]
  exact NamedPipePoller.replay_changesOfAll hnamed (completed rounds)

theorem NamedPipePoller.sortChanges_order {known current : PipeMap δ} (hknown : UnderOwnName known)
    (hcurrent : UnderOwnName current) (order₁ order₂ order₁' order₂' : HashOrder δ) :
    sortChanges (unsortedChanges known current order₁ order₂) =
      sortChanges (unsortedChanges known current order₁' order₂') := by
  have hentries (order order' : HashOrder δ) (map : PipeMap δ) :
      (order.entries map).Perm (order'.entries map) :=
    Multiset.coe_eq_coe.mp ((order.coe_entries map).trans (order'.coe_entries map).symm)
  have hunsorted : (unsortedChanges known current order₁ order₂).Perm
      (unsortedChanges known current order₁' order₂') :=
    (((hentries order₁ order₁' current).filter _).map _).append
      (((hentries order₂ order₂' known).filter _).map _)
  have hincreasing (order order' : HashOrder δ) :=
    pairwise_map.mp (reports_sortChanges hknown hcurrent order order').increasing
  apply Perm.eq_of_pairwise _ (hincreasing order₁ order₂) (hincreasing order₁' order₂')
  · exact (perm_insertionSort _ _).trans (hunsorted.trans (perm_insertionSort _ _).symm)
  · intro left right _ _ hlt hgt
    exact absurd hgt hlt.asymm

def Observation.Alike (o o' : Observation δ ε) : Prop := o.call = o'.call ∧ o.listing = o'.listing

theorem NamedPipePoller.observe_alike {poller : NamedPipePoller δ} (h : UnderOwnName poller.knownPipes)
    {o o' : Observation δ ε} (ho : o.Alike o') : poller.observe o = poller.observe o' := by
  obtain ⟨call, listing, currentOrder, knownOrder⟩ := o
  obtain ⟨call', listing', currentOrder', knownOrder'⟩ := o'
  obtain ⟨rfl, rfl⟩ := ho
  cases call <;> cases listing
  case poll.ok pipes =>
    have hsame := sortChanges_order h (underOwnName_snapshotMap pipes) currentOrder knownOrder
      currentOrder' knownOrder'
    simp only [observe, poll, hsame]
  all_goals rfl

/-- The order of the hash maps does not show: whatever it is at each call of a run, the baseline and
the reports are the same. -/
theorem poller_ignores_hash_order {history history' : List (Observation δ ε)}
    (h : Forall₂ Observation.Alike history history') :
    (NamedPipePoller.new.run history : NamedPipePoller δ) = NamedPipePoller.new.run history' ∧
      NamedPipePoller.new.changesOf history = NamedPipePoller.new.changesOf history' := by
  suffices ∀ poller : NamedPipePoller δ, UnderOwnName poller.knownPipes →
      poller.run history = poller.run history' ∧ poller.changesOf history = poller.changesOf history'
    from this _ underOwnName_empty
  induction h with
  | nil => exact fun _ _ => ⟨rfl, rfl⟩
  | @cons o o' _ _ ho _ ih =>
    intro poller hnamed
    have hnext := NamedPipePoller.underOwnName_observe hnamed o
    obtain ⟨hrun, hchanges⟩ := ih _ hnext
    have hsame := poller.observe_alike hnamed ho
    rw [hsame] at hrun hchanges
    refine ⟨?_, ?_⟩
    · rw [NamedPipePoller.run, NamedPipePoller.run, foldl_cons, foldl_cons, hsame]
      exact hrun
    · rw [NamedPipePoller.changesOf, NamedPipePoller.changesOf, hsame, hchanges]

noncomputable def reversedOrder : HashOrder Unit :=
  ⟨fun map => (anyOrder.entries map).reverse,
    fun map => (Multiset.coe_reverse _).trans (anyOrder.coe_entries map)⟩

def onePipePoll (order : HashOrder Unit) : Observation Unit Unit :=
  ⟨.poll, .ok [singlePipe], order, order⟩

/-- The poll of one pipe, with its map walked from either end. -/
theorem poller_ignores_hash_order_reversed :
    NamedPipePoller.new.changesOf [onePipePoll anyOrder] =
      NamedPipePoller.new.changesOf [onePipePoll reversedOrder] :=
  have halike : (onePipePoll anyOrder).Alike (onePipePoll reversedOrder) := ⟨rfl, rfl⟩
  (poller_ignores_hash_order (.cons halike .nil)).2

end WindowsErg.Pipes
