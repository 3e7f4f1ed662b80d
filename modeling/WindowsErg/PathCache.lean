import WindowsErg.ObservedMachine
import WindowsErg.PathNt

/-! The shared map of devices, `with_device_map` and `refresh_device_map` of `src/path/mod.rs`, with
threads that convert paths and refresh it side by side. -/
namespace WindowsErg.Path
open List TextScan GuardedRun ObservedMachine

/-- Paths for which `nt_path_to_dos_into` looks into the map. -/
def usesDeviceMap (input : Text) : Bool :=
  !isDosDrivePath input && (stripPrefix ntAliasPrefix input).isNone &&
    (stripPrefix systemRootPrefix input).isNone && (stripPrefix devicePrefix input).isSome

/-- `DEVICE_PATH_CACHE`, and the threads that have found it empty and wait for the write lock. -/
structure DeviceCache where
  map : Option DeviceMap
  waiting : List (ℕ × Text)

/-- What a thread does while it holds the lock; `built` is what `build_device_map` returns if it is
called then. -/
inductive CacheAction where
  | look (thread : ℕ) (input : Text)
  | fill (thread : ℕ) (input : Text) (built : DeviceMap)
  | refresh (built : DeviceMap)

inductive CacheEvent where
  | built (refreshed : Bool) (map : DeviceMap)
  | converted (thread : ℕ) (input : Text) (result : Except Panic (Bool × Text))

def convertWith (systemRoot : Option (List UInt16)) (thread : ℕ) (input : Text) (map : DeviceMap) :
    CacheEvent :=
  .converted thread input (ntPathToDosInto map systemRoot input []).outcome

def cacheStep (systemRoot : Option (List UInt16)) (s : DeviceCache) :
    CacheAction → Option (DeviceCache × List CacheEvent)
  | .look thread input =>
    if usesDeviceMap input then
      match s.map with
      | some map => some (s, [convertWith systemRoot thread input map])
      | none => some ({ s with waiting := (thread, input) :: s.waiting }, [])
    else some (s, [convertWith systemRoot thread input fun _ => none])
  | .fill thread input built =>
    if (thread, input) ∈ s.waiting then
      let waiting := s.waiting.erase (thread, input)
      match s.map with
      | some map => some (⟨some map, waiting⟩, [convertWith systemRoot thread input map])
      | none => some (⟨some built, waiting⟩,
          [.built false built, convertWith systemRoot thread input built])
    else none
  | .refresh built => some ({ s with map := some built }, [.built true built])

def latest (events : List CacheEvent) : Option DeviceMap :=
  events.foldl (fun
    | _, .built _ map => some map
    | found, .converted .. => found) none

/-- What an event tells about the events before it. -/
def CacheEvent.Follows (systemRoot : Option (List UInt16)) (before : List CacheEvent) :
    CacheEvent → Prop
  | .built refreshed _ => refreshed = false → latest before = none
  | .converted _ input result => ∃ map, (usesDeviceMap input = true → latest before = some map) ∧
      result = (ntPathToDosInto map systemRoot input []).outcome

theorem latest_built (events : List CacheEvent) (refreshed : Bool) (map : DeviceMap) :
    latest (events ++ [.built refreshed map]) = some map := by
  rw [latest, foldl_append]
  rfl

theorem latest_convertWith (events : List CacheEvent) (systemRoot : Option (List UInt16))
    (thread : ℕ) (input : Text) (map : DeviceMap) :
    latest (events ++ [convertWith systemRoot thread input map]) = latest events := by
  rw [latest, foldl_append]
  rfl

/-- Every event is as the ones before it demand, and the cache has the map that was built last. -/
structure CacheBooks (systemRoot : Option (List UInt16)) (s : DeviceCache)
    (events : List CacheEvent) : Prop where
  map : s.map = latest events
  follows : ∀ front event back, events = front ++ event :: back → event.Follows systemRoot front

section Books
variable {systemRoot : Option (List UInt16)} {s : DeviceCache} {events : List CacheEvent}

theorem CacheBooks.concat {s' : DeviceCache} {event : CacheEvent}
    (h : CacheBooks systemRoot s events) (hmap : s'.map = latest (events ++ [event]))
    (hevent : event.Follows systemRoot events) : CacheBooks systemRoot s' (events ++ [event]) := by
  refine ⟨hmap, fun front next back hsplit => ?_⟩
  rcases eq_nil_or_concat' back with rfl | ⟨rest, last, rfl⟩
  · obtain ⟨rfl, hlast⟩ := append_inj' hsplit rfl
    obtain ⟨rfl, -⟩ := cons.inj hlast
    exact hevent
  · rw [← cons_append, ← append_assoc] at hsplit
    exact h.follows front next rest (append_inj' hsplit rfl).1

theorem CacheBooks.converted (h : CacheBooks systemRoot s events) (thread : ℕ) {input : Text}
    {map : DeviceMap} (hmap : usesDeviceMap input = true → s.map = some map) (s' : DeviceCache)
    (hs' : s'.map = s.map) :
    CacheBooks systemRoot s' (events ++ [convertWith systemRoot thread input map]) :=
  h.concat ((hs'.trans h.map).trans (latest_convertWith events systemRoot thread input map).symm)
    ⟨map, fun huses => h.map.symm.trans (hmap huses), rfl⟩

theorem CacheBooks.step (h : CacheBooks systemRoot s events) {action : CacheAction}
    {next : DeviceCache × List CacheEvent} (hstep : cacheStep systemRoot s action = some next) :
    CacheBooks systemRoot next.1 (events ++ next.2) := by
  cases action with
  | look thread input =>
    rw [cacheStep] at hstep
    by_cases huses : usesDeviceMap input = true
    · rw [if_pos huses] at hstep
      cases hmap : s.map with
      | some map =>
        rw [hmap] at hstep
        cases hstep
        exact h.converted thread (fun _ => hmap) s rfl
      | none =>
        rw [hmap] at hstep
        cases hstep
        rw [append_nil]
        exact ⟨hmap.symm.trans h.map, h.follows⟩
    · rw [if_neg huses] at hstep
      cases hstep
      exact h.converted thread (fun hdevice => absurd hdevice huses) s rfl
  | fill thread input built =>
    obtain ⟨-, hstep⟩ := Option.ite_none_right_eq_some.mp hstep
    cases hmap : s.map with
    | some map =>
      rw [hmap] at hstep
      cases hstep
      exact h.converted thread (fun _ => hmap) _ hmap.symm
    | none =>
      rw [hmap] at hstep
      cases hstep
      -- the map is built before it is used
      have hbuilt : CacheBooks systemRoot ⟨some built, s.waiting.erase (thread, input)⟩
          (events ++ [.built false built]) :=
        h.concat (latest_built events false built).symm fun _ => h.map.symm.trans hmap
      rw [append_cons]
      exact hbuilt.converted thread (fun _ => rfl) _ rfl
  | refresh built =>
    cases hstep
    exact h.concat (latest_built events true built).symm nofun

end Books

/-- In every order of conversions and refreshes, each conversion is made with the map that was built
last before it, and a conversion builds one only if there was none. -/
theorem device_cache_follows (systemRoot : Option (List UInt16)) {actions : List CacheAction}
    {last : DeviceCache × List CacheEvent}
    (hrun : run (cacheStep systemRoot) ⟨none, []⟩ actions = some last) (front back : List CacheEvent)
    (event : CacheEvent) (hsplit : last.2 = front ++ event :: back) :
    event.Follows systemRoot front := by
  have hempty : CacheBooks systemRoot ⟨none, []⟩ [] :=
    ⟨rfl, fun front event back h => absurd h.symm (append_ne_nil_of_right_ne_nil _ (cons_ne_nil _ _))⟩
  have hbooks := run_invariant (cacheStep systemRoot) (CacheBooks systemRoot) actions
    (fun _ _ _ _ _ h hstep => h.step hstep) _ [] last hempty hrun
  exact hbooks.follows front event back hsplit

/-- Two threads find the cache empty; the second one converts with the map of the first. -/
theorem device_cache_follows_race :
    let first : DeviceMap := fun _ => some ⟨'C', by decide⟩
    let front := [.built false first, convertWith none 1 devicePrefix first]
    ∃ last, run (cacheStep none) ⟨none, []⟩ [.look 1 devicePrefix, .look 2 devicePrefix,
        .fill 1 devicePrefix first, .fill 2 devicePrefix fun _ => none] = some last ∧
      last.2 = front ++ [convertWith none 2 devicePrefix first] ∧
      (convertWith none 2 devicePrefix first).Follows none front := by
  intro first front
  obtain ⟨last, hrun, hevents⟩ : ∃ last, run (cacheStep none) ⟨none, []⟩ [.look 1 devicePrefix,
      .look 2 devicePrefix, .fill 1 devicePrefix first, .fill 2 devicePrefix fun _ => none] =
        some last ∧ last.2 = front ++ [convertWith none 2 devicePrefix first] := ⟨_, rfl, rfl⟩
  exact ⟨last, hrun, hevents, device_cache_follows none hrun front [] _ hevents⟩

end WindowsErg.Path
