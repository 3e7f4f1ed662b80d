import Mathlib.Data.List.FinRange
import WindowsErg.DelimitedItems
import WindowsErg.PathNt

/-! The map from devices to drives, `build_device_map` of `src/path/mod.rs`. -/
namespace WindowsErg.Path
open Option List TextScan UnicodeText GuardedRun Guarded DelimitedItems

theorem isAlpha_upper (i : Fin 26) : (Char.ofNat (65+i)).isAlpha = true := by
  rw [isAlpha_iff, toNat_charOfNat (by omega)]
  omega

def driveAt (i : Fin 26) : Drive := ⟨Char.ofNat (65+i), isAlpha_upper i⟩

/-- `QueryDosDeviceW` for a name with its NUL and a buffer: the number of units that it reports and
the buffer afterwards. -/
abbrev Query := List UInt16 → List UInt16 → ℕ × List UInt16

def toUtf16Nul (s : Text) : List UInt16 := encodeUtf16 s ++ [0]

/-- `while device_path.last() == Some(&0) { device_path.pop(); }`. -/
def popNuls (units : List UInt16) : List UInt16 := units.rdropWhile (· == 0)

def buildLoop (query : Query) : List (Fin 26) → List UInt16 → DeviceMap → Guarded DeviceMap
  | [], _, map => pure map
  | i :: drives, buffer, map =>
    let answer := query (toUtf16Nul [(driveAt i).letter, ':']) buffer
    if answer.1 = 0 then buildLoop query drives answer.2 map
    else do
      let devicePath ← sliceTo answer.2 answer.1
      buildLoop query drives answer.2
        (map.insert (decodeUtf16Lossy (popNuls devicePath)) (driveAt i))

def bufferLength : ℕ := 32768

def buildDeviceMap (query : Query) : Guarded DeviceMap :=
  buildLoop query (List.finRange 26) (List.replicate bufferLength 0) fun _ => none

structure Targets where
  current : List UInt16
  earlier : List (List UInt16)
  proper : ∀ target ∈ current :: earlier, target ≠ [] ∧ 0 ∉ target

def Targets.answer (targets : Targets) : List UInt16 :=
  terminated 0 (targets.current :: targets.earlier) ++ [0]

/-- The system writes the targets of each drive to the front of the buffer and reports their
length; for a drive without targets it reports zero. -/
structure Answers (query : Query) (targets : Fin 26 → Option Targets) : Prop where
  known : ∀ i t, targets i = some t → ∀ buffer : List UInt16, buffer.length = bufferLength →
    t.answer.length ≤ bufferLength ∧ query (toUtf16Nul [(driveAt i).letter, ':']) buffer =
      (t.answer.length, t.answer ++ buffer.drop t.answer.length)
  unknown : ∀ i, targets i = none → ∀ buffer : List UInt16, buffer.length = bufferLength →
    (query (toUtf16Nul [(driveAt i).letter, ':']) buffer).1 = 0 ∧
      (query (toUtf16Nul [(driveAt i).letter, ':']) buffer).2.length = bufferLength

/-- The text under which a drive with these targets is stored: all of them with NULs between. -/
def Targets.key (targets : Targets) : Text :=
  decodeUtf16Lossy (List.intercalate [0] (targets.current :: targets.earlier))

theorem popNuls_answer (targets : Targets) :
    popNuls targets.answer = List.intercalate [0] (targets.current :: targets.earlier) := by
  have hne : targets.current :: targets.earlier ≠ [] := cons_ne_nil _ _
  obtain ⟨front, last, hall, hlast⟩ := exists_intercalate_concat hne targets.proper
  rw [Targets.answer, terminated_eq_intercalate 0 hne, popNuls, rdropWhile_concat_pos _ _ _ rfl,
    rdropWhile_concat_pos _ _ _ rfl, hall, rdropWhile_concat_neg _ _ _ (by simpa using hlast)]

section Loop
variable {query : Query} {targets : Fin 26 → Option Targets}

def storeDrive (targets : Fin 26 → Option Targets) (map : DeviceMap) (i : Fin 26) : DeviceMap :=
  (targets i).elim map fun t => map.insert t.key (driveAt i)

theorem buildLoop_eq (h : Answers query targets) (drives : List (Fin 26)) (buffer : List UInt16)
    (hbuffer : buffer.length = bufferLength) (map : DeviceMap) :
    buildLoop query drives buffer map = pure (drives.foldl (storeDrive targets) map) := by
  induction drives generalizing buffer map with
  | nil => rfl
  | cons i drives ih =>
    rw [buildLoop, foldl_cons, storeDrive]
    cases hi : targets i with
    | none =>
      obtain ⟨hzero, hlength⟩ := h.unknown i hi buffer hbuffer
      rw [if_pos hzero]
      exact ih _ hlength map
    | some t =>
      obtain ⟨hfits, hquery⟩ := h.known i t hi buffer hbuffer
      have hlength : (t.answer ++ buffer.drop t.answer.length).length = bufferLength := by
        rw [length_append, length_drop]
        omega
      have hpos : t.answer.length ≠ 0 := by
        rw [Targets.answer, length_append, length_singleton]
        omega
      rw [hquery, if_neg hpos]
      dsimp only
      rw [sliceTo_eq (by omega), pure_bind, take_left, popNuls_answer]
      exact ih _ hlength _

theorem foldl_storeDrive (drives : List (Fin 26)) (map : DeviceMap) (key : Text) :
    drives.foldl (storeDrive targets) map key =
      ((drives.reverse.find? fun i => (targets i).map Targets.key = some key).map driveAt).or
        (map key) := by
  induction drives generalizing map with
  | nil => rfl
  | cons i drives ih =>
    rw [foldl_cons, ih, reverse_cons, List.find?_append, List.find?_singleton, storeDrive]
    cases hlater : drives.reverse.find? fun i => (targets i).map Targets.key = some key with
    | some j => rfl
    | none =>
      rw [map_none, none_or, none_or]
      cases hi : targets i with
      | none => simp
      | some t =>
        by_cases hkey : key = t.key
        · subst hkey
          simp [DeviceMap.insert]
        · simp [DeviceMap.insert, Function.update_of_ne hkey, Ne.symm hkey]

theorem find?_eq_some_iff_greatest {α : Type} [LinearOrder α] {p : α → Bool} {xs : List α}
    (hxs : xs.Pairwise (· > ·)) (a : α) :
    xs.find? p = some a ↔ a ∈ xs ∧ p a = true ∧ ∀ b ∈ xs, a < b → p b = false := by
  induction xs with
  | nil => simp
  | cons x xs ih =>
    obtain ⟨hx, hxs⟩ := pairwise_cons.mp hxs
    rw [List.find?_cons]
    cases hp : p x with
    | true =>
      constructor
      · rintro ⟨⟩
        refine ⟨mem_cons_self, hp, fun b hb hlt => ?_⟩
        obtain rfl | hb := mem_cons.mp hb
        · exact absurd hlt (lt_irrefl _)
        · exact absurd hlt (lt_asymm (hx b hb))
      · rintro ⟨ha, -, hgreatest⟩
        obtain rfl | ha := mem_cons.mp ha
        · rfl
        · have hx' := hgreatest x mem_cons_self (hx a ha)
          rw [hp] at hx'
          cases hx'
    | false =>
      dsimp only
      rw [ih hxs]
      constructor
      · rintro ⟨ha, hpa, hgreatest⟩
        refine ⟨mem_cons_of_mem _ ha, hpa, fun b hb hlt => ?_⟩
        obtain rfl | hb := mem_cons.mp hb
        · exact hp
        · exact hgreatest b hb hlt
      · rintro ⟨ha, hpa, hgreatest⟩
        obtain rfl | ha := mem_cons.mp ha
        · cases hp.symm.trans hpa
        · exact ⟨ha, hpa, fun b hb => hgreatest b (mem_cons_of_mem _ hb)⟩

theorem driveAt_injective : Function.Injective driveAt := by
  intro i j h
  have hletter := congrArg (fun drive => drive.letter.toNat) h
  simp only [driveAt] at hletter
  rw [toNat_charOfNat (by omega), toNat_charOfNat (by omega)] at hletter
  exact Fin.ext (by omega)

def storedMap (targets : Fin 26 → Option Targets) : DeviceMap :=
  (List.finRange 26).foldl (storeDrive targets) fun _ => none

theorem buildDeviceMap_eq (h : Answers query targets) :
    buildDeviceMap query = pure (storedMap targets) :=
  buildLoop_eq h _ _ length_replicate _

theorem storedMap_eq_some_iff (key : Text) (i : Fin 26) :
    storedMap targets key = some (driveAt i) ↔ (targets i).map Targets.key = some key ∧
      ∀ j, i < j → (targets j).map Targets.key ≠ some key := by
  have hdecreasing : (List.finRange 26).reverse.Pairwise (· > ·) :=
    pairwise_reverse.mpr (pairwise_lt_finRange 26)
  rw [storedMap, foldl_storeDrive, or_none, map_eq_some_iff]
  constructor
  · rintro ⟨j, hj, hsame⟩
    obtain rfl := driveAt_injective hsame
    obtain ⟨-, hkey, hlater⟩ := (find?_eq_some_iff_greatest hdecreasing j).mp hj
    refine ⟨of_decide_eq_true hkey, fun k hk => ?_⟩
    exact of_decide_eq_false (hlater k (mem_reverse.mpr (mem_finRange k)) hk)
  · rintro ⟨hkey, hlater⟩
    refine ⟨i, (find?_eq_some_iff_greatest hdecreasing i).mpr ⟨?_, decide_eq_true hkey, ?_⟩, rfl⟩
    · exact mem_reverse.mpr (mem_finRange i)
    · exact fun k _ hk => decide_eq_false (hlater k hk)

def KeyedByCurrent (map : DeviceMap) (i : Fin 26) (t : Targets) : Prop :=
  ∃ key, encodeUtf16 key = t.current ∧ ∀ key', map key' = some (driveAt i) ↔ key' = key

theorem encodeUtf16_key_eq_iff (t : Targets) :
    encodeUtf16 t.key = t.current ↔ t.earlier = [] ∧ WellFormed t.current := by
  have hlength := length_encodeUtf16_decodeUtf16Lossy
    (List.intercalate [0] (t.current :: t.earlier))
  constructor
  · intro h
    have hnone : t.earlier = [] := by
      by_contra hsome
      obtain ⟨second, rest, hrest⟩ := exists_cons_of_ne_nil hsome
      change (encodeUtf16 t.key).length = _ at hlength
      rw [h, hrest, intercalate_cons_cons, length_append, length_append,
        length_singleton] at hlength
      omega
    rw [Targets.key, hnone, intercalate_singleton] at h
    exact ⟨hnone, h⟩
  · rintro ⟨hnone, hwell⟩
    rw [Targets.key, hnone, intercalate_singleton]
    exact hwell

theorem keyedByCurrent_iff {i : Fin 26} {t : Targets} (ht : targets i = some t) :
    KeyedByCurrent (storedMap targets) i t ↔ t.earlier = [] ∧ WellFormed t.current ∧
      ∀ j, i < j → (targets j).map Targets.key ≠ some t.key := by
  have hstored (key : Text) : storedMap targets key = some (driveAt i) ↔ t.key = key ∧
      ∀ j, i < j → (targets j).map Targets.key ≠ some key := by
    rw [storedMap_eq_some_iff, ht, map_some, Option.some.injEq]
  rw [← and_assoc, ← encodeUtf16_key_eq_iff]
  constructor
  · rintro ⟨key, hkey, hmap⟩
    obtain ⟨rfl, hlater⟩ := (hstored key).mp ((hmap key).mpr rfl)
    exact ⟨hkey, hlater⟩
  · rintro ⟨hkey, hlater⟩
    refine ⟨t.key, hkey, fun key' => (hstored key').trans ⟨fun h => h.1.symm, ?_⟩⟩
    rintro rfl
    exact ⟨rfl, hlater⟩

end Loop

/-- The map has the current target of a drive as its only key exactly if the system knows no
earlier target, the target is text, and no later drive is stored under it. -/
theorem device_map_keyed_by_current_target_iff {query : Query} {targets : Fin 26 → Option Targets}
    (h : Answers query targets) {i : Fin 26} {t : Targets} (ht : targets i = some t) :
    (∃ map, (buildDeviceMap query).outcome = .ok map ∧ KeyedByCurrent map i t) ↔
      t.earlier = [] ∧ WellFormed t.current ∧
        ∀ j, i < j → (targets j).map Targets.key ≠ some t.key := by
  rw [buildDeviceMap_eq h, outcome_pure, ← keyedByCurrent_iff ht]
  simp only [Except.ok.injEq, exists_eq_left']

def queryOf (targets : Fin 26 → Option Targets) : Query := fun name buffer =>
  (((List.finRange 26).find? fun i => toUtf16Nul [(driveAt i).letter, ':'] = name).bind targets).elim
    (0, buffer) fun t => (t.answer.length, t.answer ++ buffer.drop t.answer.length)

theorem answers_queryOf (targets : Fin 26 → Option Targets)
    (hfits : ∀ i t, targets i = some t → t.answer.length ≤ bufferLength) :
    Answers (queryOf targets) targets := by
  -- different drives have different names
  have hname (i : Fin 26) : ((List.finRange 26).find? fun j =>
      toUtf16Nul [(driveAt j).letter, ':'] = toUtf16Nul [(driveAt i).letter, ':']) = some i := by
    have hsome : ((List.finRange 26).find? fun j =>
        toUtf16Nul [(driveAt j).letter, ':'] = toUtf16Nul [(driveAt i).letter, ':']).isSome := by
      rw [List.find?_isSome]
      exact ⟨i, mem_finRange i, decide_eq_true rfl⟩
    obtain ⟨j, hj⟩ := isSome_iff_exists.mp hsome
    have hnames := List.find?_some hj
    rw [decide_eq_true_eq] at hnames
    have hsame := encodeUtf16_injective (append_cancel_right hnames)
    have hletter : (driveAt j).letter = (driveAt i).letter := (List.cons.inj hsame).1
    rw [hj, driveAt_injective (Drive.ext hletter)]
  refine ⟨fun i t ht buffer hbuffer => ⟨hfits i t ht, ?_⟩, fun i hi buffer hbuffer => ?_⟩
  · rw [queryOf, hname, bind_some, ht]
    rfl
  · rw [queryOf, hname, bind_some, hi]
    exact ⟨rfl, hbuffer⟩

def onlyDrive (i : Fin 26) (t : Targets) : Fin 26 → Option Targets :=
  fun j => if j = i then some t else none

theorem answers_onlyDrive (i : Fin 26) {t : Targets} (hfits : t.answer.length ≤ bufferLength) :
    Answers (queryOf (onlyDrive i t)) (onlyDrive i t) := by
  refine answers_queryOf _ fun j t' ht' => ?_
  obtain ⟨-, hsame⟩ := ite_none_right_eq_some.mp ht'
  rwa [← Option.some.inj hsame]

theorem proper_one : ∀ target ∈ [([0x61] : List UInt16)], target ≠ [] ∧ 0 ∉ target := by decide

theorem proper_two :
    ∀ target ∈ [([0x61] : List UInt16), [0x62]], target ≠ [] ∧ 0 ∉ target := by decide

def oneTarget : Targets := ⟨[0x61], [], proper_one⟩

def remapped : Targets := ⟨[0x61], [[0x62]], proper_two⟩

theorem device_map_keyed_by_one_target :
    ∃ map, (buildDeviceMap (queryOf (onlyDrive 2 oneTarget))).outcome = .ok map ∧
      KeyedByCurrent map 2 oneTarget := by
  refine (device_map_keyed_by_current_target_iff (answers_onlyDrive 2 (by decide)) rfl).mpr
    ⟨rfl, by decide, fun j hj => ?_⟩
  rw [onlyDrive, if_neg (ne_of_gt hj)]
  exact nofun

/-- The key of a drive that was mapped before has the old target in it. -/
theorem device_map_keyed_by_history :
    (buildDeviceMap (queryOf (onlyDrive 2 remapped))).outcome = .ok (storedMap (onlyDrive 2 remapped)) ∧
      storedMap (onlyDrive 2 remapped) ['a', Char.ofNat 0, 'b'] = some (driveAt 2) ∧
      ¬ KeyedByCurrent (storedMap (onlyDrive 2 remapped)) 2 remapped := by
  have hanswers : Answers (queryOf (onlyDrive 2 remapped)) (onlyDrive 2 remapped) :=
    answers_onlyDrive 2 (by decide)
  refine ⟨?_, ?_, fun hkeyed => ?_⟩
  · rw [buildDeviceMap_eq hanswers, outcome_pure]
  · rw [storedMap_eq_some_iff]
    refine ⟨rfl, fun j hj => ?_⟩
    rw [onlyDrive, if_neg (ne_of_gt hj)]
    exact nofun
  · have hnone := ((keyedByCurrent_iff rfl).mp hkeyed).1
    cases hnone

structure Target where
  text : Text
  nonempty : text ≠ []
  noNul : Char.ofNat 0 ∉ text

theorem Target.proper (target : Target) :
    ∀ units ∈ [encodeUtf16 target.text], units ≠ [] ∧ 0 ∉ units := by
  intro units hunits
  obtain rfl := mem_singleton.mp hunits
  refine ⟨fun hnil => ?_, fun hzero => ?_⟩
  · have htext := decodeUtf16Lossy_encodeUtf16 target.text
    rw [hnil] at htext
    exact target.nonempty htext.symm
  · exact ne_zero_of_mem_encodeUtf16 target.text target.noNul 0 hzero rfl

def Target.targets (target : Target) : Targets := ⟨encodeUtf16 target.text, [], target.proper⟩

theorem Target.key_targets (target : Target) : target.targets.key = target.text := by
  rw [Targets.key]
  exact (congrArg decodeUtf16Lossy intercalate_singleton).trans
    (decodeUtf16Lossy_encodeUtf16 target.text)

section Complete
variable {mapping : Fin 26 → Option Target}

def Separate (mapping : Fin 26 → Option Target) : Prop :=
  ∀ i j t u, mapping i = some t → mapping j = some u → i ≠ j → ¬ t.text <+: u.text

theorem storedMap_target_iff (hseparate : Separate mapping) {i : Fin 26} {t : Target}
    (ht : mapping i = some t) (key : Text) :
    storedMap (fun j => (mapping j).map Target.targets) key = some (driveAt i) ↔ key = t.text := by
  rw [storedMap_eq_some_iff, ht, map_some, map_some, Option.some.injEq, Target.key_targets]
  constructor
  · rintro ⟨hkey, -⟩
    exact hkey.symm
  · rintro rfl
    refine ⟨rfl, fun j hj hsame => ?_⟩
    obtain ⟨targets, htargets, hkey⟩ := map_eq_some_iff.mp hsame
    obtain ⟨u, hu, rfl⟩ := map_eq_some_iff.mp htargets
    rw [Target.key_targets] at hkey
    exact hseparate i j t u ht hu (ne_of_lt hj) (hkey ▸ prefix_rfl)

def Converts (map : DeviceMap) (systemRoot : Option (List UInt16)) (i : Fin 26) (t : Target) : Prop :=
  ∀ tail out, EndsOrAt '\\' tail → (ntPathToDosInto map systemRoot (t.text ++ tail) out).outcome =
    .ok (true, (driveAt i).letter :: ':' :: rooted tail)

def IsDevice (text : Text) : Prop := ∃ name, text = devicePrefix ++ name ∧ '\\' ∉ name

theorem converts_of_isDevice {map : DeviceMap} {i : Fin 26} {t : Target}
    (hmap : map t.text = some (driveAt i)) (systemRoot : Option (List UInt16))
    (h : IsDevice t.text) : Converts map systemRoot i t := by
  obtain ⟨name, hname, hfree⟩ := h
  intro tail out htail
  rw [hname, append_assoc, ntPathToDosInto_device _ _ _ hfree htail, ← hname, hmap, outcome_pure]
  rfl

theorem isDevice_of_converts {map : DeviceMap} {i : Fin 26} {t : Target}
    (hmap : ∀ key, map key = some (driveAt i) → key = t.text) {systemRoot : Option (List UInt16)}
    (h : Converts map systemRoot i t) : IsDevice t.text := by
  -- the target and the target with a separator have one result, the root of the drive
  have hbare := h [] [] (.inl rfl)
  have hslash := h ['\\'] [] (.inr rfl)
  rw [append_nil] at hbare
  have hroot : rooted ['\\'] = rooted [] := rfl
  rw [hroot] at hslash
  generalize t.text = text at *
  have hlonger {front path : Text} (hfirst : front = path) (hsecond : front ++ ['\\'] = path) :
      False := by
    rw [← hfirst] at hsecond
    exact cons_ne_nil _ _ (append_right_eq_self.mp hsecond)
  by_cases hdrive : isDosDrivePath text = true
  · rw [ntPathToDosInto_drive _ _ _ hdrive, outcome_pure] at hbare
    rw [ntPathToDosInto_drive _ _ _ (isDosDrivePath_append hdrive _), outcome_pure] at hslash
    exact (hlonger (Prod.ext_iff.mp (Except.ok.inj hbare)).2
      (Prod.ext_iff.mp (Except.ok.inj hslash)).2).elim
  by_cases halias : ntAliasPrefix <+: text
  · obtain ⟨rest, rfl⟩ := halias
    rw [ntPathToDosInto_alias, outcome_pure] at hbare
    rw [append_assoc, ntPathToDosInto_alias, outcome_pure] at hslash
    by_cases hrest : isDosDrivePath rest = true
    · rw [if_pos hrest] at hbare
      rw [if_pos (isDosDrivePath_append hrest _)] at hslash
      exact (hlonger (Prod.ext_iff.mp (Except.ok.inj hbare)).2
        (Prod.ext_iff.mp (Except.ok.inj hslash)).2).elim
    · rw [if_neg hrest] at hbare
      cases hbare
  by_cases hsystem : systemRootPrefix <+: text
  · obtain ⟨rest, rfl⟩ := hsystem
    rw [ntPathToDosInto_systemRoot, outcome_pure] at hbare
    rw [append_assoc, ntPathToDosInto_systemRoot, outcome_pure] at hslash
    cases systemRoot with
    | none => cases hbare
    | some windir =>
      have hsecond := (Prod.ext_iff.mp (Except.ok.inj hslash)).2
      rw [elim_some, ← cons_append, ← append_assoc] at hsecond
      exact (hlonger (Prod.ext_iff.mp (Except.ok.inj hbare)).2 hsecond).elim
  by_cases hdevice : devicePrefix <+: text
  · obtain ⟨rest, rfl⟩ := hdevice
    obtain ⟨front, tail, rfl, hfront, htail⟩ := exists_split '\\' rest
    rw [ntPathToDosInto_device _ _ _ hfront htail, outcome_pure] at hbare
    cases hfound : map (devicePrefix ++ front) with
    | none =>
      rw [hfound] at hbare
      cases hbare
    | some drive =>
      rw [hfound] at hbare
      have hletter : drive.letter = (driveAt i).letter :=
        (List.cons.inj (Prod.ext_iff.mp (Except.ok.inj hbare)).2).1
      rw [Drive.ext hletter] at hfound
      exact ⟨front, (hmap _ hfound).symm, hfront⟩
  · rw [ntPathToDosInto_other _ _ _ (Bool.eq_false_iff.mpr hdrive) halias hsystem hdevice,
      outcome_pure] at hbare
    cases hbare

theorem converts_iff (hseparate : Separate mapping) (systemRoot : Option (List UInt16)) {i : Fin 26}
    {t : Target} (ht : mapping i = some t) :
    Converts (storedMap fun j => (mapping j).map Target.targets) systemRoot i t ↔ IsDevice t.text := by
  have hstored := storedMap_target_iff hseparate ht
  constructor
  · exact isDevice_of_converts fun key => (hstored key).mp
  · exact converts_of_isDevice ((hstored t.text).mpr rfl) systemRoot

end Complete

/-- All paths below the target of a drive are converted to paths of the drive exactly if the target
is a device without a path behind it. -/
theorem nt_path_to_dos_complete_iff {query : Query} {mapping : Fin 26 → Option Target}
    (h : Answers query fun j => (mapping j).map Target.targets) (hseparate : Separate mapping)
    (systemRoot : Option (List UInt16)) {i : Fin 26} {t : Target} (ht : mapping i = some t) :
    (∃ map, (buildDeviceMap query).outcome = .ok map ∧ Converts map systemRoot i t) ↔
      ∃ name, t.text = devicePrefix ++ name ∧ '\\' ∉ name := by
  have hconverts := converts_iff hseparate systemRoot ht
  rw [buildDeviceMap_eq h, outcome_pure]
  simp only [Except.ok.injEq, exists_eq_left']
  exact hconverts

theorem volume_noNul : Char.ofNat 0 ∉ devicePrefix ++ ['V'] := by decide

theorem share_noNul : Char.ofNat 0 ∉ devicePrefix ++ ['M', 'u', 'p', '\\', 's'] := by decide

def volume : Target := ⟨devicePrefix ++ ['V'], cons_ne_nil _ _, volume_noNul⟩

def share : Target := ⟨devicePrefix ++ ['M', 'u', 'p', '\\', 's'], cons_ne_nil _ _, share_noNul⟩

def onlyTarget (i : Fin 26) (t : Target) : Fin 26 → Option Target :=
  fun j => if j = i then some t else none

theorem separate_onlyTarget (i : Fin 26) (t : Target) : Separate (onlyTarget i t) := by
  intro j k u v hu hv hne
  obtain ⟨rfl, -⟩ := ite_none_right_eq_some.mp hu
  obtain ⟨rfl, -⟩ := ite_none_right_eq_some.mp hv
  exact absurd rfl hne

theorem answers_onlyTarget (i : Fin 26) {t : Target}
    (hfits : t.targets.answer.length ≤ bufferLength) :
    Answers (queryOf fun j => (onlyTarget i t j).map Target.targets)
      fun j => (onlyTarget i t j).map Target.targets := by
  refine answers_queryOf _ fun j targets htargets => ?_
  obtain ⟨u, hu, rfl⟩ := map_eq_some_iff.mp htargets
  obtain ⟨-, hsame⟩ := ite_none_right_eq_some.mp hu
  rwa [← Option.some.inj hsame]

theorem nt_path_to_dos_complete_volume :
    ∃ map, (buildDeviceMap (queryOf fun j => (onlyTarget 2 volume j).map Target.targets)).outcome =
      .ok map ∧ Converts map none 2 volume :=
  (nt_path_to_dos_complete_iff (answers_onlyTarget 2 (by decide)) (separate_onlyTarget 2 volume) none
    rfl).mpr ⟨['V'], rfl, by decide⟩

/-- A drive that is mapped to a share: the path of the share is not converted. -/
theorem nt_path_to_dos_misses_share :
    (buildDeviceMap (queryOf fun j => (onlyTarget 25 share j).map Target.targets)).outcome =
        .ok (storedMap fun j => (onlyTarget 25 share j).map Target.targets) ∧
      (ntPathToDosInto (storedMap fun j => (onlyTarget 25 share j).map Target.targets) none
        share.text []).outcome = .ok (false, []) := by
  have hanswers := answers_onlyTarget 25 (t := share) (by decide)
  refine ⟨by rw [buildDeviceMap_eq hanswers, outcome_pure], ?_⟩
  have htext : share.text = devicePrefix ++ (['M', 'u', 'p'] ++ ['\\', 's']) := rfl
  have hunknown : storedMap (fun j => (onlyTarget 25 share j).map Target.targets)
      (devicePrefix ++ ['M', 'u', 'p']) = none := by
    rw [storedMap, foldl_storeDrive, or_none, map_eq_none_iff, List.find?_eq_none]
    intro j _
    rw [decide_eq_true_eq, onlyTarget]
    split
    · rw [map_some, map_some, Target.key_targets, Option.some.injEq]
      decide
    · exact nofun
  rw [htext, ntPathToDosInto_device _ _ _ (by decide) (.inr rfl), hunknown, outcome_pure]
  rfl

end WindowsErg.Path
