import WindowsErg.EvtValues
import WindowsErg.SystemClock

/-! The four conversions of a `FILETIME` to a `SystemTime`, of `src/etw`, `src/pipes` and
`src/evt`. -/
namespace WindowsErg
open TextScan GuardedRun Guarded SystemClock CivilCalendar

def asU64 (x : ℤ) : ℕ := (x%2^64).toNat

def asU32 (x : ℤ) : ℕ := (x%2^32).toNat

def saturatingSub (a b : ℤ) : ℤ := max (-2^63) (min (2^63-1) (a-b))

def filetimeToUnixEpoch : ℤ := 116444736000000000

namespace Etw

def filetimeToSystemtime (filetime : ℤ) : Guarded SystemTime := do
  let intervalsSinceUnix := saturatingSub filetime filetimeToUnixEpoch
  -- signed division, towards zero
  let seconds := asU64 (intervalsSinceUnix.tdiv 10000000)
  let nanos := intervalsSinceUnix.tmod 10000000*100
  check (-2^63 ≤ nanos ∧ nanos < 2^63) .overflow
  let duration ← Duration.new seconds (asU32 nanos)
  unixEpoch.add duration

end Etw

namespace Pipes

def filetimeToSystemTime (filetime : ℤ) : Guarded (Option SystemTime) :=
  if filetime ≤ 0 then pure none
  else do
    let intervalsSinceUnix := saturatingSub filetime filetimeToUnixEpoch
    let seconds := asU64 (intervalsSinceUnix/10000000)
    let nanos ← mulIn u32Limit (asU32 (intervalsSinceUnix%10000000)) 100
    let duration ← Duration.new seconds nanos
    some <$> unixEpoch.add duration

end Pipes

namespace Evt.Checked

def extractSystemtimeFromVariant (variant : EvtVariant) : Guarded (Option SystemTime) :=
  if variant.type = 29 then
    if filetimeEpochDiff < variant.bits.toNat then do
      let unixTime ← subIn variant.bits.toNat filetimeEpochDiff
      let nanos ← mulIn u64Limit (unixTime%10000000) 100
      let duration ← Duration.new (unixTime/10000000) (nanos%2^32)
      some <$> unixEpoch.add duration
    else pure none
  else pure none

def extractVariantField (rendered : Option (List EvtVariant)) (fieldIndex : ℕ) :
    Except Text EvtVariant :=
  match rendered with
  | none => .error "Failed to render event values".toList
  | some variants =>
    match variants[fieldIndex]? with
    | none => .error ("Field index ".toList ++ decimal fieldIndex ++ " out of range".toList)
    | some variant => .ok variant

def extractTimestamp (rendered : Option (List EvtVariant)) : Guarded (Except Text SystemTime) :=
  match extractVariantField rendered 5 with
  | .error e => pure (.error e)
  | .ok v =>
    if v.type = 17 then do
      let intervals ← mulIn u64Limit v.bits.toNat 100
      let epoch ← unixEpoch.sub (.fromSecs 11644473600)
      .ok <$> epoch.add (.fromNanos intervals)
    else pure (.error "Timestamp field is not FILETIME".toList)

end Evt.Checked

inductive FiletimeConverter where
  | filetimeToSystemtime
  | filetimeToSystemTime
  | extractSystemtimeFromVariant (type : UInt32) (units : List UInt16)
  | extractTimestamp (before after : List Evt.EvtVariant) (hbefore : before.length = 5)
      (type : UInt32) (units : List UInt16)

def FiletimeConverter.convert (filetime : UInt64) :
    FiletimeConverter → Guarded (Option SystemTime)
  | .filetimeToSystemtime => some <$> Etw.filetimeToSystemtime filetime.toInt64.toInt
  | .filetimeToSystemTime => Pipes.filetimeToSystemTime filetime.toInt64.toInt
  | .extractSystemtimeFromVariant type units =>
    Evt.Checked.extractSystemtimeFromVariant ⟨type, filetime, units⟩
  | .extractTimestamp before after _ type units => Except.toOption <$>
    Evt.Checked.extractTimestamp (some (before ++ ⟨type, filetime, units⟩ :: after))

def ExactOrRejected (time : CivilTime) (result : Guarded (Option SystemTime)) : Prop :=
  result.outcome = .ok none ∨
    ∃ t, result.outcome = .ok (some t) ∧ t.sinceUnixEpoch = time.sinceEpoch

theorem since_1601 (time : CivilTime) : time.since 1601 = time.sinceEpoch+filetimeToUnixEpoch := by
  have hfirst := daysBeforeYear_eq 1600
  have hsecond := daysBeforeYear_eq 1969
  rw [time.since_eq 1601, filetimeToUnixEpoch]
  generalize daysBeforeYear 1970 = epoch at *
  generalize daysBeforeYear 1601 = start at *
  omega

section Units
variable {n : ℕ} (h : 116444736000000000+n < 2^63)
include h

theorem saturatingSub_units : saturatingSub (116444736000000000+n) filetimeToUnixEpoch = n := by
  rw [saturatingSub, filetimeToUnixEpoch]
  omega

theorem filetimeToSystemtime_units :
    Etw.filetimeToSystemtime (116444736000000000+n) = pure ⟨116444736000000000+n⟩ := by
  have hseconds : asU64 ((n : ℤ).tdiv 10000000) = n/10000000 := by
    rw [asU64, Int.tdiv_eq_ediv_of_nonneg (Int.natCast_nonneg n)]
    omega
  have hnanos : (n : ℤ).tmod 10000000*100 = (n%10000000*100 : ℕ) := by
    rw [Int.tmod_eq_emod_of_nonneg (Int.natCast_nonneg n)]
    omega
  have hcast : asU32 (n%10000000*100 : ℕ) = n%10000000*100 := by
    rw [asU32]
    omega
  unfold Etw.filetimeToSystemtime
  simp only [saturatingSub_units h, hseconds, hnanos, hcast]
  rw [check_bind (by omega)]
  exact SystemTime.add_units (by decide) (show (116444736000000000 : ℤ)+n < i64Limit by
    rw [i64Limit]
    omega)

theorem filetimeToSystemTime_units :
    Pipes.filetimeToSystemTime (116444736000000000+n) = pure (some ⟨116444736000000000+n⟩) := by
  have hseconds : asU64 ((n : ℤ)/10000000) = n/10000000 := by
    rw [asU64]
    omega
  have hnanos : asU32 ((n : ℤ)%10000000) = n%10000000 := by
    rw [asU32]
    omega
  unfold Pipes.filetimeToSystemTime
  rw [if_neg (by omega)]
  simp only [saturatingSub_units h, hseconds, hnanos]
  rw [mulIn_eq (by rw [u32Limit]; omega), pure_bind, ← map_bind]
  exact congrArg (some <$> ·) (SystemTime.add_units (by decide)
    (show (116444736000000000 : ℤ)+n < i64Limit by rw [i64Limit]; omega))

theorem extractSystemtimeFromVariant_units (hpos : 0 < n) (units : List UInt16) {bits : UInt64}
    (hbits : bits.toNat = 116444736000000000+n) :
    Evt.Checked.extractSystemtimeFromVariant ⟨29, bits, units⟩ =
      pure (some ⟨116444736000000000+n⟩) := by
  have hunits : bits.toNat-Evt.filetimeEpochDiff = n := by
    rw [hbits, Evt.filetimeEpochDiff]
    omega
  unfold Evt.Checked.extractSystemtimeFromVariant
  rw [if_pos rfl, if_pos (by rw [hbits, Evt.filetimeEpochDiff]; omega),
    subIn_eq (by rw [hbits, Evt.filetimeEpochDiff]; omega), pure_bind, hunits,
    mulIn_eq (by rw [u64Limit]; omega), pure_bind, Nat.mod_eq_of_lt (by omega), ← map_bind]
  exact congrArg (some <$> ·) (SystemTime.add_units (by decide)
    (show (116444736000000000 : ℤ)+n < i64Limit by rw [i64Limit]; omega))

end Units

theorem extractSystemtimeFromVariant_agrees (variant : Evt.EvtVariant) :
    (Evt.Checked.extractSystemtimeFromVariant variant).value.map SystemTime.sinceUnixEpoch =
      Evt.extractSystemtimeFromVariant variant := by
  unfold Evt.Checked.extractSystemtimeFromVariant Evt.extractSystemtimeFromVariant
  by_cases htype : variant.type = 29
  · by_cases hlate : Evt.filetimeEpochDiff < variant.bits.toNat
    · rw [if_pos htype, if_pos hlate, if_pos ⟨htype, hlate⟩, value_bind, value_bind, value_subIn,
        value_mulIn, Nat.mod_eq_of_lt (by omega), Duration.new_of_lt (by omega), pure_bind]
      change some ((unixEpoch.add _).value.sinceUnixEpoch) = _
      rw [SystemTime.value_add, SystemTime.sinceUnixEpoch, add_sub_cancel_left]
      rfl
    · rw [if_pos htype, if_neg hlate, if_neg fun h => hlate h.2]
      rfl
  · rw [if_neg htype, if_neg fun h => htype h.1]
    rfl

theorem extractVariantField_middle {before after : List Evt.EvtVariant} {variant : Evt.EvtVariant}
    (hbefore : before.length = 5) :
    Evt.Checked.extractVariantField (some (before ++ variant :: after)) 5 = .ok variant := by
  have hfield : (before ++ variant :: after)[5]? = some variant := by
    rw [← hbefore, List.getElem?_append_right le_rfl, Nat.sub_self]
    rfl
  rw [Evt.Checked.extractVariantField]
  simp only [hfield]

theorem extractTimestamp_filetime {before after : List Evt.EvtVariant} (hbefore : before.length = 5)
    (units : List UInt16) {bits : UInt64} (hroom : bits.toNat*100 < 2^64) :
    Evt.Checked.extractTimestamp (some (before ++ ⟨17, bits, units⟩ :: after)) =
      pure (.ok ⟨bits.toNat⟩) := by
  have hepoch : unixEpoch.sub (.fromSecs 11644473600) = pure ⟨0⟩ := ext rfl (by decide +kernel)
  have hsafe : (SystemTime.add ⟨0⟩ (.fromNanos (bits.toNat*100))).Safe := by
    rw [SystemTime.safe_add le_rfl, Duration.ticks_fromNanos, i64Limit, zero_add]
    omega
  unfold Evt.Checked.extractTimestamp
  rw [extractVariantField_middle hbefore]
  dsimp only
  rw [if_pos rfl, mulIn_eq (by rw [u64Limit]; exact hroom), pure_bind, hepoch, pure_bind,
    eq_pure_of_safe hsafe, SystemTime.value_add, Duration.ticks_fromNanos, zero_add, map_pure]

theorem extractTimestamp_overflow (before after : List Evt.EvtVariant) (hbefore : before.length = 5)
    (units : List UInt16) {bits : UInt64} (hroom : ¬ bits.toNat*100 < 2^64) :
    ¬ (Evt.Checked.extractTimestamp (some (before ++ ⟨17, bits, units⟩ :: after))).Safe := by
  unfold Evt.Checked.extractTimestamp
  rw [extractVariantField_middle hbefore]
  dsimp only
  rw [if_pos rfl, safe_bind, safe_mulIn]
  exact fun h => hroom h.1

theorem filetimeToSystemtime_nonneg {filetime : ℤ} {t : SystemTime}
    (h : (Etw.filetimeToSystemtime filetime).outcome = .ok t) : 0 ≤ t.sinceUnixEpoch := by
  obtain ⟨-, rfl⟩ := outcome_eq_ok_iff.mp h
  unfold Etw.filetimeToSystemtime
  rw [value_bind, value_bind, SystemTime.value_add, SystemTime.sinceUnixEpoch, add_sub_cancel_left]
  exact Int.natCast_nonneg _

theorem convert_cases {filetime : UInt64} {n : ℕ} (hunits : filetime.toNat = 116444736000000000+n)
    (hroom : filetime.toNat*100 < 2^64) (converter : FiletimeConverter) :
    converter.convert filetime = pure none ∨
      converter.convert filetime = pure (some ⟨filetime.toNat⟩) := by
  have hlt : 116444736000000000+n < 2^63 := by omega
  have hsigned : filetime.toInt64.toInt = 116444736000000000+n := by
    change filetime.toBitVec.toInt = _
    rw [BitVec.toInt_eq_toNat_of_lt (by
      change 2*filetime.toNat < 2^64
      omega)]
    change (filetime.toNat : ℤ) = _
    rw [hunits]
    push_cast
    rfl
  have hresult : (⟨116444736000000000+n⟩ : SystemTime) = ⟨filetime.toNat⟩ := by
    rw [hunits]
    push_cast
    rfl
  cases converter with
  | filetimeToSystemtime =>
    right
    rw [FiletimeConverter.convert, hsigned, filetimeToSystemtime_units hlt, hresult, map_pure]
  | filetimeToSystemTime =>
    right
    rw [FiletimeConverter.convert, hsigned, filetimeToSystemTime_units hlt, hresult]
  | extractSystemtimeFromVariant type units =>
    rw [FiletimeConverter.convert]
    by_cases htype : type = 29
    · subst htype
      rcases Nat.eq_zero_or_pos n with rfl | hpos
      · -- the start of 1970 is rejected
        left
        rw [Evt.Checked.extractSystemtimeFromVariant, if_pos rfl,
          if_neg (by rw [hunits, Evt.filetimeEpochDiff]; omega)]
      · right
        rw [extractSystemtimeFromVariant_units hlt hpos units hunits, hresult]
    · left
      exact if_neg htype
  | extractTimestamp before after hbefore type units =>
    rw [FiletimeConverter.convert]
    by_cases htype : type = 17
    · subst htype
      right
      rw [extractTimestamp_filetime hbefore units hroom, map_pure]
      rfl
    · left
      rw [Evt.Checked.extractTimestamp, extractVariantField_middle hbefore]
      dsimp only
      rw [if_neg htype, map_pure]
      rfl

/-- All conversions of a moment are exact and agree exactly if it lies in 1970 or later and its
nanoseconds since 1601 fit in 64 bits. -/
theorem filetimes_exact_iff (filetime : UInt64) (time : CivilTime)
    (hfiletime : (filetime.toNat : ℤ) = time.since 1601) :
    ((∀ converter : FiletimeConverter, ExactOrRejected time (converter.convert filetime)) ∧
        ∀ (converter converter' : FiletimeConverter) (t t' : SystemTime),
          (converter.convert filetime).outcome = .ok (some t) →
            (converter'.convert filetime).outcome = .ok (some t') → t = t') ↔
      1970 ≤ time.date.year ∧ time.since 1601*100 < 2^64 := by
  have hepoch := since_1601 time
  constructor
  · rintro ⟨hexact, -⟩
    constructor
    · -- the time of an ETW event is never rejected and never before 1970
      by_contra hearly
      have hneg := time.sinceEpoch_neg (Nat.not_le.mp hearly)
      rcases hexact .filetimeToSystemtime with hnone | ⟨t, ht, hvalue⟩
      · cases (outcome_eq_ok_iff.mp hnone).2
      · obtain ⟨hsafe, hsome⟩ := outcome_eq_ok_iff.mp ht
        have hnonneg := filetimeToSystemtime_nonneg (outcome_eq_ok_iff.mpr
          ⟨(safe_map _ _).mp hsafe, Option.some.inj hsome⟩)
        omega
    · by_contra hlarge
      have hroom : ¬ filetime.toNat*100 < 2^64 := by omega
      let before : List Evt.EvtVariant := List.replicate 5 ⟨0, 0, []⟩
      have hstops := extractTimestamp_overflow before [] rfl [] hroom
      apply hstops
      rcases hexact (.extractTimestamp before [] rfl 17 []) with hnone | ⟨t, ht, -⟩
      · exact (safe_map _ _).mp (outcome_eq_ok_iff.mp hnone).1
      · exact (safe_map _ _).mp (outcome_eq_ok_iff.mp ht).1
  · rintro ⟨hlate, hfits⟩
    have hroom : filetime.toNat*100 < 2^64 := by omega
    obtain ⟨n, hunits⟩ : ∃ n, filetime.toNat = 116444736000000000+n := by
      have hsince := time.since_nonneg hlate
      have hsame : time.since 1970 = time.sinceEpoch := rfl
      rw [filetimeToUnixEpoch] at hepoch
      exact ⟨time.sinceEpoch.toNat, by omega⟩
    have hcases := convert_cases hunits hroom
    have hvalue (converter : FiletimeConverter) (t : SystemTime)
        (ht : (converter.convert filetime).outcome = .ok (some t)) : t = ⟨filetime.toNat⟩ := by
      rcases hcases converter with hnone | hsome
      · rw [hnone, outcome_pure] at ht
        cases ht
      · rw [hsome, outcome_pure] at ht
        exact (Option.some.inj (Except.ok.inj ht)).symm
    constructor
    · intro converter
      rcases hcases converter with hnone | hsome
      · left
        rw [hnone, outcome_pure]
      · right
        refine ⟨⟨filetime.toNat⟩, by rw [hsome, outcome_pure], ?_⟩
        rw [SystemTime.sinceUnixEpoch, unixEpoch, hfiletime, hepoch, filetimeToUnixEpoch]
        dsimp only
        omega
    · intro converter converter' t t' ht ht'
      rw [hvalue converter t ht, hvalue converter' t' ht']

def startOfYear (year : ℕ) (h : 1 ≤ year) : CivilTime :=
  (CivilDate.newYear year h).midnight

theorem since_startOfYear (year : ℕ) (h : 1 ≤ year) :
    (startOfYear year h).since 1601 = ((daysBeforeYear year : ℤ)-584388)*864000000000 := by
  have hfirst := daysBeforeYear_eq 1600
  have hday : (startOfYear year h).date.dayNumber = daysBeforeYear year := rfl
  have hclock : (startOfYear year h).since 1601 =
      (((startOfYear year h).date.dayNumber : ℤ)-daysBeforeYear 1601)*86400*10^7 := by
    simp only [CivilTime.since, startOfYear, CivilDate.midnight]
    push_cast
    ring
  rw [hclock, hday]
  generalize daysBeforeYear 1601 = start at *
  generalize daysBeforeYear year = days
  omega

theorem filetimes_exact_start_of_1970 :
    (116444736000000000 : ℤ) = (startOfYear 1970 (by decide)).since 1601 ∧
      ∀ converter : FiletimeConverter, ExactOrRejected (startOfYear 1970 (by decide))
        (converter.convert 116444736000000000) := by
  have h1970 := daysBeforeYear_eq 1969
  have hsince : (116444736000000000 : ℤ) = (startOfYear 1970 (by decide)).since 1601 := by
    rw [since_startOfYear]
    generalize daysBeforeYear 1970 = days at *
    omega
  refine ⟨hsince, ?_⟩
  refine ((filetimes_exact_iff 116444736000000000 (startOfYear 1970 (by decide)) hsince).mpr
    ⟨le_rfl, ?_⟩).1
  rw [← hsince]
  decide

/-- The moments before 1970 stop two conversions, and the year 2200 stops a third. -/
theorem filetimes_stop :
    (startOfYear 1969 (by decide)).since 1601 = 116129376000000000 ∧
      (FiletimeConverter.filetimeToSystemtime.convert 116129376000000000).outcome =
        .error .overflow ∧
      (FiletimeConverter.filetimeToSystemTime.convert 116129376000000000).outcome =
        .error .overflow ∧
      (startOfYear 2200 (by decide)).since 1601 = 189025920000000000 ∧
      (FiletimeConverter.convert 189025920000000000
        (.extractTimestamp (List.replicate 5 ⟨0, 0, []⟩) [] rfl 17 [])).outcome =
          .error .overflow := by
  have h1969 := daysBeforeYear_eq 1968
  have h2200 := daysBeforeYear_eq 2199
  refine ⟨?_, by decide +kernel, by decide +kernel, ?_, by decide +kernel⟩
  · rw [since_startOfYear]
    generalize daysBeforeYear 1969 = days at *
    omega
  · rw [since_startOfYear]
    generalize daysBeforeYear 2200 = days at *
    omega

end WindowsErg
