import WindowsErg.EvtTimestamp
import WindowsErg.SystemClock

/-! `parse_iso8601_timestamp` with every operation checked, and the texts that stop it. -/
namespace WindowsErg.Evt.Checked
open Option TextScan UnicodeText GuardedRun Guarded SystemClock

/-- `time_str.get(first..last)?.parse().ok()?`. -/
def parsePart {α : Type} (parse : Text → Option α) (first last : ℕ) (s : Text) :
    OptionT Guarded α :=
  OptionT.mk (pure ((byteSlice first last s).bind parse))

def timestampMicroseconds (s : Text) : Guarded (Option ℕ) :=
  if 20 < utf8Len s then do
    -- `as_bytes()[19]`
    check (19 < utf8Len s) .outOfRange
    if byteSlice 19 20 s = some ['.'] then
      pure ((byteSlice 20 26 s).map fun digits => (parseU32 digits).getD 0)
    else pure (some 0)
  else pure (some 0)

def timestampParts (s : Text) : OptionT Guarded TimestampParts :=
  if utf8Len s < 20 then OptionT.mk (pure none)
  else do
    let year ← parsePart parseI32 0 4 s
    let month ← parsePart parseU32 5 7 s
    let day ← parsePart parseU32 8 10 s
    let hour ← parsePart parseU32 11 13 s
    let minute ← parsePart parseU32 14 16 s
    let second ← parsePart parseU32 17 19 s
    let microseconds ← OptionT.mk (timestampMicroseconds s)
    pure ⟨year, month, day, hour, minute, second, microseconds⟩

def daysOfYears : ℕ → Guarded ℕ
  | 0 => pure 0
  | n+1 => do
    let days ← daysOfYears n
    addIn i64Limit days (if isLeapYear (1970+n) then 366 else 365)

def daysOfMonths (year : ℤ) (daysBefore : ℕ) : ℕ → Guarded ℕ
  | 0 => pure daysBefore
  | n+1 => do
    let days ← daysOfMonths year daysBefore n
    let m ← subIn (n+1) 1
    let length ← index daysInMonth m
    let days ← addIn i64Limit days length
    if n+1 = 2 ∧ isLeapYear year then addIn i64Limit days 1 else pure days

def totalSeconds (parts : TimestampParts) : Guarded ℕ := do
  let days ← daysOfYears (parts.year-1970).toNat
  let days ← daysOfMonths parts.year days (parts.month-1)
  let day ← subIn parts.day 1
  let days ← addIn i64Limit days day
  let daySeconds ← mulIn i64Limit days 86400
  let hourSeconds ← mulIn i64Limit parts.hour 3600
  let seconds ← addIn i64Limit daySeconds hourSeconds
  let minuteSeconds ← mulIn i64Limit parts.minute 60
  let seconds ← addIn i64Limit seconds minuteSeconds
  addIn i64Limit seconds parts.second

def systemTime (parts : TimestampParts) : Guarded SystemTime := do
  let seconds ← totalSeconds parts
  let duration ← (Duration.fromSecs seconds).add (.fromMicros parts.microseconds)
  unixEpoch.add duration

def parseIso8601Timestamp (s : Text) : Guarded (Option SystemTime) :=
  (do
    let parts ← timestampParts s
    liftM (systemTime parts) : OptionT Guarded SystemTime).run

theorem mk_pure_bind {α β : Type} (x : Option α) (f : α → Option β) :
    ((OptionT.mk (pure x) : OptionT Guarded α) >>= fun a => OptionT.mk (pure (f a))) =
      OptionT.mk (pure (x >>= f)) := by
  cases x with
  | none => rfl
  | some a => rfl

theorem timestampMicroseconds_eq (s : Text) :
    timestampMicroseconds s = pure (Evt.timestampMicroseconds s) := by
  unfold timestampMicroseconds Evt.timestampMicroseconds
  by_cases hlength : 20 < utf8Len s
  · rw [if_pos hlength, check_bind (by omega)]
    by_cases hpoint : byteSlice 19 20 s = some ['.']
    · rw [if_pos hpoint, if_pos ⟨hlength, hpoint⟩]
    · rw [if_neg hpoint, if_neg fun h => hpoint h.2]
  · rw [if_neg hlength, if_neg fun h => hlength h.1]

theorem timestampParts_eq (s : Text) :
    timestampParts s = OptionT.mk (pure (Evt.timestampParts s)) := by
  unfold timestampParts Evt.timestampParts
  split_ifs with hshort
  · rfl
  · have hpure (parts : TimestampParts) :
        (pure parts : OptionT Guarded TimestampParts) = OptionT.mk (pure (some parts)) := rfl
    simp only [parsePart, timestampMicroseconds_eq, hpure, mk_pure_bind]
    rfl

structure InRange (parts : TimestampParts) : Prop where
  year : parts.year < 10^4
  month : parts.month < 10^2
  day : parts.day < 10^2
  hour : parts.hour < 10^2
  minute : parts.minute < 10^2
  second : parts.second < 10^2
  microseconds : parts.microseconds < 10^6

theorem fromStrRadix_lt_pow {bound n width : ℕ} {s : Text}
    (h : fromStrRadix 10 bound s = some n) (hlength : s.length ≤ width) : n < 10^width := by
  unfold fromStrRadix at h
  obtain ⟨-, hvalue⟩ := ite_none_left_eq_some.mp h
  obtain ⟨hdigits, -⟩ := filter_eq_some_iff.mp hvalue
  have hunsign : (unsign s).length ≤ s.length := by
    unfold unsign
    split
    · exact Nat.le_succ _
    · exact le_rfl
  have hbound := (digitsValue_bounds 10 0 n _ hdigits).2
  rw [zero_add, one_mul] at hbound
  exact lt_of_lt_of_le hbound (Nat.pow_le_pow_right (by decide) (hunsign.trans hlength))

theorem parseU32_lt {first last n : ℕ} {s : Text}
    (h : (byteSlice first last s).bind parseU32 = some n) : n < 10^(last-first) := by
  obtain ⟨digits, hslice, hparse⟩ := bind_eq_some_iff.mp h
  exact fromStrRadix_lt_pow hparse (length_le_of_byteSlice hslice)

theorem parseI32_lt {first last : ℕ} {year : ℤ} {s : Text}
    (h : (byteSlice first last s).bind parseI32 = some year) : year < 10^(last-first) := by
  obtain ⟨digits, hslice, hparse⟩ := bind_eq_some_iff.mp h
  have hlength := length_le_of_byteSlice hslice
  unfold parseI32 at hparse
  split at hparse
  · obtain ⟨-, hmap⟩ := ite_none_left_eq_some.mp hparse
    obtain ⟨n, -, rfl⟩ := map_eq_some_iff.mp hmap
    have hpos : (0 : ℤ) < 10^(last-first) := by positivity
    have hn := Int.natCast_nonneg n
    change -(n : ℤ) < _
    omega
  · obtain ⟨n, hn, rfl⟩ := map_eq_some_iff.mp hparse
    have hlt := fromStrRadix_lt_pow hn hlength
    change (n : ℤ) < _
    exact_mod_cast hlt

theorem timestampMicroseconds_lt {s : Text} {n : ℕ}
    (h : Evt.timestampMicroseconds s = some n) : n < 10^6 := by
  unfold Evt.timestampMicroseconds at h
  split_ifs at h
  · obtain ⟨digits, hslice, rfl⟩ := map_eq_some_iff.mp h
    cases hparse : parseU32 digits with
    | none => exact Nat.pow_pos (by decide)
    | some v => exact fromStrRadix_lt_pow hparse (length_le_of_byteSlice hslice)
  · cases h
    exact Nat.pow_pos (by decide)

theorem inRange_of_timestampParts {s : Text} {parts : TimestampParts}
    (h : Evt.timestampParts s = some parts) : InRange parts := by
  unfold Evt.timestampParts at h
  obtain ⟨-, h⟩ := ite_none_left_eq_some.mp h
  obtain ⟨year, hyear, h⟩ := bind_eq_some_iff.mp h
  obtain ⟨month, hmonth, h⟩ := bind_eq_some_iff.mp h
  obtain ⟨day, hday, h⟩ := bind_eq_some_iff.mp h
  obtain ⟨hour, hhour, h⟩ := bind_eq_some_iff.mp h
  obtain ⟨minute, hminute, h⟩ := bind_eq_some_iff.mp h
  obtain ⟨second, hsecond, h⟩ := bind_eq_some_iff.mp h
  obtain ⟨microseconds, hmicroseconds, h⟩ := bind_eq_some_iff.mp h
  cases h
  exact ⟨parseI32_lt hyear, parseU32_lt hmonth, parseU32_lt hday, parseU32_lt hhour,
    parseU32_lt hminute, parseU32_lt hsecond, timestampMicroseconds_lt hmicroseconds⟩

theorem daysOfYears_value (n : ℕ) : (daysOfYears n).value = Evt.daysOfYears n := by
  induction n with
  | zero => rfl
  | succ n ih =>
    rw [daysOfYears, value_bind, value_addIn, ih]
    rfl

theorem daysOfYears_le (n : ℕ) : Evt.daysOfYears n ≤ 366*n := by
  induction n with
  | zero => exact le_rfl
  | succ n ih =>
    rw [Evt.daysOfYears]
    split_ifs <;> omega

theorem safe_daysOfYears {n : ℕ} (h : 366*n < i64Limit) : (daysOfYears n).Safe := by
  induction n with
  | zero => exact safe_pure _
  | succ n ih =>
    have hle := daysOfYears_le n
    rw [daysOfYears, safe_bind, safe_addIn, daysOfYears_value]
    refine ⟨ih (by omega), ?_⟩
    split_ifs <;> omega

theorem length_le_thirtyone (n : ℕ) : daysInMonth.getD n 0 ≤ 31 := by
  by_cases hn : n < 12
  · interval_cases n <;> decide
  · have hnone : daysInMonth[n]? = none := List.getElem?_eq_none (Nat.le_of_not_lt hn)
    rw [List.getD_eq_getElem?_getD, hnone]
    exact Nat.zero_le _

theorem daysOfMonths_value_succ (year : ℤ) (daysBefore n : ℕ) :
    (daysOfMonths year daysBefore (n+1)).value =
      (daysOfMonths year daysBefore n).value + daysInMonth.getD n 0 +
        if n+1 = 2 ∧ isLeapYear year then 1 else 0 := by
  rw [daysOfMonths]
  by_cases hfebruary : n+1 = 2 ∧ isLeapYear year
  · simp only [if_pos hfebruary]
    rfl
  · simp only [if_neg hfebruary]
    rfl

theorem daysOfMonths_value_le (year : ℤ) (daysBefore n : ℕ) :
    (daysOfMonths year daysBefore n).value ≤ daysBefore+32*n := by
  induction n with
  | zero => exact le_rfl
  | succ n ih =>
    have hlength := length_le_thirtyone n
    rw [daysOfMonths_value_succ]
    split_ifs <;> omega

theorem safe_daysOfMonths {year : ℤ} {daysBefore n : ℕ} (h : daysBefore+32*n < i64Limit) :
    (daysOfMonths year daysBefore n).Safe ↔ n ≤ 12 := by
  induction n with
  | zero => exact iff_of_true (safe_pure _) (Nat.zero_le _)
  | succ n ih =>
    have hle := daysOfMonths_value_le year daysBefore n
    have hlength := length_le_thirtyone n
    have hvalue : (index daysInMonth n).value = daysInMonth.getD n 0 := rfl
    rw [daysOfMonths, safe_bind, safe_bind, safe_bind, safe_bind, safe_subIn, value_subIn,
      Nat.add_sub_cancel, safe_index, hvalue, ih (by omega), safe_addIn, value_addIn]
    have hrest : (if n+1 = 2 ∧ isLeapYear year then
        addIn i64Limit ((daysOfMonths year daysBefore n).value + daysInMonth.getD n 0) 1
        else pure ((daysOfMonths year daysBefore n).value + daysInMonth.getD n 0)).Safe := by
      split_ifs
      · exact safe_addIn.mpr (by omega)
      · exact safe_pure _
    constructor
    · rintro ⟨-, -, hroom, -⟩
      exact hroom
    · intro hroom
      exact ⟨by omega, by omega, hroom, by omega, hrest⟩

theorem daysOfMonths_eq_value (year : ℤ) {n : ℕ} (h : n ≤ 12) (daysBefore : ℕ) :
    ∃ months, Evt.daysOfMonths year n = .ok months ∧
      (daysOfMonths year daysBefore n).value = daysBefore+months := by
  induction n with
  | zero => exact ⟨0, rfl, rfl⟩
  | succ n ih =>
    obtain ⟨months, hmonths, hvalue⟩ := ih (by omega)
    have hlength : daysInMonth[n]? = some (daysInMonth.getD n 0) := by
      rw [List.getD_eq_getElem?_getD, List.getElem?_eq_getElem (show n < daysInMonth.length from h)]
      rfl
    refine ⟨months + daysInMonth.getD n 0 + if n+1 = 2 ∧ isLeapYear year then 1 else 0, ?_, ?_⟩
    · rw [Evt.daysOfMonths, hmonths]
      simp only [hlength, bind, Except.bind]
    · rw [daysOfMonths_value_succ, hvalue]
      simp only [add_assoc]

section
variable {parts : TimestampParts}

theorem safe_totalSeconds (h : InRange parts) :
    (totalSeconds parts).Safe ↔ parts.month ≤ 13 ∧ 1 ≤ parts.day := by
  obtain ⟨hyear, hmonth, hday, hhour, hminute, hsecond, -⟩ := h
  have hyears := daysOfYears_le (parts.year-1970).toNat
  have hmonths := daysOfMonths_value_le parts.year (Evt.daysOfYears (parts.year-1970).toNat)
    (parts.month-1)
  have hloop : (daysOfYears (parts.year-1970).toNat).Safe := by
    apply safe_daysOfYears
    rw [i64Limit]
    omega
  have hindex : (daysOfMonths parts.year (Evt.daysOfYears (parts.year-1970).toNat)
      (parts.month-1)).Safe ↔ parts.month ≤ 13 := by
    rw [safe_daysOfMonths (by rw [i64Limit]; omega)]
    omega
  simp only [totalSeconds, safe_bind, daysOfYears_value, hloop, hindex, safe_subIn, safe_addIn,
    safe_mulIn, value_addIn, value_mulIn, value_subIn, true_and]
  rw [i64Limit]
  omega

theorem totalSeconds_value_le (h : InRange parts) :
    (totalSeconds parts).value ≤ 400000000000 := by
  obtain ⟨hyear, hmonth, hday, hhour, hminute, hsecond, -⟩ := h
  have hyears := daysOfYears_le (parts.year-1970).toNat
  have hmonths := daysOfMonths_value_le parts.year (daysOfYears (parts.year-1970).toNat).value
    (parts.month-1)
  have hvalue : (totalSeconds parts).value =
      ((daysOfMonths parts.year (daysOfYears (parts.year-1970).toNat).value
        (parts.month-1)).value + (parts.day-1))*86400 + parts.hour*3600 + parts.minute*60 +
        parts.second := rfl
  rw [daysOfYears_value] at hmonths hvalue
  omega

theorem duration_eq {seconds microseconds : ℕ} (hseconds : seconds ≤ 400000000000)
    (hmicroseconds : microseconds < 10^6) :
    (Duration.fromSecs seconds).add (.fromMicros microseconds) =
      pure ⟨seconds, microseconds*1000⟩ := by
  have hwhole : microseconds/10^6 = 0 := Nat.div_eq_of_lt hmicroseconds
  have hpart : microseconds%10^6 = microseconds := Nat.mod_eq_of_lt hmicroseconds
  unfold Duration.fromSecs Duration.fromMicros
  rw [hwhole, hpart, Duration.add_of_lt, add_zero, zero_add]
  · rw [u64Limit]
    dsimp only
    omega
  · dsimp only
    omega

theorem safe_systemTime (h : InRange parts) :
    (systemTime parts).Safe ↔ parts.month ≤ 13 ∧ 1 ≤ parts.day := by
  have hseconds := totalSeconds_value_le h
  have hmicroseconds := h.microseconds
  rw [systemTime, safe_bind, safe_totalSeconds h, duration_eq hseconds hmicroseconds]
  apply and_iff_left
  rw [pure_bind, SystemTime.safe_add (by decide), Duration.ticks, i64Limit, unixEpoch]
  dsimp only
  push_cast
  omega

theorem systemTime_value (h : InRange parts) :
    (systemTime parts).value.sinceUnixEpoch =
      (totalSeconds parts).value*10^7 + parts.microseconds*10 := by
  have hticks : parts.microseconds*1000/100 = parts.microseconds*10 := by omega
  rw [systemTime, value_bind, duration_eq (totalSeconds_value_le h) h.microseconds, pure_bind,
    SystemTime.value_add, SystemTime.sinceUnixEpoch, Duration.ticks, add_sub_cancel_left, hticks]
  push_cast
  rfl

theorem systemTime_agrees (h : InRange parts) (hsafe : parts.month ≤ 13 ∧ 1 ≤ parts.day) :
    parts.systemTime = .ok (systemTime parts).value.sinceUnixEpoch := by
  obtain ⟨months, hmonths, hvalue⟩ := daysOfMonths_eq_value parts.year
    (show parts.month-1 ≤ 12 by omega) (Evt.daysOfYears (parts.year-1970).toNat)
  have hseconds : (totalSeconds parts).value =
      ((daysOfMonths parts.year (daysOfYears (parts.year-1970).toNat).value
        (parts.month-1)).value + (parts.day-1))*86400 + parts.hour*3600 + parts.minute*60 +
        parts.second := rfl
  rw [daysOfYears_value, hvalue] at hseconds
  rw [systemTime_value h, hseconds, TimestampParts.systemTime, hmonths]
  simp only [bind, Except.bind]
  rw [if_neg (by omega)]

end

theorem parseIso8601Timestamp_eq (s : Text) :
    parseIso8601Timestamp s = match Evt.timestampParts s with
      | none => pure none
      | some parts => some <$> systemTime parts := by
  unfold parseIso8601Timestamp
  rw [timestampParts_eq]
  cases Evt.timestampParts s with
  | none => rfl
  | some parts => rfl

theorem parseIso8601Timestamp_agrees {s : Text} {result : Option SystemTime}
    (h : (parseIso8601Timestamp s).outcome = .ok result) :
    Evt.parseIso8601Timestamp s = .ok (result.map SystemTime.sinceUnixEpoch) := by
  obtain ⟨hsafe, rfl⟩ := outcome_eq_ok_iff.mp h
  rw [parseIso8601Timestamp_eq] at hsafe ⊢
  unfold Evt.parseIso8601Timestamp
  cases hparts : Evt.timestampParts s with
  | none => rfl
  | some parts =>
    have hrange := inRange_of_timestampParts hparts
    rw [hparts, safe_map, safe_systemTime hrange] at hsafe
    dsimp only
    rw [systemTime_agrees hrange hsafe]
    rfl

/-- A text stops the function exactly if its parts can be read and the month is beyond 13 or the day
is zero. -/
theorem timestamp_never_panics_iff (s : Text) :
    (∃ result, (parseIso8601Timestamp s).outcome = .ok result) ↔
      ∀ parts, Evt.timestampParts s = some parts → parts.month ≤ 13 ∧ 1 ≤ parts.day := by
  rw [exists_outcome_iff, parseIso8601Timestamp_eq]
  cases hparts : Evt.timestampParts s with
  | none => exact iff_of_true (safe_pure _) nofun
  | some parts =>
    rw [safe_map, safe_systemTime (inRange_of_timestampParts hparts)]
    simp

/-- The fourteenth month is looked up behind the table, and the day before the first one is below
zero. -/
theorem timestamp_panics :
    (parseIso8601Timestamp "2024-14-01T00:00:00Z".toList).outcome = .error .outOfRange ∧
      (parseIso8601Timestamp "2024-01-00T00:00:00Z".toList).outcome = .error .overflow := by
  decide +kernel

theorem parseIso8601Timestamp_agrees_new_year :
    let text := "2024-01-01T00:00:00Z".toList
    ∃ result, (parseIso8601Timestamp text).outcome = .ok result ∧
      Evt.parseIso8601Timestamp text = .ok (result.map SystemTime.sinceUnixEpoch) := by
  intro text
  have hresult : (parseIso8601Timestamp text).outcome = .ok (parseIso8601Timestamp text).value := by
    decide +kernel
  exact ⟨_, hresult, parseIso8601Timestamp_agrees hresult⟩

end WindowsErg.Evt.Checked
