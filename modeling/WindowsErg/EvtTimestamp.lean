import WindowsErg.CivilCalendar
import WindowsErg.UnicodeText

/-! The time stamps of rendered events, `parse_iso8601_timestamp` of `src/evt/render.rs`. A
`SystemTime` is a number of units of 100 nanoseconds since the start of 1970. -/
namespace WindowsErg.Evt
open Option List TextScan UnicodeText CivilCalendar
open scoped BigOperators

inductive Panic where
  | indexOutOfBounds
  | subtractOverflow
  deriving DecidableEq, Repr

def parseI32 : Text → Option ℤ
  | '-' :: s =>
    if s.head? = some '+' then none else (fromStrRadix 10 (2^31+1) s).map fun n => -Int.ofNat n
  | s => (fromStrRadix 10 (2^31) s).map Int.ofNat

def parseU32 (s : Text) : Option ℕ := fromStrRadix 10 (2^32) s

structure TimestampParts where
  year : ℤ
  month : ℕ
  day : ℕ
  hour : ℕ
  minute : ℕ
  second : ℕ
  microseconds : ℕ
  deriving DecidableEq, Repr

/-- A fraction that is no number counts as zero, one with less than six bytes after the point
rejects the text. -/
def timestampMicroseconds (s : Text) : Option ℕ :=
  if 20 < utf8Len s ∧ byteSlice 19 20 s = some ['.'] then
    (byteSlice 20 26 s).map fun digits => (parseU32 digits).getD 0
  else some 0

def timestampParts (s : Text) : Option TimestampParts :=
  if utf8Len s < 20 then none
  else do
    let year ← (byteSlice 0 4 s).bind parseI32
    let month ← (byteSlice 5 7 s).bind parseU32
    let day ← (byteSlice 8 10 s).bind parseU32
    let hour ← (byteSlice 11 13 s).bind parseU32
    let minute ← (byteSlice 14 16 s).bind parseU32
    let second ← (byteSlice 17 19 s).bind parseU32
    let microseconds ← timestampMicroseconds s
    pure ⟨year, month, day, hour, minute, second, microseconds⟩

def isLeapYear (year : ℤ) : Bool := (year%4 = 0 && year%100 ≠ 0) || year%400 = 0

def daysOfYears : ℕ → ℕ
  | 0 => 0
  | n+1 => daysOfYears n + if isLeapYear (1970+n) then 366 else 365

def daysInMonth : List ℕ := [31, 28, 31, 30, 31, 30, 31, 31, 30, 31, 30, 31]

def daysOfMonths (year : ℤ) : ℕ → Except Panic ℕ
  | 0 => .ok 0
  | n+1 => do
    let days ← daysOfMonths year n
    match daysInMonth[n]? with
    | none => .error .indexOutOfBounds
    | some length => .ok (days + length + if n+1 = 2 ∧ isLeapYear year then 1 else 0)

def TimestampParts.systemTime (parts : TimestampParts) : Except Panic ℤ := do
  let months ← daysOfMonths parts.year (parts.month-1)
  if parts.day = 0 then .error .subtractOverflow
  else
    let days := daysOfYears (parts.year-1970).toNat + months + (parts.day-1)
    let seconds := days*86400 + parts.hour*3600 + parts.minute*60 + parts.second
    .ok ((seconds : ℤ)*10^7 + parts.microseconds*10)

def parseIso8601Timestamp (s : Text) : Except Panic (Option ℤ) :=
  match timestampParts s with
  | none => .ok none
  | some parts => parts.systemTime.map some

def twoDigits (n : ℕ) : Text := [Nat.digitChar (n/10%10), Nat.digitChar (n%10)]

def fourDigits (n : ℕ) : Text := twoDigits (n/100) ++ twoDigits n

def yearText (year : ℕ) : Text :=
  if year < 10000 then fourDigits year else Nat.digitChar (year/10000%10) :: fourDigits year

def clockText (time : CivilTime) : Text :=
  '-' :: twoDigits time.date.month ++ '-' :: twoDigits time.date.day ++ 'T' :: twoDigits time.hour ++
    ':' :: twoDigits time.minute ++ ':' :: twoDigits time.second

def fractionText (fraction : Text) : Text := if fraction = [] then [] else '.' :: fraction

/-- `2024-01-15T10:30:45.123456Z`, with the given digits of the fraction. -/
def timeText (time : CivilTime) (fraction : Text) : Text :=
  yearText time.date.year ++ clockText time ++ fractionText fraction ++ ['Z']

structure StatesFraction (time : CivilTime) (fraction : Text) : Prop where
  digits : ∀ c ∈ fraction, c.isDigit = true
  value : ∃ v, digitsValue 10 0 fraction = some v ∧ v*10^7 = time.ticks*10^fraction.length

/-- The fractions that survive: none at all, five zeros, or at least six digits of which only the
first six count. -/
def FractionKept (time : CivilTime) (fraction : Text) : Prop :=
  fraction = [] ∨ fraction.length = 5 ∧ time.ticks = 0 ∨ 6 ≤ fraction.length ∧ 10 ∣ time.ticks

theorem isLeapYear_iff (year : ℕ) : isLeapYear year = true ↔ IsLeap year := by
  unfold isLeapYear IsLeap
  simp only [Bool.or_eq_true, Bool.and_eq_true, decide_eq_true_eq]
  omega

theorem yearLength_eq (year : ℕ) :
    yearLength year = if isLeapYear year then 366 else 365 := by
  unfold yearLength
  simp only [isLeapYear_iff]

theorem daysOfYears_eq (n : ℕ) :
    daysOfYears n = ∑ y ∈ Finset.Ico 1970 (1970+n), yearLength y := by
  induction n with
  | zero => simp [daysOfYears]
  | succ n ih =>
    rw [daysOfYears, ih, ← add_assoc, Finset.sum_Ico_succ_top (by omega), yearLength_eq]
    push_cast
    rfl

theorem monthLength_eq (year n : ℕ) (h : n < 12) :
    ∃ length, daysInMonth[n]? = some length ∧
      monthLength year (n+1) = length + if n+1 = 2 ∧ isLeapYear year then 1 else 0 := by
  have hleap := isLeapYear_iff year
  interval_cases n
  all_goals refine ⟨_, rfl, ?_⟩
  -- only February depends on the year
  case «1» =>
    by_cases hyear : IsLeap year
    · simp [monthLength, hyear, hleap.mpr hyear]
    · have hno : isLeapYear year = false := by
        rw [← Bool.not_eq_true]
        exact fun hh => hyear (hleap.mp hh)
      simp [monthLength, hyear, hno]
  all_goals rfl

theorem daysOfMonths_eq (year n : ℕ) (h : n ≤ 12) :
    daysOfMonths year n = .ok (daysBeforeMonth year (n+1)) := by
  induction n with
  | zero => simp [daysOfMonths, daysBeforeMonth]
  | succ n ih =>
    obtain ⟨length, hlength, hmonth⟩ := monthLength_eq year n (by omega)
    rw [daysOfMonths, ih (by omega), daysBeforeMonth_succ year (n+1) (by omega), hmonth]
    simp only [hlength, bind, Except.bind]
    rw [add_assoc]

theorem TimestampParts.systemTime_eq (date : CivilDate) (hour minute second microseconds : ℕ) :
    TimestampParts.systemTime
        ⟨date.year, date.month, date.day, hour, minute, second, microseconds⟩ =
      .ok (((daysOfYears (date.year-1970) + daysBeforeMonth date.year date.month +
        (date.day-1) : ℕ)*86400 + hour*3600 + minute*60 + second)*10^7 + microseconds*10) := by
  have hmonth := date.month_range
  have hday := date.day_range
  have hcount : ((date.year : ℤ)-1970).toNat = date.year-1970 := by omega
  unfold TimestampParts.systemTime
  rw [daysOfMonths_eq date.year (date.month-1) (by omega), Nat.sub_add_cancel hmonth.1]
  simp only [bind, Except.bind, hcount]
  rw [if_neg (by omega)]
  push_cast
  rfl

theorem isDigit_digitChar (n : ℕ) : (Nat.digitChar (n%10)).isDigit = true := by
  have hlt := Nat.mod_lt n (show 0 < 10 by decide)
  interval_cases n%10 <;> decide

theorem utf8Size_of_isDigit {c : Char} (h : c.isDigit = true) : c.utf8Size = 1 := by
  have hc := (isDigit_iff c).mp h
  exact Char.utf8Size_eq_one_iff.mpr (UInt32.le_iff_toNat_le.mpr (by
    change c.toNat ≤ 127
    omega))

theorem utf8Size_digitChar (n : ℕ) : (Nat.digitChar (n%10)).utf8Size = 1 :=
  utf8Size_of_isDigit (isDigit_digitChar n)

theorem digitsValue_twoDigits (acc n : ℕ) :
    digitsValue 10 acc (twoDigits n) = some (acc*100+n%100) := by
  simp only [twoDigits, digitsValue, digitVal_digitChar _ (Nat.mod_lt _ (show 0 < 10 by decide)),
    bind_some, Option.some.injEq]
  omega

theorem parseU32_twoDigits (n : ℕ) (h : n < 100) : parseU32 (twoDigits n) = some n := by
  apply fromStrRadix_of_head
  · exact cons_ne_nil _ _
  · intro hh
    have hd := isDigit_digitChar (n/10)
    rw [Option.some.inj hh] at hd
    contradiction
  · rw [digitsValue_twoDigits, zero_mul, zero_add, Nat.mod_eq_of_lt h]
  · omega

theorem parseI32_fourDigits (n : ℕ) (h : n < 10000) : parseI32 (fourDigits n) = some (n : ℤ) := by
  have hhead (c : Char) (hc : c.isDigit = false) : (fourDigits n).head? ≠ some c := by
    intro hh
    have hd := isDigit_digitChar (n/100/10)
    rw [Option.some.inj hh, hc] at hd
    contradiction
  have hvalue : digitsValue 10 0 (fourDigits n) = some n := by
    rw [fourDigits, digitsValue_append, digitsValue_twoDigits, bind_some,
      digitsValue_twoDigits, Option.some.injEq]
    omega
  unfold parseI32
  split
  · rename_i s hs
    exact absurd (congrArg List.head? hs) (hhead '-' (by decide))
  · have hne : fourDigits n ≠ [] := cons_ne_nil _ _
    rw [fromStrRadix_of_head 10 (2^31) n _ hne (hhead '+' (by decide)) hvalue (by omega)]
    rfl

theorem utf8Size_timeText (time : CivilTime) (fraction : Text)
    (hfraction : ∀ c ∈ fraction, c.isDigit = true) :
    ∀ c ∈ timeText time fraction, c.utf8Size = 1 := by
  have htwo (n : ℕ) : ∀ c ∈ twoDigits n, c.utf8Size = 1 := by
    intro c hc
    rcases mem_pair.mp hc with rfl | rfl
    · exact utf8Size_digitChar _
    · exact utf8Size_digitChar _
  have hfour (n : ℕ) : ∀ c ∈ fourDigits n, c.utf8Size = 1 := by
    intro c hc
    rcases mem_append.mp hc with hc | hc
    · exact htwo _ c hc
    · exact htwo _ c hc
  have hyear : ∀ c ∈ yearText time.date.year, c.utf8Size = 1 := by
    intro c hc
    unfold yearText at hc
    split at hc
    · exact hfour _ c hc
    · rcases mem_cons.mp hc with rfl | hc
      · exact utf8Size_digitChar _
      · exact hfour _ c hc
  have hdigits : ∀ c ∈ fractionText fraction, c.utf8Size = 1 := by
    intro c hc
    unfold fractionText at hc
    split at hc
    · contradiction
    · rcases mem_cons.mp hc with rfl | hc
      · rfl
      · exact utf8Size_of_isDigit (hfraction c hc)
  intro c hc
  simp only [timeText, clockText, mem_append, mem_cons, not_mem_nil, or_false] at hc
  rcases hc with ((hc | ((((hc | hc) | hc | hc) | hc | hc) | hc | hc) | hc | hc) | hc) | hc
  · exact hyear c hc
  all_goals first
    | exact htwo _ c hc
    | exact hdigits c hc
    | (subst hc; rfl)

section Slices
variable (time : CivilTime) (fraction : Text) (hfraction : ∀ c ∈ fraction, c.isDigit = true)
include hfraction

theorem byteSlice_timeText (first last : ℕ) (h : first ≤ last) :
    byteSlice first last (timeText time fraction) =
      if last ≤ (timeText time fraction).length then
        some (((timeText time fraction).drop first).take (last-first))
      else none :=
  byteSlice_ascii (utf8Size_timeText time fraction hfraction) first last h

end Slices

theorem length_timeText (time : CivilTime) (fraction : Text) (hyear : time.date.year < 10000) :
    (timeText time fraction).length = 20 + (fractionText fraction).length := by
  simp only [timeText, yearText, if_pos hyear, fourDigits, twoDigits, clockText,
    length_append, length_cons, length_nil]
  omega

theorem timestampParts_timeText (time : CivilTime) (fraction : Text)
    (hfraction : ∀ c ∈ fraction, c.isDigit = true) (hyear : time.date.year < 10000) :
    timestampParts (timeText time fraction) =
      (timestampMicroseconds (timeText time fraction)).map fun microseconds =>
        ⟨time.date.year, time.date.month, time.date.day, time.hour, time.minute, time.second,
          microseconds⟩ := by
  have hmonth := time.date.month_range
  have hday : time.date.day < 100 := by
    have hrange := time.date.day_range
    have hlength := monthLength_le time.date.year time.date.month
    omega
  have hhour := time.hour_lt
  have hminute := time.minute_lt
  have hsecond := time.second_lt
  have hlen := length_timeText time fraction hyear
  have hslice (first last : ℕ) (h : first ≤ last) (hlast : last ≤ 19) :
      byteSlice first last (timeText time fraction) =
        some (((timeText time fraction).drop first).take (last-first)) := by
    rw [byteSlice_timeText time fraction hfraction first last h, if_pos (by omega)]
  have htext : timeText time fraction = fourDigits time.date.year ++ clockText time ++
      fractionText fraction ++ ['Z'] := by
    rw [timeText, yearText, if_pos hyear]
  have h₁ : ((timeText time fraction).drop 0).take (4-0) = fourDigits time.date.year := by
    rw [htext]
    rfl
  have h₂ : ((timeText time fraction).drop 5).take (7-5) = twoDigits time.date.month := by
    rw [htext]
    rfl
  have h₃ : ((timeText time fraction).drop 8).take (10-8) = twoDigits time.date.day := by
    rw [htext]
    rfl
  have h₄ : ((timeText time fraction).drop 11).take (13-11) = twoDigits time.hour := by
    rw [htext]
    rfl
  have h₅ : ((timeText time fraction).drop 14).take (16-14) = twoDigits time.minute := by
    rw [htext]
    rfl
  have h₆ : ((timeText time fraction).drop 17).take (19-17) = twoDigits time.second := by
    rw [htext]
    rfl
  unfold timestampParts
  rw [utf8Len_ascii (utf8Size_timeText time fraction hfraction), if_neg (by omega),
    hslice 0 4 (by omega) (by omega), hslice 5 7 (by omega) (by omega),
    hslice 8 10 (by omega) (by omega), hslice 11 13 (by omega) (by omega),
    hslice 14 16 (by omega) (by omega), hslice 17 19 (by omega) (by omega),
    h₁, h₂, h₃, h₄, h₅, h₆]
  simp only [bind_some, bind_eq_bind, parseI32_fourDigits _ hyear,
    parseU32_twoDigits _ (show time.date.month < 100 by omega), parseU32_twoDigits _ hday,
    parseU32_twoDigits _ (show time.hour < 100 by omega),
    parseU32_twoDigits _ (show time.minute < 100 by omega),
    parseU32_twoDigits _ (show time.second < 100 by omega)]
  cases timestampMicroseconds (timeText time fraction) <;> rfl

theorem timestampParts_long_year (time : CivilTime) (fraction : Text)
    (hfraction : ∀ c ∈ fraction, c.isDigit = true) (hyear : ¬ time.date.year < 10000) :
    timestampParts (timeText time fraction) = none := by
  have htext : timeText time fraction = Nat.digitChar (time.date.year/10000%10) ::
      fourDigits time.date.year ++ clockText time ++ fractionText fraction ++ ['Z'] := by
    rw [timeText, yearText, if_neg hyear]
  have hlen : (timeText time fraction).length = 21 + (fractionText fraction).length := by
    simp only [htext, fourDigits, twoDigits, clockText, length_append, length_cons, length_nil]
    omega
  have hpart : ((timeText time fraction).drop 5).take (7-5) =
      ['-', Nat.digitChar (time.date.month/10%10)] := by
    rw [htext]
    rfl
  have hmonth : parseU32 ['-', Nat.digitChar (time.date.month/10%10)] = none := rfl
  unfold timestampParts
  rw [utf8Len_ascii (utf8Size_timeText time fraction hfraction), if_neg (by omega),
    byteSlice_timeText time fraction hfraction 5 7 (by omega), if_pos (by omega), hpart,
    bind_some, hmonth]
  cases (byteSlice 0 4 (timeText time fraction)).bind parseI32 <;> rfl

section Fraction
variable (time : CivilTime) (fraction : Text) (hfraction : ∀ c ∈ fraction, c.isDigit = true)
  (hyear : time.date.year < 10000)
include hfraction hyear

theorem timestampMicroseconds_nil (hempty : fraction = []) :
    timestampMicroseconds (timeText time fraction) = some 0 := by
  have hlen := length_timeText time fraction hyear
  rw [hempty] at hlen
  unfold timestampMicroseconds
  rw [utf8Len_ascii (utf8Size_timeText time fraction hfraction), hempty, hlen]
  exact if_neg fun h => absurd h.1 (by decide)

theorem timestampMicroseconds_digits (hsome : fraction ≠ []) :
    timestampMicroseconds (timeText time fraction) =
      if 5 ≤ fraction.length then some ((parseU32 ((fraction ++ ['Z']).take 6)).getD 0)
      else none := by
  have htext : timeText time fraction = fourDigits time.date.year ++ clockText time ++
      '.' :: fraction ++ ['Z'] := by
    rw [timeText, yearText, if_pos hyear, fractionText, if_neg hsome]
  have hlen : (timeText time fraction).length = 21 + fraction.length := by
    rw [length_timeText time fraction hyear, fractionText, if_neg hsome, length_cons]
    omega
  have hpoint : ((timeText time fraction).drop 19).take (20-19) = ['.'] := by
    rw [htext]
    rfl
  have hrest : ((timeText time fraction).drop 20).take (26-20) = (fraction ++ ['Z']).take 6 := by
    rw [htext]
    rfl
  have hnineteen : byteSlice 19 20 (timeText time fraction) = some ['.'] := by
    rw [byteSlice_timeText time fraction hfraction 19 20 (by omega), if_pos (by omega), hpoint]
  unfold timestampMicroseconds
  rw [utf8Len_ascii (utf8Size_timeText time fraction hfraction), hnineteen,
    if_pos ⟨by omega, rfl⟩, byteSlice_timeText time fraction hfraction 20 26 (by omega), hrest]
  by_cases hfive : 5 ≤ fraction.length
  · rw [if_pos hfive, if_pos (by omega)]
    rfl
  · rw [if_neg hfive, if_neg (by omega)]
    rfl

end Fraction

theorem parseU32_five (fraction : Text) (hlen : fraction.length = 5) :
    parseU32 ((fraction ++ ['Z']).take 6) = none := by
  have hall : (fraction ++ ['Z']).take 6 = fraction ++ ['Z'] :=
    take_of_length_le (by simp [hlen])
  rw [hall]
  cases hparse : parseU32 (fraction ++ ['Z']) with
  | none => rfl
  | some n =>
    rcases mem_fromStrRadix_ten _ n _ hparse 'Z' (by simp) with h | h
    · exact absurd h (by decide)
    · exact absurd h (by decide)

theorem parseU32_take_six (fraction : Text) (hdigits : ∀ c ∈ fraction, c.isDigit = true)
    (hlen : 6 ≤ fraction.length) {v : ℕ} (hv : digitsValue 10 0 fraction = some v) :
    parseU32 ((fraction ++ ['Z']).take 6) = some (v/10^(fraction.length-6)) := by
  have htake : (fraction ++ ['Z']).take 6 = fraction.take 6 := take_append_of_le_length hlen
  have hfront : ∀ c ∈ fraction.take 6, c.isDigit = true :=
    fun c hc => hdigits c (mem_of_mem_take hc)
  obtain ⟨m, hm⟩ := exists_digitsValue 0 (fraction.take 6) hfront
  have hmlt : m < 10^6 := by
    have hbound := (digitsValue_bounds 10 0 m _ hm).2
    rwa [length_take_of_le hlen, zero_add, one_mul] at hbound
  have hsplit : digitsValue 10 m (fraction.drop 6) = some v := by
    rw [← hv, ← take_append_drop 6 fraction, digitsValue_append]
    rw [take_append_drop, hm, bind_some]
  -- the other digits are the remainder
  have hfirst : v/10^(fraction.length-6) = m := by
    obtain ⟨hlow, hhigh⟩ := digitsValue_bounds 10 m v _ hsplit
    rw [length_drop] at hlow hhigh
    exact Nat.div_eq_of_lt_le hlow hhigh
  rw [htake, hfirst]
  apply fromStrRadix_of_head
  · intro hnil
    have hzero := congrArg List.length hnil
    rw [length_take_of_le hlen] at hzero
    contradiction
  · intro hh
    exact absurd (hfront '+' (mem_of_head? hh)) (by decide)
  · exact hm
  · omega

theorem pow_ten_split {n : ℕ} (h : 6 ≤ n) : 10^n = 10^(n-6)*10^6 := by
  rw [← pow_add, Nat.sub_add_cancel h]

section
variable (time : CivilTime) (fraction : Text)

theorem parseU32_six (hstates : StatesFraction time fraction) (hlen : 6 ≤ fraction.length) :
    parseU32 ((fraction ++ ['Z']).take 6) = some (time.ticks/10) := by
  obtain ⟨hdigits, v, hv, hvalue⟩ := hstates
  rw [parseU32_take_six fraction hdigits hlen hv]
  congr 1
  have hpos : 0 < 10^(fraction.length-6) := Nat.pow_pos (by norm_num)
  rw [pow_ten_split hlen] at hvalue
  generalize 10^(fraction.length-6) = scale at hvalue hpos
  have hscaled : v*10 = time.ticks*scale := by
    have hmul : (v*10)*10^6 = (time.ticks*scale)*10^6 := by
      calc (v*10)*10^6 = v*10^7 := by ring
        _ = time.ticks*(scale*10^6) := hvalue
        _ = (time.ticks*scale)*10^6 := by ring
    exact Nat.eq_of_mul_eq_mul_right (by norm_num) hmul
  calc v/scale = v*10/(scale*10) := (Nat.mul_div_mul_right v scale (by norm_num)).symm
    _ = scale*time.ticks/(scale*10) := by rw [hscaled, mul_comm]
    _ = time.ticks/10 := Nat.mul_div_mul_left time.ticks 10 hpos

theorem dayNumber_eq_daysOfYears (date : CivilDate) (h : 1970 ≤ date.year) :
    (date.dayNumber : ℤ)-daysBeforeYear 1970 =
      (daysOfYears (date.year-1970) + daysBeforeMonth date.year date.month + (date.day-1) : ℕ) := by
  have hyears := daysBeforeYear_add 1970 date.year (by omega) h
  have hcount : daysOfYears (date.year-1970) = ∑ y ∈ Finset.Ico 1970 date.year, yearLength y := by
    rw [daysOfYears_eq, Nat.add_sub_cancel' h]
  unfold CivilDate.dayNumber
  rw [hyears, hcount]
  push_cast
  ring

theorem exists_parseIso8601Timestamp (hfraction : ∀ c ∈ fraction, c.isDigit = true) :
    ∃ timestamp, parseIso8601Timestamp (timeText time fraction) = .ok timestamp := by
  unfold parseIso8601Timestamp
  by_cases hyear : time.date.year < 10000
  · rw [timestampParts_timeText time fraction hfraction hyear]
    cases timestampMicroseconds (timeText time fraction) with
    | none => exact ⟨none, rfl⟩
    | some microseconds =>
      simp only [map_some, TimestampParts.systemTime_eq, Except.map]
      exact ⟨_, rfl⟩
  · rw [timestampParts_long_year time fraction hfraction hyear]
    exact ⟨none, rfl⟩

theorem parseIso8601Timestamp_eq_iff
    (hfraction : ∀ c ∈ fraction, c.isDigit = true) (hyear : time.date.year < 10000) :
    parseIso8601Timestamp (timeText time fraction) = .ok (some time.sinceEpoch) ↔
      1970 ≤ time.date.year ∧ ∃ microseconds,
        timestampMicroseconds (timeText time fraction) = some microseconds ∧
        microseconds*10 = time.ticks := by
  unfold parseIso8601Timestamp
  rw [timestampParts_timeText time fraction hfraction hyear]
  cases timestampMicroseconds (timeText time fraction) with
  | none =>
    constructor
    · intro h
      have hnone : (none : Option ℤ) = some time.sinceEpoch := Except.ok.inj h
      contradiction
    · rintro ⟨-, microseconds, hnone, -⟩
      contradiction
  | some microseconds =>
    simp only [map_some, TimestampParts.systemTime_eq, Except.map, Except.ok.injEq,
      Option.some.injEq]
    constructor
    · intro h
      have hpast : 1970 ≤ time.date.year := by
        by_contra hbefore
        have hneg := time.sinceEpoch_neg (by omega)
        rw [← h] at hneg
        omega
      refine ⟨hpast, microseconds, rfl, ?_⟩
      rw [CivilTime.sinceEpoch, dayNumber_eq_daysOfYears time.date hpast] at h
      omega
    · rintro ⟨hpast, found, rfl, hticks⟩
      rw [CivilTime.sinceEpoch, dayNumber_eq_daysOfYears time.date hpast, ← hticks]
      push_cast
      ring

theorem fractionKept_iff (hstates : StatesFraction time fraction) (hyear : time.date.year < 10000) :
    FractionKept time fraction ↔ ∃ microseconds,
      timestampMicroseconds (timeText time fraction) = some microseconds ∧
      microseconds*10 = time.ticks := by
  by_cases hempty : fraction = []
  · -- no digit, so the ticks are zero
    have hzero : time.ticks = 0 := by
      obtain ⟨v, hv, hvalue⟩ := hstates.value
      subst hempty
      simp only [digitsValue, Option.some.injEq] at hv
      simpa [← hv] using hvalue.symm
    rw [timestampMicroseconds_nil time fraction hstates.digits hyear hempty]
    exact iff_of_true (Or.inl hempty) ⟨0, rfl, by rw [hzero]⟩
  rw [timestampMicroseconds_digits time fraction hstates.digits hyear hempty]
  rcases lt_trichotomy fraction.length 5 with hshort | hfive | hlong
  · rw [if_neg (by omega)]
    apply iff_of_false
    · rintro (h | h | h)
      · exact hempty h
      · omega
      · omega
    · rintro ⟨_, h, -⟩
      contradiction
  · rw [if_pos (by omega), parseU32_five fraction hfive]
    constructor
    · rintro (h | h | h)
      · exact absurd h hempty
      · exact ⟨0, rfl, by omega⟩
      · omega
    · rintro ⟨microseconds, hmicro, hticks⟩
      have hzero : 0 = microseconds := Option.some.inj hmicro
      exact Or.inr (Or.inl ⟨hfive, by omega⟩)
  · rw [if_pos (by omega), parseU32_six time fraction hstates hlong]
    constructor
    · rintro (h | h | h)
      · exact absurd h hempty
      · omega
      · exact ⟨time.ticks/10, rfl, Nat.div_mul_cancel h.2⟩
    · rintro ⟨microseconds, hmicro, hticks⟩
      exact Or.inr (Or.inr ⟨hlong, Dvd.intro_left microseconds hticks⟩)

theorem parseIso8601Timestamp_timeText_iff (hstates : StatesFraction time fraction) :
    parseIso8601Timestamp (timeText time fraction) = .ok (some time.sinceEpoch) ↔
      (1970 ≤ time.date.year ∧ time.date.year < 10000) ∧ FractionKept time fraction := by
  by_cases hyear : time.date.year < 10000
  · rw [parseIso8601Timestamp_eq_iff time fraction hstates.digits hyear,
      fractionKept_iff time fraction hstates hyear, and_iff_left hyear]
  · rw [parseIso8601Timestamp, timestampParts_long_year time fraction hstates.digits hyear]
    constructor
    · intro h
      have hnone : (none : Option ℤ) = some time.sinceEpoch := Except.ok.inj h
      contradiction
    · exact fun h => absurd h.1.2 hyear

end

def fractionMicroseconds (fraction : Text) : ℕ :=
  (digitsValue 10 0 fraction).getD 0*10^6/10^fraction.length

theorem fractionMicroseconds_lt (fraction : Text) : fractionMicroseconds fraction < 10^6 := by
  have hvalue : (digitsValue 10 0 fraction).getD 0 < 10^fraction.length := by
    cases hv : digitsValue 10 0 fraction with
    | none => exact Nat.pow_pos (by norm_num)
    | some v =>
      have hbound := (digitsValue_bounds 10 0 v fraction hv).2
      rwa [zero_add, one_mul] at hbound
  apply Nat.div_lt_of_lt_mul
  exact Nat.mul_lt_mul_of_pos_right hvalue (by norm_num)

def truncatedTime (time : CivilTime) (fraction : Text) : CivilTime :=
  { time with
    ticks := fractionMicroseconds fraction*10
    ticks_lt := by
      have hlt := fractionMicroseconds_lt fraction
      omega }

theorem truncatedTime_fields (time : CivilTime) (fraction : Text) :
    (truncatedTime time fraction).date = time.date ∧
      (truncatedTime time fraction).hour = time.hour ∧
      (truncatedTime time fraction).minute = time.minute ∧
      (truncatedTime time fraction).second = time.second := by
  -- on a bare `time` the kernel would compare the ticks as well
  cases time
  exact ⟨rfl, rfl, rfl, rfl⟩

theorem timeText_truncatedTime (time : CivilTime) (fraction digits : Text) :
    timeText (truncatedTime time fraction) digits = timeText time digits := by
  obtain ⟨hdate, hhour, hminute, hsecond⟩ := truncatedTime_fields time fraction
  rw [timeText, timeText, clockText, clockText, hdate, hhour, hminute, hsecond]

theorem sinceEpoch_truncatedTime (time : CivilTime) (fraction : Text) :
    (truncatedTime time fraction).sinceEpoch =
      time.sinceEpoch-time.ticks+fractionMicroseconds fraction*10 := by
  obtain ⟨hdate, hhour, hminute, hsecond⟩ := truncatedTime_fields time fraction
  have hticks : (truncatedTime time fraction).ticks = fractionMicroseconds fraction*10 := rfl
  rw [CivilTime.sinceEpoch, CivilTime.sinceEpoch, add_sub_cancel_right, hdate, hhour, hminute,
    hsecond, hticks, Nat.cast_mul, Nat.cast_ofNat]

theorem fractionMicroseconds_long {fraction : Text} (hlen : 6 ≤ fraction.length) {v : ℕ}
    (hv : digitsValue 10 0 fraction = some v) :
    fractionMicroseconds fraction = v/10^(fraction.length-6) := by
  rw [fractionMicroseconds, hv, getD_some, pow_ten_split hlen]
  exact Nat.mul_div_mul_right v _ (by norm_num)

theorem timestampMicroseconds_eq_iff (time : CivilTime) (fraction : Text)
    (hfraction : ∀ c ∈ fraction, c.isDigit = true) (hyear : time.date.year < 10000) :
    timestampMicroseconds (timeText time fraction) = some (fractionMicroseconds fraction) ↔
      fraction = [] ∨ fraction.length = 5 ∧ fractionMicroseconds fraction = 0 ∨
        6 ≤ fraction.length := by
  by_cases hempty : fraction = []
  · rw [timestampMicroseconds_nil time fraction hfraction hyear hempty, hempty]
    exact iff_of_true rfl (Or.inl rfl)
  rw [timestampMicroseconds_digits time fraction hfraction hyear hempty, or_iff_right hempty]
  rcases lt_trichotomy fraction.length 5 with hshort | hfive | hlong
  · rw [if_neg (by omega)]
    apply iff_of_false
    · exact nofun
    · omega
  · rw [if_pos (by omega), parseU32_five fraction hfive, getD_none, Option.some.injEq]
    constructor
    · intro hzero
      exact Or.inl ⟨hfive, hzero.symm⟩
    · rintro (⟨-, hzero⟩ | hsix)
      · exact hzero.symm
      · omega
  · obtain ⟨v, hv⟩ := exists_digitsValue 0 fraction hfraction
    rw [if_pos (by omega), parseU32_take_six fraction hfraction hlong hv, getD_some,
      fractionMicroseconds_long hlong hv]
    exact iff_of_true rfl (Or.inr hlong)

/-- The text of a moment from 1970 to 9999 with any digits is read as the moment that it denotes,
truncated to microseconds, exactly if it has no fraction, five zeros or at least six digits. -/
theorem timestamp_truncated_iff (time : CivilTime) (fraction : Text)
    (hyear : 1970 ≤ time.date.year ∧ time.date.year ≤ 9999)
    (hfraction : ∀ c ∈ fraction, c.isDigit = true) :
    parseIso8601Timestamp (timeText time fraction) =
        .ok (some (truncatedTime time fraction).sinceEpoch) ↔
      fraction = [] ∨ fraction.length = 5 ∧ fractionMicroseconds fraction = 0 ∨
        6 ≤ fraction.length := by
  have hbefore : time.date.year < 10000 := by omega
  have hdate := (truncatedTime_fields time fraction).1
  have hticks (microseconds : ℕ) : microseconds*10 = (truncatedTime time fraction).ticks ↔
      microseconds = fractionMicroseconds fraction :=
    Nat.mul_left_inj (by norm_num)
  rw [← timeText_truncatedTime time fraction fraction,
    parseIso8601Timestamp_eq_iff (truncatedTime time fraction) fraction hfraction
      (by rw [hdate]; exact hbefore),
    timeText_truncatedTime, hdate, and_iff_right hyear.1,
    ← timestampMicroseconds_eq_iff time fraction hfraction hbefore]
  simp only [hticks, exists_eq_right]

def leapMorning : CivilTime where
  date := ⟨2020, 2, 29, by decide, by decide, by decide⟩
  hour := 8
  minute := 7
  second := 6
  ticks := 0
  hour_lt := by decide
  minute_lt := by decide
  second_lt := by decide
  ticks_lt := by decide

theorem timestamp_truncated_seven_digits :
    parseIso8601Timestamp (timeText leapMorning "1234567".toList) =
      .ok (some (truncatedTime leapMorning "1234567".toList).sinceEpoch) :=
  (timestamp_truncated_iff leapMorning "1234567".toList (by decide)
    (forall_mem_of_all (by decide))).mpr (Or.inr (Or.inr (by decide)))

/-- With one digit the text is rejected, and with five digits the fraction is lost. -/
theorem timestamp_short_fraction_lost :
    timeText leapMorning "5".toList = "2020-02-29T08:07:06.5Z".toList ∧
      parseIso8601Timestamp (timeText leapMorning "5".toList) = .ok none ∧
      parseIso8601Timestamp (timeText leapMorning "12345".toList) =
        .ok (some leapMorning.sinceEpoch) ∧
      (truncatedTime leapMorning "12345".toList).sinceEpoch = leapMorning.sinceEpoch+1234500 := by
  have hone : ∀ c ∈ "5".toList, c.isDigit = true := forall_mem_of_all (by decide)
  have hfive : ∀ c ∈ "12345".toList, c.isDigit = true := forall_mem_of_all (by decide)
  refine ⟨by decide, ?_, ?_, ?_⟩
  · rw [parseIso8601Timestamp, timestampParts_timeText _ _ hone (by decide),
      timestampMicroseconds_digits _ _ hone (by decide) (by decide), if_neg (by decide)]
    rfl
  · apply (parseIso8601Timestamp_eq_iff leapMorning _ hfive (by decide)).mpr
    refine ⟨by decide, 0, ?_, rfl⟩
    rw [timestampMicroseconds_digits _ _ hfive (by decide) (by decide), if_pos (by decide),
      parseU32_five _ (by decide)]
    rfl
  · have hmicroseconds : fractionMicroseconds "12345".toList = 123450 := by decide
    have hticks : (leapMorning.ticks : ℤ) = 0 := rfl
    rw [sinceEpoch_truncatedTime, hmicroseconds, hticks]
    ring

end WindowsErg.Evt
