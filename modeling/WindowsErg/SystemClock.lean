import WindowsErg.GuardedRun

/-! Durations and points in time as the standard library keeps them on Windows. Sums that leave
their range stop the program. -/
namespace SystemClock
open GuardedRun Guarded

def u64Limit : ℕ := 2^64

def i64Limit : ℕ := 2^63

structure Duration where
  secs : ℕ
  nanos : ℕ
  deriving DecidableEq, Repr

namespace Duration

/-- Nanoseconds beyond a second are carried over. -/
def new (secs nanos : ℕ) : Guarded Duration :=
  if nanos < 10^9 then pure ⟨secs, nanos⟩
  else do
    let secs ← addIn u64Limit secs (nanos/10^9)
    pure ⟨secs, nanos%10^9⟩

def fromSecs (secs : ℕ) : Duration := ⟨secs, 0⟩

def fromMicros (micros : ℕ) : Duration := ⟨micros/10^6, micros%10^6*1000⟩

def fromNanos (nanos : ℕ) : Duration := ⟨nanos/10^9, nanos%10^9⟩

def add (a b : Duration) : Guarded Duration := do
  let secs ← addIn u64Limit a.secs b.secs
  if a.nanos+b.nanos < 10^9 then pure ⟨secs, a.nanos+b.nanos⟩
  else
    let secs ← addIn u64Limit secs 1
    pure ⟨secs, a.nanos+b.nanos-10^9⟩

def asMillis (d : Duration) : ℕ := d.secs*1000 + d.nanos/10^6

def ticks (d : Duration) : ℕ := d.secs*10^7 + d.nanos/100

def intervals (d : Duration) : Guarded ℕ := do
  let whole ← mulIn u64Limit d.secs (10^7)
  let all ← addIn u64Limit whole (d.nanos/100)
  check (all < i64Limit) .overflow
  pure all

theorem value_intervals (d : Duration) : d.intervals.value = d.ticks := rfl

theorem safe_intervals (d : Duration) : d.intervals.Safe ↔ d.ticks < i64Limit := by
  rw [intervals, safe_bind, safe_bind, safe_bind, safe_mulIn, safe_addIn, safe_check, value_mulIn,
    value_addIn, ticks]
  simp only [safe_pure, and_true, u64Limit, i64Limit]
  omega

theorem new_of_lt {secs nanos : ℕ} (h : nanos < 10^9) : new secs nanos = pure ⟨secs, nanos⟩ :=
  if_pos h

theorem add_of_lt {a b : Duration} (hsecs : a.secs+b.secs < u64Limit)
    (hnanos : a.nanos+b.nanos < 10^9) :
    a.add b = pure ⟨a.secs+b.secs, a.nanos+b.nanos⟩ := by
  rw [add, addIn_eq hsecs]
  exact if_pos hnanos

theorem ticks_fromNanos (nanos : ℕ) : (fromNanos (nanos*100)).ticks = nanos := by
  unfold fromNanos ticks
  dsimp only
  omega

end Duration

structure SystemTime where
  intervals : ℤ
  deriving DecidableEq, Repr

def unixEpoch : SystemTime := ⟨116444736000000000⟩

namespace SystemTime

def sinceUnixEpoch (t : SystemTime) : ℤ := t.intervals-unixEpoch.intervals

def add (t : SystemTime) (d : Duration) : Guarded SystemTime := do
  let n ← d.intervals
  check (t.intervals+n < i64Limit) .overflow
  pure ⟨t.intervals+n⟩

def sub (t : SystemTime) (d : Duration) : Guarded SystemTime := do
  let n ← d.intervals
  check (-i64Limit ≤ t.intervals-n) .overflow
  pure ⟨t.intervals-n⟩

theorem value_add (t : SystemTime) (d : Duration) : (t.add d).value = ⟨t.intervals+d.ticks⟩ := rfl

theorem safe_add {t : SystemTime} {d : Duration} (ht : 0 ≤ t.intervals) :
    (t.add d).Safe ↔ t.intervals+d.ticks < i64Limit := by
  rw [add, safe_bind, safe_bind, d.safe_intervals, safe_check, d.value_intervals]
  simp only [safe_pure, and_true]
  omega

theorem add_units {t : SystemTime} (ht : 0 ≤ t.intervals) {n : ℕ} (h : t.intervals+n < i64Limit) :
    (do
      let duration ← Duration.new (n/10000000) (n%10000000*100)
      t.add duration) = pure ⟨t.intervals+n⟩ := by
  have hticks : Duration.ticks ⟨n/10000000, n%10000000*100⟩ = n := by
    unfold Duration.ticks
    dsimp only
    omega
  have hsafe : (t.add ⟨n/10000000, n%10000000*100⟩).Safe := by
    rw [safe_add ht, hticks]
    exact h
  rw [Duration.new_of_lt (by omega), pure_bind, eq_pure_of_safe hsafe, value_add, hticks]

end SystemTime

end SystemClock
