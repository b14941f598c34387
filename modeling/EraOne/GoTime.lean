import Mathlib

set_option autoImplicit false

/- Instants and durations as Go's package `time` computes them, without monotonic readings: seconds
since the year 1 in an int64, nanoseconds within the second, and int64 nanoseconds of a duration. -/
namespace EraOne.GoTime

abbrev Duration := Int64

def second : Duration := 1000000000

def minute : Duration := 60 * second

def hour : Duration := 60 * minute

structure Time where
  sec : Int64
  nsec : Nat
  small : nsec < 1000000000
  deriving DecidableEq

/-- The zero value of a time. -/
def zeroTime : Time := ⟨0, 0, by decide⟩

/-- The nanoseconds since the year 1. -/
def Time.nanos (t : Time) : Int := t.sec.toInt * 1000000000 + t.nsec

/-- From the year 1 to 1970. -/
@[irreducible]
def unixToInternal : Int64 := 62135596800

/-- `Unix(sec, 0)`. -/
def unix (sec : Int64) : Time := ⟨sec + unixToInternal, 0, by decide⟩

/-- `t.Unix()`. -/
def Time.toUnix (t : Time) : Int64 := t.sec + -unixToInternal

@[irreducible]
def Time.after (t u : Time) : Bool := u.sec < t.sec || t.sec == u.sec && u.nsec < t.nsec

@[irreducible]
def Time.before (t u : Time) : Bool := t.sec < u.sec || t.sec == u.sec && t.nsec < u.nsec

def Time.isZero (t : Time) : Bool := t.sec == 0 && t.nsec == 0

@[simp]
theorem toUnix_unix (sec : Int64) : (unix sec).toUnix = sec := by
  unfold unix Time.toUnix
  grind

theorem before_iff_after (t u : Time) : t.before u = u.after t := by
  unfold Time.before Time.after
  rw [Bool.beq_comm]

@[simp]
theorem after_iff (t u : Time) : t.after u = true ↔ u.nanos < t.nanos := by
  have := t.small
  have := u.small
  unfold Time.after
  simp only [Time.nanos, Bool.or_eq_true, Bool.and_eq_true, decide_eq_true_eq, beq_iff_eq,
    Int64.lt_iff_toInt_lt, ← Int64.toInt_inj]
  omega

@[simp]
theorem before_iff (t u : Time) : t.before u = true ↔ t.nanos < u.nanos := by
  rw [before_iff_after, after_iff]

/-- Seconds added to a time, held within the range of int64. -/
def addSec (sec d : Int64) : Int64 :=
  let sum := sec + d
  if decide (sec < sum) = decide (0 < d) then sum
  else if 0 < d then Int64.maxValue
  else -Int64.maxValue

theorem rem_second (d : Duration) :
    -1000000000 < (d % second).toInt ∧ (d % second).toInt < 1000000000 := by
  rw [Int64.toInt_mod, show second.toInt = 1000000000 from rfl]
  exact ⟨Int.lt_tmod_of_pos _ (by decide), Int.tmod_lt_of_pos _ (by decide)⟩

/-- `t.Add(d)`: the nanoseconds carry into the seconds either way. -/
@[irreducible]
def Time.add (t : Time) (d : Duration) : Time :=
  let dsec := d / second
  let nsec := (t.nsec : Int) + (d % second).toInt
  if high : nsec ≥ 1000000000 then
    ⟨addSec t.sec (dsec + 1), (nsec - 1000000000).toNat, by
      have := t.small
      have := rem_second d
      omega⟩
  else if low : nsec < 0 then
    ⟨addSec t.sec (dsec - 1), (nsec + 1000000000).toNat, by omega⟩
  else
    ⟨addSec t.sec dsec, nsec.toNat, by omega⟩

theorem toInt_add_of_fits (a b : Int64) (low : -2 ^ 63 ≤ a.toInt + b.toInt)
    (high : a.toInt + b.toInt < 2 ^ 63) : (a + b).toInt = a.toInt + b.toInt := by
  rw [Int64.toInt_add]
  exact Int.bmod_eq_of_le (by omega) (by omega)

/-- The last second since 1970 that an instant can hold. -/
def lastUnix : Int64 := Int64.maxValue - unixToInternal

theorem unixToInternal_toInt : unixToInternal.toInt = 62135596800 := by
  unfold unixToInternal
  rfl

theorem lastUnix_toInt : lastUnix.toInt = 9223371974719179007 := by
  unfold lastUnix unixToInternal
  decide

theorem unix_sec_of_le (sec : Int64) (fits : sec ≤ lastUnix) :
    (unix sec).sec.toInt = sec.toInt + 62135596800 := by
  have low := sec.le_toInt
  have high : sec.toInt ≤ lastUnix.toInt := Int64.le_iff_toInt_le.mp fits
  rw [lastUnix_toInt] at high
  have sum := toInt_add_of_fits sec unixToInternal
  rw [unixToInternal_toInt] at sum
  exact sum (by omega) (by omega)

theorem toUnix_of_ge (t : Time) (fits : -2 ^ 63 + 62135596800 ≤ t.sec.toInt) :
    t.toUnix.toInt = t.sec.toInt - 62135596800 := by
  have high := t.sec.toInt_lt
  have back : (-unixToInternal).toInt = -62135596800 := by
    unfold unixToInternal
    decide
  have sum := toInt_add_of_fits t.sec (-unixToInternal) (by rw [back]; omega) (by rw [back]; omega)
  rw [back] at sum
  exact sum

end EraOne.GoTime
