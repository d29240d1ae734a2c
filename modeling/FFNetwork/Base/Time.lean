import Mathlib.Algebra.Order.Ring.Int

/-!
# Time points and durations

`source/base/time/time_delta.h` and `time_point.h`: a duration and a point in time are each one
`int64_t` number of nanoseconds.  The model keeps the 64-bit representation, so that sums and
differences wrap as the machine's do; the lemmas say when they do not.
-/

namespace FFNetwork

/-- The range of `int64_t`. -/
def FitsInt64 (n : ℤ) : Prop := -2 ^ 63 ≤ n ∧ n < 2 ^ 63

instance (n : ℤ) : Decidable (FitsInt64 n) := inferInstanceAs (Decidable (_ ∧ _))

/-! ## TimeDelta -/

/-- The difference between two points in time, in nanoseconds. -/
structure TimeDelta where
  delta_ : Int64
deriving DecidableEq, Repr

/-- `TimeDelta::Zero`. -/
def TimeDelta.zero : TimeDelta := ⟨0⟩

/-- `TimeDelta::Max`. -/
def TimeDelta.max : TimeDelta := ⟨Int64.maxValue⟩

/-- `TimeDelta::FromNanoseconds`. -/
def TimeDelta.fromNanoseconds (nanosecond : Int64) : TimeDelta := ⟨nanosecond⟩

/-- `TimeDelta::FromMicroseconds`; the product wraps. -/
def TimeDelta.fromMicroseconds (micros : Int64) : TimeDelta :=
  TimeDelta.fromNanoseconds (micros * 1000)

/-- `TimeDelta::FromMilliseconds`; the products wrap. -/
def TimeDelta.fromMilliseconds (millis : Int64) : TimeDelta :=
  TimeDelta.fromMicroseconds (millis * 1000)

/-- `TimeDelta::ToNanoseconds`. -/
def TimeDelta.toNanoseconds (d : TimeDelta) : Int64 := d.delta_

/-- `TimeDelta::ToMicroseconds`, rounded towards zero. -/
def TimeDelta.toMicroseconds (d : TimeDelta) : Int64 := d.toNanoseconds / 1000

/-- `TimeDelta::ToMilliseconds`, rounded towards zero. -/
def TimeDelta.toMilliseconds (d : TimeDelta) : Int64 := d.toMicroseconds / 1000

/-- `TimeDelta::operator-`. -/
def TimeDelta.sub (a b : TimeDelta) : TimeDelta := TimeDelta.fromNanoseconds (a.delta_ - b.delta_)

/-- The comparison operators of `TimeDelta` compare the counts. -/
instance : LE TimeDelta := ⟨fun a b => a.delta_ ≤ b.delta_⟩

instance (a b : TimeDelta) : Decidable (a ≤ b) := inferInstanceAs (Decidable (a.delta_ ≤ b.delta_))

/-! ## TimePoint -/

/-- Nanoseconds since an arbitrary point in the past. -/
structure TimePoint where
  ticks_ : Int64
deriving Repr

/-- `TimePoint::Max`. -/
def TimePoint.max : TimePoint := ⟨Int64.maxValue⟩

/-- The number of nanoseconds as an integer. -/
def TimePoint.ticks (t : TimePoint) : ℤ := t.ticks_.toInt

lemma TimePoint.ticks_injective : Function.Injective TimePoint.ticks := by
  rintro ⟨a⟩ ⟨b⟩ h
  exact congrArg TimePoint.mk (Int64.toInt_inj.mp h)

/-- The comparison operators of `TimePoint` compare the tick counts. -/
instance : LinearOrder TimePoint :=
  LinearOrder.lift' TimePoint.ticks TimePoint.ticks_injective

lemma TimePoint.le_iff {a b : TimePoint} : a ≤ b ↔ a.ticks ≤ b.ticks := Iff.rfl

lemma TimePoint.le_max (t : TimePoint) : t ≤ TimePoint.max := by
  rw [TimePoint.le_iff]
  exact Int64.toInt_le t.ticks_

/-- `TimePoint::operator-(TimePoint)`. -/
def TimePoint.sub (a b : TimePoint) : TimeDelta :=
  TimeDelta.fromNanoseconds (a.ticks_ - b.ticks_)

/-- `TimePoint::operator+(TimeDelta)`. -/
def TimePoint.add (a : TimePoint) (duration : TimeDelta) : TimePoint :=
  ⟨a.ticks_ + duration.toNanoseconds⟩

/-! ## `struct timespec` -/

/-- `struct timespec`. -/
structure Timespec where
  tv_sec : Int64
  tv_nsec : Int64
deriving DecidableEq, Repr

/-- The nanoseconds that a `timespec` stands for. -/
def Timespec.nanoseconds (t : Timespec) : ℤ := t.tv_sec.toInt * 1000000000 + t.tv_nsec.toInt

/-! ## What the conversions compute -/

/-- On durations that are not negative, `ToMilliseconds` rounds down. -/
lemma TimeDelta.toInt_toMilliseconds {d : TimeDelta} (hd : 0 ≤ d.delta_.toInt) :
    d.toMilliseconds.toInt = d.delta_.toInt / 1000000 := by
  have h1000 : (1000 : Int64).toInt = 1000 := rfl
  have hne : (1000 : Int64) ≠ -1 := by decide
  have hmicro : d.toMicroseconds.toInt = d.delta_.toInt / 1000 := by
    rw [toMicroseconds, toNanoseconds, Int64.toInt_div_of_ne_right _ _ hne, h1000]
    exact Int.tdiv_eq_ediv_of_nonneg hd
  rw [toMilliseconds, Int64.toInt_div_of_ne_right _ _ hne, h1000, hmicro,
    Int.tdiv_eq_ediv_of_nonneg (by omega)]
  omega

/-- The difference of two readings of a clock that does not go back, less than `2 ^ 63` apart. -/
lemma TimePoint.toInt_sub {a b : TimePoint} (hba : b ≤ a) (hfit : a.ticks - b.ticks < 2 ^ 63) :
    (a.sub b).delta_.toInt = a.ticks - b.ticks := by
  rw [TimePoint.le_iff] at hba
  show (a.ticks_ - b.ticks_).toInt = a.ticks_.toInt - b.ticks_.toInt
  rw [Int64.toInt_sub]
  simp only [TimePoint.ticks] at hba hfit
  exact Int.bmod_eq_of_le (by omega) (by omega)

end FFNetwork
