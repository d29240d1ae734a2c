import FFNetwork.Base.Time

/-!
# Durations and `timespec`

`TimeDelta::ToTimespec` and `FromTimespec` of `source/base/time/time_delta.h`.  The seconds of a
duration come from three divisions by 1000 and the nanoseconds from a remainder, all rounded towards
zero.

* `toInt_sec_toTimespec`, `toInt_nsec_toTimespec` — what `ToTimespec` computes.
* `fromTimespec_of_fits` — what `FromTimespec` computes, when it fits.
* **`timespec_roundTrips`** — from a duration to a `timespec` and back nothing is lost, and the
  other way iff the `timespec` is not negative or has no nanoseconds.
-/

namespace FFNetwork

namespace TimeDelta

/-- `FromSeconds`; the products wrap. -/
def fromSeconds (seconds : Int64) : TimeDelta := fromMilliseconds (seconds * 1000)

/-- `ToSeconds`, rounded towards zero. -/
def toSeconds (d : TimeDelta) : Int64 := d.toMilliseconds / 1000

/-- `TimeDelta::operator+`. -/
def add (a b : TimeDelta) : TimeDelta := fromNanoseconds (a.delta_ + b.delta_)

/-- `FromTimespec`; product and sum wrap. -/
def fromTimespec (ts : Timespec) : TimeDelta :=
  (fromSeconds ts.tv_sec).add (fromNanoseconds ts.tv_nsec)

/-- `ToTimespec`; the remainder has the sign of the duration. -/
def toTimespec (d : TimeDelta) : Timespec := ⟨d.toSeconds, d.delta_ % 1000000000⟩

end TimeDelta

lemma Timespec.eq_iff {a b : Timespec} :
    a = b ↔ a.tv_sec.toInt = b.tv_sec.toInt ∧ a.tv_nsec.toInt = b.tv_nsec.toInt := by
  rcases a with ⟨sec, nsec⟩
  rcases b with ⟨sec', nsec'⟩
  rw [Int64.toInt_inj, Int64.toInt_inj, Timespec.mk.injEq]

/-- The nanoseconds are part of a second. -/
def Timespec.Normalised (ts : Timespec) : Prop :=
  0 ≤ ts.tv_nsec.toInt ∧ ts.tv_nsec.toInt < 1000000000

instance (ts : Timespec) : Decidable ts.Normalised := inferInstanceAs (Decidable (_ ∧ _))

/-- No product or sum in `FromTimespec` overflows. -/
structure Timespec.NoOverflow (ts : Timespec) : Prop where
  millis : FitsInt64 (ts.tv_sec.toInt * 1000)
  micros : FitsInt64 (ts.tv_sec.toInt * 1000 * 1000)
  nanos : FitsInt64 (ts.tv_sec.toInt * 1000 * 1000 * 1000)
  sum : FitsInt64 ts.nanoseconds

namespace TimeDelta

variable {d : TimeDelta} {ts : Timespec}

/-- Rounding towards zero twice is rounding once. -/
lemma tdiv_tdiv (n : ℤ) (b c : ℕ) : (n.tdiv b).tdiv c = n.tdiv (b * c : ℕ) := by
  rcases n.eq_nat_or_neg with ⟨k, rfl | rfl⟩
  · rw [← Int.ofNat_tdiv, ← Int.ofNat_tdiv, ← Int.ofNat_tdiv, Nat.div_div_eq_div_mul]
  · rw [Int.neg_tdiv, Int.neg_tdiv, Int.neg_tdiv, ← Int.ofNat_tdiv, ← Int.ofNat_tdiv,
      ← Int.ofNat_tdiv, Nat.div_div_eq_div_mul]

lemma toInt_sec_toTimespec (d : TimeDelta) :
    d.toTimespec.tv_sec.toInt = d.delta_.toInt.tdiv 1000000000 := by
  have hne : (1000 : Int64) ≠ -1 := by decide
  have h1000 : (1000 : Int64).toInt = (1000 : ℕ) := rfl
  rw [toTimespec, toSeconds, toMilliseconds, toMicroseconds, toNanoseconds,
    Int64.toInt_div_of_ne_right _ _ hne, Int64.toInt_div_of_ne_right _ _ hne,
    Int64.toInt_div_of_ne_right _ _ hne, h1000, tdiv_tdiv, tdiv_tdiv]
  rfl

lemma toInt_nsec_toTimespec (d : TimeDelta) :
    d.toTimespec.tv_nsec.toInt = d.delta_.toInt.tmod 1000000000 := by
  rw [toTimespec, Int64.toInt_mod]
  rfl

/-- `FromTimespec` is the exact sum, cut to 64 bits. -/
lemma toInt_fromTimespec (ts : Timespec) :
    (fromTimespec ts).delta_.toInt = ts.nanoseconds.bmod (2 ^ 64) := by
  have hmul : ts.tv_sec * 1000 * 1000 * 1000 = ts.tv_sec * 1000000000 := by
    rw [Int64.mul_assoc, Int64.mul_assoc]
    rfl
  show (ts.tv_sec * 1000 * 1000 * 1000 + ts.tv_nsec).toInt = _
  rw [hmul, Int64.toInt_add, Int64.toInt_mul, Int.bmod_add_bmod]
  rfl

lemma fromTimespec_of_fits (hfits : FitsInt64 ts.nanoseconds) :
    (fromTimespec ts).delta_.toInt = ts.nanoseconds := by
  rw [toInt_fromTimespec]
  have hlow := hfits.1
  have hhigh := hfits.2
  exact Int.bmod_eq_of_le (by omega) (by omega)

/-- The `timespec` of a duration stands for the duration. -/
lemma nanoseconds_toTimespec (d : TimeDelta) : d.toTimespec.nanoseconds = d.delta_.toInt := by
  rw [Timespec.nanoseconds, toInt_sec_toTimespec, toInt_nsec_toTimespec, Int.mul_comm]
  exact Int.mul_tdiv_add_tmod _ _

lemma fromTimespec_toTimespec (d : TimeDelta) : fromTimespec d.toTimespec = d := by
  have hint : (fromTimespec d.toTimespec).delta_.toInt = d.delta_.toInt := by
    have hsum := nanoseconds_toTimespec d
    rw [fromTimespec_of_fits (hsum ▸ ⟨d.delta_.le_toInt, d.delta_.toInt_lt⟩), hsum]
  rcases d with ⟨delta⟩
  exact congrArg TimeDelta.mk (Int64.toInt_inj.mp hint)

lemma normalised_toTimespec_iff (d : TimeDelta) :
    d.toTimespec.Normalised ↔ 0 ≤ d.delta_.toInt ∨ 1000000000 ∣ d.delta_.toInt := by
  rw [Timespec.Normalised, toInt_nsec_toTimespec, Int.tmod_eq_emod]
  split
  · omega
  · omega

/-- The products on the way back are no larger than the duration. -/
lemma noOverflow_toTimespec (d : TimeDelta) : d.toTimespec.NoOverflow := by
  have hlow := d.delta_.le_toInt
  have hhigh := d.delta_.toInt_lt
  have hsec := toInt_sec_toTimespec d
  have hsum := nanoseconds_toTimespec d
  rw [Int.tdiv_eq_ediv] at hsec
  have hsign : Int.sign 1000000000 = 1 := rfl
  rw [hsign] at hsec
  refine ⟨⟨?_, ?_⟩, ⟨?_, ?_⟩, ⟨?_, ?_⟩, ⟨?_, ?_⟩⟩ <;> split at hsec <;> omega

/-- A `timespec` is that of a duration, if it stands for it and its parts have one sign. -/
lemma toTimespec_eq_iff {ts : Timespec} (hts : ts.Normalised)
    (hd : d.delta_.toInt = ts.nanoseconds) :
    d.toTimespec = ts ↔ 0 ≤ ts.tv_sec.toInt ∨ ts.tv_nsec.toInt = 0 := by
  have hsec := toInt_sec_toTimespec d
  have hnsec := toInt_nsec_toTimespec d
  have hsign : Int.sign 1000000000 = 1 := rfl
  have hlow := hts.1
  have hhigh := hts.2
  rw [Timespec.eq_iff, hsec, hnsec, hd, Timespec.nanoseconds, Int.tdiv_eq_ediv, Int.tmod_eq_emod,
    hsign]
  split
  · omega
  · omega

end TimeDelta

/-! ## There and back -/

/-- A duration becomes a normalised `timespec`, and from it the duration again without an overflow
on the way. -/
structure TimeDelta.RoundTrips (d : TimeDelta) : Prop where
  back : TimeDelta.fromTimespec d.toTimespec = d
  noOverflow : d.toTimespec.NoOverflow
  normalised : d.toTimespec.Normalised

/-- A `timespec` becomes a duration, and from it the `timespec` again. -/
def Timespec.RoundTrips (ts : Timespec) : Prop := (TimeDelta.fromTimespec ts).toTimespec = ts

instance (ts : Timespec) : Decidable ts.RoundTrips := inferInstanceAs (Decidable (_ = _))

/-- **When nothing is lost.**  A duration comes back from its `timespec`, but if it is negative that
one is normalised only for whole seconds; and a normalised `timespec` comes back from its duration
only if it is not negative or has no nanoseconds. -/
theorem timespec_roundTrips (d : TimeDelta) (ts : Timespec) (hts : ts.Normalised)
    (hfits : FitsInt64 ts.nanoseconds) :
    (TimeDelta.fromTimespec d.toTimespec = d ∧ d.toTimespec.NoOverflow) ∧
      (d.RoundTrips ↔ 0 ≤ d.delta_.toInt ∨ 1000000000 ∣ d.delta_.toInt) ∧
      (ts.RoundTrips ↔ 0 ≤ ts.tv_sec.toInt ∨ ts.tv_nsec.toInt = 0) := by
  have hback := TimeDelta.fromTimespec_toTimespec d
  have hover := d.noOverflow_toTimespec
  refine ⟨⟨hback, hover⟩, ?_,
    TimeDelta.toTimespec_eq_iff hts (TimeDelta.fromTimespec_of_fits hfits)⟩
  rw [← d.normalised_toTimespec_iff]
  exact ⟨fun h => h.normalised, fun h => ⟨hback, hover, h⟩⟩

/-- A second and a half, and the shortest duration. -/
theorem timespec_roundTrips_positive :
    (TimeDelta.fromTimespec (TimeDelta.toTimespec ⟨Int64.minValue⟩) = ⟨Int64.minValue⟩ ∧
      (TimeDelta.toTimespec ⟨Int64.minValue⟩).NoOverflow) ∧
    ((⟨Int64.minValue⟩ : TimeDelta).RoundTrips ↔
      0 ≤ Int64.minValue.toInt ∨ 1000000000 ∣ Int64.minValue.toInt) ∧
    ((⟨1, 500000000⟩ : Timespec).RoundTrips ↔
      0 ≤ (1 : Int64).toInt ∨ (500000000 : Int64).toInt = 0) :=
  timespec_roundTrips ⟨Int64.minValue⟩ ⟨1, 500000000⟩ (by decide) (by decide)

/-- Half a second before zero. -/
theorem not_timespec_roundTrips :
    ¬ ((∀ d : TimeDelta, d.RoundTrips) ∧
      ∀ ts : Timespec, ts.Normalised → FitsInt64 ts.nanoseconds → ts.RoundTrips) := by
  rintro ⟨_, hts⟩
  have hround := hts ⟨-1, 500000000⟩ (by decide) (by decide)
  revert hround
  decide

end FFNetwork
