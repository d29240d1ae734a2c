import FFNetwork.Lib.SerialNumber
import Mathlib.Data.Set.Insert
import Mathlib.Algebra.Order.Ring.Int

/-!
# Time stamps

`source/utils/time_utils.{h,cpp}`: the time as a 32-bit number of milliseconds, which starts again
at 0 every `2 ^ 32` milliseconds, and the comparisons between two such stamps.  A reading of the
system clock is an argument of the functions that make one.

* `toInt_timeDiff` — the signed difference in terms of how far one stamp is ahead of the other.
* **`timestamps_compare_true_times`** — for times less than `2 ^ 31` apart the stamps compare as the
  times do, and what `TimeIsBetween` says of any three stamps.
* **`selectsInAnyOrder_iff`** — the comparisons do not depend on the order of the arguments, unless
  the stamps are half a round apart.
-/

namespace FFNetwork

open SerialNumber

/-! ## The functions -/

/-- `HALF`: half a round of the stamps. -/
def half : UInt32 := 0x80000000

/-- The nanoseconds of a millisecond. -/
def kNumNanosecsPerMillisec : UInt64 := 1000000

/-- `NowTimeMillis`, for what `NowTimeNanos` returns. -/
def nowTimeMillis (nowTimeNanos : UInt64) : UInt32 :=
  (nowTimeNanos / kNumNanosecsPerMillisec).toUInt32

/-- `TimeIsBetween`. -/
def timeIsBetween (earlier middle later : UInt32) : Bool :=
  if earlier ≤ later then earlier ≤ middle && middle ≤ later
  else !(later < middle && middle < earlier)

/-- `TimeIsLaterOrEqual`: the signed difference is at least 0, and below half a round. -/
def timeIsLaterOrEqual (earlier later : UInt32) : Bool :=
  let diff := (later - earlier).toInt32
  diff ≥ 0 && diff.toUInt32 < half

/-- `TimeIsLater`. -/
def timeIsLater (earlier later : UInt32) : Bool :=
  let diff := (later - earlier).toInt32
  diff > 0 && diff.toUInt32 < half

/-- `TimeDiff`. -/
def timeDiff (later earlier : UInt32) : Int32 := (later - earlier).toInt32

/-- `TimeMax`. -/
def timeMax (ts1 ts2 : UInt32) : UInt32 := if timeIsLaterOrEqual ts1 ts2 then ts2 else ts1

/-- `TimeMin`. -/
def timeMin (ts1 ts2 : UInt32) : UInt32 := if timeIsLaterOrEqual ts1 ts2 then ts1 else ts2

/-! ## How far a stamp is ahead -/

/-- How far `b` is ahead of `a`. -/
def stampsAhead (a b : UInt32) : ℕ := ahead (2 ^ 32) a.toNat b.toNat

lemma toNat_sub_eq (a b : UInt32) : (b - a).toNat = stampsAhead a b := by
  have ha := a.toNat_lt
  have hb := b.toNat_lt
  rw [UInt32.toNat_sub, stampsAhead, ahead]
  split
  · omega
  · omega

/-- A stamp read as a signed number. -/
lemma toInt_toInt32 (x : UInt32) :
    x.toInt32.toInt = if x.toNat < 2 ^ 31 then (x.toNat : ℤ) else x.toNat - 2 ^ 32 := by
  have hint : x.toInt32.toInt = x.toBitVec.toInt := rfl
  rw [hint, BitVec.toInt_eq_toNat_cond]
  have hnat : x.toBitVec.toNat = x.toNat := rfl
  rw [hnat]
  split
  · rw [if_pos (by omega)]
  · rw [if_neg (by omega)]
    rfl

lemma toInt_timeDiff (later earlier : UInt32) :
    (timeDiff later earlier).toInt =
      if stampsAhead earlier later < 2 ^ 31 then (stampsAhead earlier later : ℤ)
      else stampsAhead earlier later - 2 ^ 32 := by
  rw [timeDiff, toInt_toInt32, toNat_sub_eq]

lemma stampsAhead_lt (a b : UInt32) : stampsAhead a b < 2 ^ 32 := ahead_lt a.toNat_lt b.toNat_lt

lemma stampsAhead_eq_zero_iff {a b : UInt32} : stampsAhead a b = 0 ↔ a = b := by
  rw [stampsAhead, ahead_eq_zero_iff a.toNat_lt, UInt32.toNat_inj]

/-- There and back is once around. -/
lemma stampsAhead_add_swap {a b : UInt32} (hne : a ≠ b) :
    stampsAhead a b + stampsAhead b a = 2 ^ 32 :=
  ahead_add_swap a.toNat_lt b.toNat_lt fun h => hne (UInt32.toNat_inj.mp h)

lemma diff_lt_half_iff (earlier later : UInt32) :
    (later - earlier).toInt32.toUInt32 < half ↔ stampsAhead earlier later < 2 ^ 31 := by
  rw [UInt32.toUInt32_toInt32, UInt32.lt_iff_toNat_lt, toNat_sub_eq]
  rfl

/-- Below `HALF` the difference is not negative. -/
lemma toInt_diff_of_lt {earlier later : UInt32} (hlt : stampsAhead earlier later < 2 ^ 31) :
    (later - earlier).toInt32.toInt = stampsAhead earlier later := by
  rw [toInt_toInt32, toNat_sub_eq, if_pos hlt]

lemma timeIsLaterOrEqual_iff (earlier later : UInt32) :
    timeIsLaterOrEqual earlier later = true ↔ stampsAhead earlier later < 2 ^ 31 := by
  simp only [timeIsLaterOrEqual, Bool.and_eq_true, decide_eq_true_eq, diff_lt_half_iff]
  refine and_iff_right_of_imp fun hlt => ?_
  rw [ge_iff_le, Int32.le_iff_toInt_le, toInt_diff_of_lt hlt]
  exact Int.natCast_nonneg _

lemma timeIsLater_iff (earlier later : UInt32) :
    timeIsLater earlier later = true ↔
      0 < stampsAhead earlier later ∧ stampsAhead earlier later < 2 ^ 31 := by
  simp only [timeIsLater, Bool.and_eq_true, decide_eq_true_eq, diff_lt_half_iff]
  refine and_congr_left fun hlt => ?_
  rw [gt_iff_lt, Int32.lt_iff_toInt_lt, toInt_diff_of_lt hlt]
  exact Int.natCast_pos

lemma timeMax_eq (ts1 ts2 : UInt32) :
    timeMax ts1 ts2 = if stampsAhead ts1 ts2 < 2 ^ 31 then ts2 else ts1 := by
  simp only [timeMax, timeIsLaterOrEqual_iff]

lemma timeMin_eq (ts1 ts2 : UInt32) :
    timeMin ts1 ts2 = if stampsAhead ts1 ts2 < 2 ^ 31 then ts1 else ts2 := by
  simp only [timeMin, timeIsLaterOrEqual_iff]

/-! ## Stamps of true times -/

/-- How far the stamps of two times that are less than half a round apart are ahead. -/
lemma stampsAhead_ofNat {t1 t2 : ℕ} (hnear : |(t1 : ℤ) - t2| < 2 ^ 31) :
    (stampsAhead (UInt32.ofNat t1) (UInt32.ofNat t2) : ℤ) =
      if t1 ≤ t2 then (t2 : ℤ) - t1 else 2 ^ 32 - (t1 - t2) := by
  rcases abs_lt.mp hnear with ⟨hlow, hhigh⟩
  by_cases hle : t1 ≤ t2
  · rw [if_pos hle, stampsAhead, UInt32.toNat_ofNat', UInt32.toNat_ofNat',
      ahead_mod hle (by omega), Nat.cast_sub hle]
  · have hback : stampsAhead (UInt32.ofNat t2) (UInt32.ofNat t1) = t1 - t2 := by
      rw [stampsAhead, UInt32.toNat_ofNat', UInt32.toNat_ofNat',
        ahead_mod (not_le.mp hle).le (by omega)]
    have hne : UInt32.ofNat t1 ≠ UInt32.ofNat t2 := by
      intro heq
      rw [stampsAhead_eq_zero_iff.mpr heq.symm] at hback
      omega
    have hround := stampsAhead_add_swap hne
    rw [if_neg hle]
    omega

/-- Going up from `earlier` one meets `middle` no later than `later`. -/
lemma timeIsBetween_iff (earlier middle later : UInt32) :
    timeIsBetween earlier middle later = true ↔
      stampsAhead earlier middle ≤ stampsAhead earlier later := by
  rw [stampsAhead, stampsAhead,
    between_iff earlier.toNat_lt middle.toNat_lt later.toNat_lt, timeIsBetween]
  simp only [UInt32.le_iff_toNat_le, UInt32.lt_iff_toNat_lt]
  split
  · simp
  · rw [Bool.not_eq_true', Bool.and_eq_false_iff, decide_eq_false_iff_not,
      decide_eq_false_iff_not, not_and_or]

/-- What the comparisons and the difference of two stamps say of two times. -/
structure ComparesTimes (t1 t2 : ℕ) (a b : UInt32) : Prop where
  later : timeIsLater a b = true ↔ t1 < t2
  laterOrEqual : timeIsLaterOrEqual a b = true ↔ t1 ≤ t2
  timeMax : timeMax a b = UInt32.ofNat (max t1 t2)
  timeMin : timeMin a b = UInt32.ofNat (min t1 t2)
  timeDiff : (timeDiff b a).toInt = (t2 : ℤ) - t1

/-- **The stamps of two times less than half a round apart compare as the times do**, and a stamp is
between two others iff it is met first on the way from the one to the other, which for less than
half a round is what the comparisons say. -/
theorem timestamps_compare_true_times :
    (∀ t1 t2 : ℕ, |(t1 : ℤ) - t2| < 2 ^ 31 →
      ComparesTimes t1 t2 (UInt32.ofNat t1) (UInt32.ofNat t2)) ∧
    ∀ e m l : UInt32,
      (timeIsBetween e m l = true ↔ m - e ≤ l - e) ∧
      (l - e < half →
        (timeIsBetween e m l = true ↔
          timeIsLaterOrEqual e m = true ∧ timeIsLaterOrEqual m l = true)) := by
  constructor
  · intro t1 t2 hnear
    have hahead := stampsAhead_ofNat hnear
    rcases abs_lt.mp hnear with ⟨hlow, hhigh⟩
    have hlt : stampsAhead (UInt32.ofNat t1) (UInt32.ofNat t2) < 2 ^ 31 ↔ t1 ≤ t2 := by
      split at hahead
      · omega
      · omega
    refine ⟨?_, ?_, ?_, ?_, ?_⟩
    · rw [timeIsLater_iff]
      split at hahead
      · omega
      · omega
    · rw [timeIsLaterOrEqual_iff, hlt]
    · rw [timeMax_eq, if_congr hlt rfl rfl, max_def]
      split
      · rfl
      · rfl
    · rw [timeMin_eq, if_congr hlt rfl rfl, min_def]
      split
      · rfl
      · rfl
    · rw [toInt_timeDiff, if_congr hlt rfl rfl, hahead]
      split
      · rfl
      · omega
  · intro e m l
    have hhalf : half.toNat = 2 ^ 31 := rfl
    rw [UInt32.le_iff_toNat_le, UInt32.lt_iff_toNat_lt, toNat_sub_eq, toNat_sub_eq, hhalf,
      timeIsLaterOrEqual_iff, timeIsLaterOrEqual_iff]
    exact ⟨timeIsBetween_iff e m l, fun hway => (timeIsBetween_iff e m l).trans
      (between_iff_of_lt e.toNat_lt m.toNat_lt l.toNat_lt le_rfl hway)⟩

/-- Two times on the two sides of a wrap, and a stamp between two others there. -/
theorem timestamps_compare_true_times_wrap :
    ComparesTimes (2 ^ 32 - 50) (2 ^ 32 + 50) (UInt32.ofNat (2 ^ 32 - 50))
      (UInt32.ofNat (2 ^ 32 + 50)) ∧
    (timeIsBetween 4294967246 0 50 = true ↔
      timeIsLaterOrEqual 4294967246 0 = true ∧ timeIsLaterOrEqual 0 50 = true) :=
  ⟨timestamps_compare_true_times.1 (2 ^ 32 - 50) (2 ^ 32 + 50) (by decide),
    (timestamps_compare_true_times.2 4294967246 0 50).2 (by decide)⟩

/-! ## The order of the arguments -/

/-- One of three statements holds and the others do not. -/
def ExactlyOne (p q r : Prop) : Prop := (p ∧ ¬ q ∧ ¬ r) ∨ (¬ p ∧ q ∧ ¬ r) ∨ (¬ p ∧ ¬ q ∧ r)

/-- Of two stamps the comparisons select the same later one and the same earlier one in whatever
order they are given. -/
structure SelectsInAnyOrder (a b : UInt32) : Prop where
  total : timeIsLaterOrEqual a b = true ∨ timeIsLaterOrEqual b a = true
  trichotomy : ExactlyOne (timeIsLater a b = true) (timeIsLater b a = true) (a = b)
  timeMax_comm : timeMax a b = timeMax b a
  timeMin_comm : timeMin a b = timeMin b a
  selects : ({timeMin a b, timeMax a b} : Set UInt32) = {a, b}

/-- One of the two stamps is selected as the earlier and the other as the later. -/
lemma selects_both (a b : UInt32) : ({timeMin a b, timeMax a b} : Set UInt32) = {a, b} := by
  rw [timeMin_eq, timeMax_eq]
  split
  · rfl
  · exact Set.pair_comm b a

/-- Unless they are the same, stamps that are not half a round apart are ahead of each other by
different ways. -/
lemma selectsInAnyOrder_of_ne {a b : UInt32} (hopposite : stampsAhead a b ≠ 2 ^ 31) :
    SelectsInAnyOrder a b := by
  by_cases heq : a = b
  · subst heq
    have hzero := stampsAhead_eq_zero_iff.mpr (Eq.refl a)
    refine ⟨Or.inl ?_, Or.inr (Or.inr ⟨?_, ?_, rfl⟩), rfl, rfl, selects_both a a⟩
    · rw [timeIsLaterOrEqual_iff]
      omega
    · rw [timeIsLater_iff]
      omega
    · rw [timeIsLater_iff]
      omega
  · have hround := stampsAhead_add_swap heq
    have hpos : stampsAhead a b ≠ 0 := fun h => heq (stampsAhead_eq_zero_iff.mp h)
    have hlt := stampsAhead_lt a b
    refine ⟨?_, ?_, ?_, ?_, selects_both a b⟩
    · rw [timeIsLaterOrEqual_iff, timeIsLaterOrEqual_iff]
      omega
    · rw [ExactlyOne, timeIsLater_iff, timeIsLater_iff]
      rcases lt_or_gt_of_ne hopposite with hshort | hlong
      · exact Or.inl ⟨by omega, by omega, heq⟩
      · exact Or.inr (Or.inl ⟨by omega, by omega, heq⟩)
    · rw [timeMax_eq, timeMax_eq]
      split
      · rw [if_neg (by omega)]
      · rw [if_pos (by omega)]
    · rw [timeMin_eq, timeMin_eq]
      split
      · rw [if_neg (by omega)]
      · rw [if_pos (by omega)]

/-- The second stamp does not count as later, and the two are selected in the order of the
arguments: the first one as the later. -/
structure SelectsFirst (a b : UInt32) : Prop where
  notLaterOrEqual : timeIsLaterOrEqual a b = false
  notLater : timeIsLater a b = false
  timeMax_eq_fst : timeMax a b = a
  timeMin_eq_snd : timeMin a b = b

lemma selectsFirst_of_opposite {a b : UInt32} (hopposite : stampsAhead a b = 2 ^ 31) :
    SelectsFirst a b := by
  have hnot : ¬ stampsAhead a b < 2 ^ 31 := hopposite.not_lt
  refine ⟨?_, ?_, ?_, ?_⟩
  · rw [← Bool.not_eq_true, timeIsLaterOrEqual_iff]
    exact hnot
  · rw [← Bool.not_eq_true, timeIsLater_iff]
    exact fun hlater => hnot hlater.2
  · rw [timeMax_eq, if_neg hnot]
  · rw [timeMin_eq, if_neg hnot]

/-- Half a round is the same distance in both directions. -/
lemma opposite_swap {a b : UInt32} (hopposite : stampsAhead a b = 2 ^ 31) :
    stampsAhead b a = 2 ^ 31 := by
  have hne : a ≠ b := by
    intro heq
    rw [stampsAhead_eq_zero_iff.mpr heq] at hopposite
    omega
  have hround := stampsAhead_add_swap hne
  omega

/-- **The order of the arguments does not matter iff the stamps are not half a round apart.**  There
neither is later than the other, and `TimeMax` and `TimeMin` go by the order, but still select one
stamp each. -/
theorem selectsInAnyOrder_iff (a b : UInt32) :
    (SelectsInAnyOrder a b ↔ b - a ≠ half) ∧
      (b - a = half → SelectsFirst a b ∧ SelectsFirst b a) ∧
      ({timeMin a b, timeMax a b} : Set UInt32) = {a, b} := by
  have hhalf : b - a = half ↔ stampsAhead a b = 2 ^ 31 := by
    rw [← UInt32.toNat_inj, toNat_sub_eq]
    rfl
  rw [ne_eq, hhalf]
  refine ⟨⟨fun h hopposite => ?_, selectsInAnyOrder_of_ne⟩, fun hopposite => ?_, selects_both a b⟩
  · have hfirst := selectsFirst_of_opposite hopposite
    have hsecond := selectsFirst_of_opposite (opposite_swap hopposite)
    simpa [hfirst.notLaterOrEqual, hsecond.notLaterOrEqual] using h.total
  · exact ⟨selectsFirst_of_opposite hopposite, selectsFirst_of_opposite (opposite_swap hopposite)⟩

/-- Half a round apart. -/
theorem not_selectsInAnyOrder : ¬ ∀ a b : UInt32, SelectsInAnyOrder a b := by
  intro h
  have hmax : timeMax 0 half = timeMax half 0 := (h 0 half).timeMax_comm
  revert hmax
  decide

end FFNetwork
