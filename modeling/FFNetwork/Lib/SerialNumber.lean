import Mathlib.Data.Nat.ModEq

/-!
# Serial numbers

The numbers below `n` as the hours of a clock: a counter that has passed `n` starts again at 0, and
two of its values are compared by the way from the one to the other, forwards.

* `ahead` — how far one serial number is ahead of another.
* `ahead_mod` — for counts less than `n` apart it is their difference.
* `between_iff` — on the way from one to another, in terms of the order of the numbers.
* `ahead_add_swap` — there and back is once around; half way round there is no difference between
  the two.
-/

namespace SerialNumber

/-- How far `b` is ahead of `a`, going up and around. -/
def ahead (n a b : ℕ) : ℕ := if a ≤ b then b - a else n - a + b

variable {n a b : ℕ}

lemma ahead_lt (ha : a < n) (hb : b < n) : ahead n a b < n := by
  rw [ahead]
  split
  · omega
  · omega

lemma ahead_eq_zero_iff (ha : a < n) : ahead n a b = 0 ↔ a = b := by
  rw [ahead]
  split
  · omega
  · omega

/-- There and back is once around. -/
lemma ahead_add_swap (ha : a < n) (hb : b < n) (hne : a ≠ b) :
    ahead n a b + ahead n b a = n := by
  rw [ahead, ahead]
  split
  · rw [if_neg (by omega)]
    omega
  · rw [if_pos (by omega)]
    omega

/-- Of two counters that are less than one round apart, the later one is ahead by as much as it is
later. -/
lemma ahead_mod {s t : ℕ} (hst : s ≤ t) (hlt : t < s + n) : ahead n (s % n) (t % n) = t - s := by
  have hs := Nat.div_add_mod s n
  have ht := Nat.div_add_mod t n
  have hn : 0 < n := by omega
  have hsn := Nat.mod_lt s hn
  have htn := Nat.mod_lt t hn
  have hdiv : s / n ≤ t / n := Nat.div_le_div_right hst
  have hdiv' : t / n ≤ s / n + 1 := by
    rw [← Nat.add_div_right s hn]
    exact Nat.div_le_div_right hlt.le
  rw [ahead]
  -- the later counter is in the same round as the other or in the next one
  rcases Nat.eq_or_lt_of_le hdiv with hround | hround
  · rw [← hround] at ht
    rw [if_pos (by omega)]
    omega
  · have hnext : t / n = s / n + 1 := by omega
    rw [hnext, Nat.mul_add, Nat.mul_one] at ht
    rw [if_neg (by omega)]
    omega

/-- Going up from `e` one meets `m` no later than `l`. -/
lemma between_iff {e m l : ℕ} (he : e < n) (hm : m < n) (hl : l < n) :
    ahead n e m ≤ ahead n e l ↔ if e ≤ l then e ≤ m ∧ m ≤ l else ¬ (l < m ∧ m < e) := by
  rw [ahead, ahead]
  split
  · split
    · omega
    · omega
  · split
    · omega
    · omega

/-- On a way that is no longer than half the round, what lies between is up to half a round ahead of
the start, and the end as far ahead of it. -/
lemma between_iff_of_lt {e m l half : ℕ} (he : e < n) (hm : m < n) (hl : l < n)
    (hhalf : 2 * half ≤ n) (hway : ahead n e l < half) :
    ahead n e m ≤ ahead n e l ↔ ahead n e m < half ∧ ahead n m l < half := by
  simp only [ahead] at hway ⊢
  split_ifs at hway ⊢ <;> omega

end SerialNumber
