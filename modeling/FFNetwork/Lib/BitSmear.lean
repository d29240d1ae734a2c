import Mathlib.Algebra.Order.Ring.Nat
import Mathlib.Data.Nat.Log
import Mathlib.Data.Nat.Size

/-!
# Rounding up to a power of two by smearing bits

The way to round up without a loop: subtract one, spread every bit over all lower positions with
a few shifts and ors, add one.  Each `y ||| y >>> w` doubles the width over which the bits have
been spread.

* `SpreadOver x w y` — the bits of `y` are those of `x`, spread over `w` positions.
* `SpreadOver.eq_two_pow` — spread over its whole width, a number becomes `2 ^ k - 1`.
* `two_pow_clog_unique` — the power of two that a number is rounded up to.
-/

namespace BitSmear

/-- A bit of `y` is set when one of the `w` bits of `x` from there upwards is. -/
def SpreadOver (x w y : ℕ) : Prop :=
  ∀ i, y.testBit i = true ↔ ∃ j < w, x.testBit (i + j) = true

lemma spreadOver_one (x : ℕ) : SpreadOver x 1 x := by
  intro i
  constructor
  · exact fun h => ⟨0, Nat.one_pos, h⟩
  · rintro ⟨j, hj, h⟩
    rwa [Nat.lt_one_iff.mp hj] at h

/-- One shift by the width and one or double the width. -/
lemma SpreadOver.double {x w y : ℕ} (h : SpreadOver x w y) :
    SpreadOver x (2 * w) (y ||| y >>> w) := by
  intro i
  rw [Nat.testBit_or, Nat.testBit_shiftRight, Bool.or_eq_true, h i, h (w + i)]
  constructor
  · rintro (⟨j, hj, hbit⟩ | ⟨j, hj, hbit⟩)
    · exact ⟨j, by omega, hbit⟩
    · exact ⟨w + j, by omega, by rwa [show i + (w + j) = w + i + j by omega]⟩
  · rintro ⟨j, hj, hbit⟩
    by_cases hjw : j < w
    · exact Or.inl ⟨j, hjw, hbit⟩
    · exact Or.inr ⟨j - w, by omega, by rwa [show w + i + (j - w) = i + j by omega]⟩

/-- A number below `2 ^ w`, spread over `w` positions, has all bits up to its highest one. -/
theorem SpreadOver.eq_two_pow {x w y : ℕ} (h : SpreadOver x w y) (hx : x < 2 ^ w) :
    y + 1 = 2 ^ x.size := by
  have hsize : x.size ≤ w := Nat.size_le.mpr hx
  have hy : y = 2 ^ x.size - 1 := by
    refine Nat.eq_of_testBit_eq fun i => Bool.eq_iff_iff.mpr ?_
    rw [h i, Nat.testBit_two_pow_sub_one, decide_eq_true_iff]
    constructor
    · rintro ⟨j, _, hbit⟩
      have := Nat.lt_size.mpr (Nat.ge_two_pow_of_testBit hbit)
      omega
    · intro hi
      have hx0 : x ≠ 0 := by
        rintro rfl
        rw [Nat.size_zero] at hi
        exact absurd hi (Nat.not_lt_zero i)
      have hle : i ≤ x.log2 := (Nat.le_log2 hx0).mpr (Nat.lt_size.mp hi)
      have hlt : x.log2 < x.size := Nat.lt_size.mpr (Nat.log2_self_le hx0)
      exact ⟨x.log2 - i, by omega, by rw [Nat.add_sub_cancel' hle]; exact Nat.testBit_log2 hx0⟩
  have := Nat.one_le_two_pow (n := x.size)
  omega

/-- Rounding up `n` is counting the digits of its predecessor. -/
lemma size_pred_eq_clog (n : ℕ) : (n - 1).size = Nat.clog 2 n := by
  refine eq_of_forall_ge_iff fun k => ?_
  have := Nat.one_le_two_pow (n := k)
  rw [Nat.size_le, Nat.clog_le_iff_le_pow Nat.one_lt_two]
  omega

/-! ## The power of two a number is rounded up to -/

lemma two_pow_clog_lt {n : ℕ} (hn : 0 < n) : 2 ^ Nat.clog 2 n < 2 * n := by
  by_cases hone : 1 < n
  · have hpos := Nat.clog_pos Nat.one_lt_two hone
    have hlt := Nat.pow_pred_clog_lt_self Nat.one_lt_two hone
    rw [← Nat.succ_pred_eq_of_pos hpos, Nat.pow_succ]
    omega
  · obtain rfl : n = 1 := by omega
    decide

/-- It is the only power of two from `n` up to `2 * n`. -/
theorem two_pow_clog_unique {n k : ℕ} (hle : n ≤ 2 ^ k) (hlt : 2 ^ k < 2 * n) :
    2 ^ k = 2 ^ Nat.clog 2 n := by
  have hn : 0 < n := by omega
  have hup := Nat.pow_le_pow_right (n := 2) Nat.two_pos
    ((Nat.clog_le_iff_le_pow Nat.one_lt_two).mpr hle)
  refine le_antisymm ?_ hup
  by_contra hgt
  have hk : Nat.clog 2 n + 1 ≤ k := (Nat.pow_lt_pow_iff_right Nat.one_lt_two).mp (not_le.mp hgt)
  have h1 := Nat.pow_le_pow_right (n := 2) Nat.two_pos hk
  have h2 := Nat.le_pow_clog Nat.one_lt_two n
  rw [Nat.pow_succ] at h1
  omega

end BitSmear
