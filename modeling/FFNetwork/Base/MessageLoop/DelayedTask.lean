import FFNetwork.Base.Time
import FFNetwork.Lib.PriorityQueue

/-!
# Delayed tasks and their order

`source/base/messageloop/delayed_task.{h,cpp}`.  A delayed task is a closure with the time it is to
run at and the value the shared counter had when it was registered.  `DelayedTaskQueue` is
`std::priority_queue` with `std::greater<DelayedTask>`: the model takes any queue type with the
laws of one, since the standard does not say which of two equivalent tasks is at the top.

* `DelayedTask.gt_iff` — `operator>` is the lexicographic order of target time and counter value.
* `DelayedTask.orderOf` — the counter value the `n`-th registration gets: an `int` that wraps,
  sign-extended to `size_t`.
-/

namespace FFNetwork

variable {Closure : Type}

/-- A task with its target time, and the value that the counter `order_` of the store had. -/
structure DelayedTask (Closure : Type) where
  order_ : UInt64
  task_ : Closure
  target_time_ : TimePoint

/-- `DelayedTask::operator>`. -/
def DelayedTask.gt (a b : DelayedTask Closure) : Bool :=
  if a.target_time_ = b.target_time_ then a.order_ > b.order_
  else a.target_time_ > b.target_time_

/-- `std::priority_queue<DelayedTask, std::deque<DelayedTask>, std::greater<DelayedTask>>`. -/
abbrev DelayedTaskQueue (Q : Type) (Closure : outParam Type) :=
  PriorityQueue Q (@DelayedTask.gt Closure)

lemma DelayedTask.gt_iff {a b : DelayedTask Closure} :
    a.gt b = true ↔ b.target_time_ < a.target_time_ ∨
      (b.target_time_ = a.target_time_ ∧ b.order_ < a.order_) := by
  unfold DelayedTask.gt
  split
  · next heq => simp [heq]
  · next hne => simp [Ne.symm hne]

lemma DelayedTask.gt_eq_false_iff {a b : DelayedTask Closure} :
    a.gt b = false ↔ a.target_time_ < b.target_time_ ∨
      (a.target_time_ = b.target_time_ ∧ a.order_ ≤ b.order_) := by
  unfold DelayedTask.gt
  split
  · next heq => simp [heq]
  · next hne => simpa [hne] using ⟨fun h => lt_of_le_of_ne h hne, le_of_lt⟩

lemma DelayedTask.target_le_of_gt_eq_false {a b : DelayedTask Closure} (h : a.gt b = false) :
    a.target_time_ ≤ b.target_time_ := by
  rcases DelayedTask.gt_eq_false_iff.mp h with hlt | ⟨heq, _⟩
  · exact le_of_lt hlt
  · exact le_of_eq heq

instance : StrictWeakOrder (@DelayedTask.gt Closure) where
  asymm {a b} h := by
    rw [DelayedTask.gt_iff] at h
    rw [DelayedTask.gt_eq_false_iff]
    rcases h with h | ⟨h, h'⟩
    · exact Or.inl h
    · exact Or.inr ⟨h, UInt64.le_of_lt h'⟩
  negTrans {a b c} hab hbc := by
    rw [DelayedTask.gt_eq_false_iff] at hab hbc ⊢
    rcases hab with hab | ⟨hab, hab'⟩ <;> rcases hbc with hbc | ⟨hbc, hbc'⟩
    · exact Or.inl (lt_trans hab hbc)
    · exact Or.inl (hbc ▸ hab)
    · exact Or.inl (hab ▸ hbc)
    · exact Or.inr ⟨hab.trans hbc, UInt64.le_trans hab' hbc'⟩

/-- A task that is due has only due tasks in front of it. -/
lemma DelayedTask.due_of_gt_eq_false {now : TimePoint} (a b : DelayedTask Closure)
    (hab : a.gt b = false) (hb : decide (b.target_time_ ≤ now) = true) :
    decide (a.target_time_ ≤ now) = true :=
  decide_eq_true (le_trans (DelayedTask.target_le_of_gt_eq_false hab) (of_decide_eq_true hb))

/-! ## The counter -/

/-- What `static_cast<size_t>(order)` gives a task when the counter stands at `order`. -/
def DelayedTask.castOrder (order : Int32) : UInt64 := order.toInt64.toUInt64

/-- The counter value of registration number `n`, counting all registrations of the process
from 0. -/
def DelayedTask.orderOf (n : ℕ) : UInt64 := DelayedTask.castOrder (Int32.ofNat n)

/-- The second half of every block of `2 ^ 32` registrations gets the negative counter values,
which sign extension puts at the top of `size_t`. -/
lemma DelayedTask.orderOf_toNat (n : ℕ) :
    (DelayedTask.orderOf n).toNat =
      if n % 2 ^ 32 < 2 ^ 31 then n % 2 ^ 32 else n % 2 ^ 32 + (2 ^ 64 - 2 ^ 32) := by
  have hint : (Int32.ofNat n).toInt64.toBitVec.toInt = (n : ℤ).bmod (2 ^ 32) :=
    (Int32.toInt_toInt64 _).trans Int32.toInt_ofNat'
  have hcond := BitVec.toInt_eq_toNat_cond (Int32.ofNat n).toInt64.toBitVec
  have hlt := (Int32.ofNat n).toInt64.toBitVec.isLt
  rw [hint, Int.bmod_def] at hcond
  show (Int32.ofNat n).toInt64.toBitVec.toNat = _
  split at hcond <;> split at hcond <;> split <;> omega

/-- Within one block of `2 ^ 32` registrations the counter values grow. -/
lemma DelayedTask.orderOf_lt_iff {m n : ℕ} :
    DelayedTask.orderOf m < DelayedTask.orderOf n ↔ m % 2 ^ 32 < n % 2 ^ 32 := by
  rw [UInt64.lt_iff_toNat_lt, orderOf_toNat, orderOf_toNat]
  split <;> split <;> omega

end FFNetwork
