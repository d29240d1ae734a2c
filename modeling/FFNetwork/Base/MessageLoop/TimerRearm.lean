import FFNetwork.Base.MessageLoop.WakeUp

/-!
# Arming the timer

`source/base/platform/linux/timerfd.cpp` and `MessageLoopImplLinux::WakeUp`: a point in time becomes
an `itimerspec` for `timerfd_settime`, with `TFD_TIMER_ABSTIME`.  The number of nanoseconds is read
as an unsigned one on the way, and an `itimerspec` of zeros disarms the timer.

* `timerRearm` — the `itimerspec`; `expiry` is what `timerfd_settime` makes of it.
* `timerRearm_nanoseconds` — the time that the `itimerspec` stands for.
* **`fires_iff`** — the timer fires when it should exactly for the positive points in time.
-/

namespace FFNetwork

/-! ## The `itimerspec` -/

/-- `struct itimerspec`. -/
structure Itimerspec where
  it_interval : Timespec
  it_value : Timespec
deriving DecidableEq, Repr

/-- The nanoseconds of a second. -/
def NSEC_PER_SEC : UInt64 := 1000000000

/-- The `itimerspec` that `TimerRearm` passes to `timerfd_settime`. -/
def timerRearm (time_point : TimePoint) : Itimerspec :=
  let nano_secs := time_point.ticks_.toUInt64
  let it_value : Timespec :=
    ⟨(nano_secs / NSEC_PER_SEC).toInt64, (nano_secs % NSEC_PER_SEC).toInt64⟩
  ⟨it_value, it_value⟩

/-- When a timer set at `now` with an absolute `it_value` first expires: never if `it_value` is
zero, which disarms it, and at once if `it_value` is in the past. -/
def Itimerspec.expiry (spec : Itimerspec) (now : ℤ) : Option ℤ :=
  if spec.it_value = ⟨0, 0⟩ then none else some (max spec.it_value.nanoseconds now)

/-! ## What it stands for -/

lemma toInt_toInt64 {x : UInt64} (hx : x.toNat < 2 ^ 63) : x.toInt64.toInt = x.toNat := by
  have hcond := BitVec.toInt_eq_toNat_cond x.toBitVec
  rw [if_pos (by simpa using by omega)] at hcond
  exact hcond

/-- A signed number read as an unsigned one. -/
lemma toNat_toUInt64 (x : Int64) :
    (x.toUInt64.toNat : ℤ) = if 0 ≤ x.toInt then x.toInt else x.toInt + 2 ^ 64 := by
  have hcond := BitVec.toInt_eq_toNat_cond x.toBitVec
  have hlt := x.toBitVec.isLt
  show (x.toBitVec.toNat : ℤ) =
    if 0 ≤ x.toBitVec.toInt then x.toBitVec.toInt else x.toBitVec.toInt + 2 ^ 64
  split at hcond <;> split <;> omega

variable {t : TimePoint}

lemma timerRearm_sec (t : TimePoint) :
    (timerRearm t).it_value.tv_sec.toInt = (t.ticks_.toUInt64.toNat / 1000000000 : ℕ) := by
  have hlt := t.ticks_.toUInt64.toNat_lt
  refine (toInt_toInt64 ?_).trans ?_
  · rw [UInt64.toNat_div]
    show t.ticks_.toUInt64.toNat / 1000000000 < 2 ^ 63
    omega
  · rw [UInt64.toNat_div]
    rfl

lemma timerRearm_nsec (t : TimePoint) :
    (timerRearm t).it_value.tv_nsec.toInt = (t.ticks_.toUInt64.toNat % 1000000000 : ℕ) := by
  refine (toInt_toInt64 ?_).trans ?_
  · rw [UInt64.toNat_mod]
    show t.ticks_.toUInt64.toNat % 1000000000 < 2 ^ 63
    omega
  · rw [UInt64.toNat_mod]
    rfl

/-- The whole 64-bit number, read as an unsigned one. -/
theorem timerRearm_nanoseconds (t : TimePoint) :
    (timerRearm t).it_value.nanoseconds = if 0 ≤ t.ticks then t.ticks else t.ticks + 2 ^ 64 := by
  rw [Timespec.nanoseconds, timerRearm_sec, timerRearm_nsec, TimePoint.ticks, ← toNat_toUInt64]
  omega

lemma timerRearm_eq_zero_iff : (timerRearm t).it_value = ⟨0, 0⟩ ↔ t.ticks = 0 := by
  constructor
  · intro hzero
    have hnano := timerRearm_nanoseconds t
    rw [hzero] at hnano
    have hle := t.ticks_.le_toInt
    have hticks : t.ticks = t.ticks_.toInt := rfl
    simp only [Timespec.nanoseconds, Int64.toInt_zero, zero_mul, add_zero] at hnano
    split at hnano
    · exact hnano.symm
    · omega
  · intro hzero
    obtain rfl : t = ⟨0⟩ := TimePoint.ticks_injective hzero
    decide

/-! ## When the timer fires -/

variable {now : TimePoint}

/-- A timer set for `t` at `now` expires at `t`, or at once if that is in the past. -/
def FiresInTime (t now : TimePoint) : Prop :=
  (timerRearm t).expiry now.ticks = some (max t.ticks now.ticks)

/-- At 0 the timer is disarmed, and a negative time is taken for one of the far future. -/
theorem firesInTime_iff (hnow : 0 ≤ now.ticks) : FiresInTime t now ↔ 0 < t.ticks := by
  have hle := t.ticks_.le_toInt
  have hmax := now.ticks_.toInt_lt
  have hticks : t.ticks = t.ticks_.toInt := rfl
  have hnowticks : now.ticks = now.ticks_.toInt := rfl
  rw [FiresInTime, Itimerspec.expiry, timerRearm_nanoseconds]
  simp only [timerRearm_eq_zero_iff]
  rcases lt_trichotomy t.ticks 0 with hneg | hzero | hpos
  · rw [if_neg hneg.ne, if_neg (not_le.mpr hneg), Option.some.injEq]
    omega
  · simp [hzero]
  · simp [hpos, hpos.ne', hpos.le]

variable {Closure Q : Type} [DelayedTaskQueue Q Closure]

/-- The last `WakeUp` call of the queue has set a timer that expires at once. -/
def FiresNow (e : TaskQueueEntry Closure Q) (now : TimePoint) : Prop :=
  ∃ w time, e.wakeable = some w ∧ w.calls.head? = some time ∧
    (timerRearm time).expiry now.ticks = some now.ticks

/-- A task in the past wakes the loop up exactly if its time and those of the pending tasks are
positive: the timer is set for the earliest of them. -/
lemma registerTask_firesNow_iff {e : TaskQueueEntry Closure Q} (hnow : 0 ≤ now.ticks)
    (hwakeable : e.wakeable.isSome = true) (hdue : t ≤ now) (order : Int32) (task : Closure) :
    FiresNow (e.registerTask order task t) now ↔
      0 < t.ticks ∧ ∀ b ∈ e.pending, 0 < b.target_time_.ticks := by
  obtain ⟨w, hw, htop⟩ := TaskQueueEntry.registerTask_matches hwakeable order task t
  rw [TaskQueueEntry.registerTask_pending] at htop
  obtain ⟨time, hcall, ⟨b, hb, hearliest⟩, hfirst⟩ := htop Multiset.cons_ne_zero
  rw [TaskQueueEntry.registerTask_pending] at hb hfirst
  have hle : time ≤ now := le_trans (hfirst _ (Multiset.mem_cons_self _ _)) hdue
  have hfires := firesInTime_iff (t := time) hnow
  rw [FiresInTime, max_eq_right (TimePoint.le_iff.mp hle)] at hfires
  constructor
  · rintro ⟨w', time', hw', hcall', hexpiry⟩
    obtain rfl := Option.some.inj (hw.symm.trans hw')
    obtain rfl := Option.some.inj (hcall.symm.trans hcall')
    have hpos := hfires.mp hexpiry
    refine ⟨hpos.trans_le (TimePoint.le_iff.mp (hfirst _ (Multiset.mem_cons_self _ _))), ?_⟩
    intro b hb
    exact hpos.trans_le (TimePoint.le_iff.mp (hfirst b (Multiset.mem_cons_of_mem hb)))
  · rintro ⟨ht, hpending⟩
    refine ⟨w, time, hw, hcall, hfires.mpr ?_⟩
    rw [← hearliest]
    rcases Multiset.mem_cons.mp hb with rfl | hb
    · exact ht
    · exact hpending b hb

/-- **When a timer fires.**  The `itimerspec` for a point in time is well formed, expires when it
should, and wakes the loop up for a task registered for that time in the past behind tasks with
positive times, if and only if the point in time is positive.  The pending tasks matter: such a task
wakes the loop up exactly if all these times are positive. -/
theorem fires_iff (hnow : 0 ≤ now.ticks) :
    (((0 ≤ (timerRearm t).it_value.tv_nsec.toInt ∧
        (timerRearm t).it_value.tv_nsec.toInt < 1000000000) ∧ FiresInTime t now ∧
      (t ≤ now → ∀ (e : TaskQueueEntry Closure Q) (order : Int32) (task : Closure),
        e.wakeable.isSome = true → (∀ b ∈ e.pending, 0 < b.target_time_.ticks) →
          FiresNow (e.registerTask order task t) now)) ↔ 0 < t.ticks) ∧
      (t ≤ now → ∀ (e : TaskQueueEntry Closure Q) (order : Int32) (task : Closure),
        e.wakeable.isSome = true → (FiresNow (e.registerTask order task t) now ↔
          0 < t.ticks ∧ ∀ b ∈ e.pending, 0 < b.target_time_.ticks)) := by
  refine ⟨⟨fun h => (firesInTime_iff hnow).mp h.2.1, fun ht => ⟨?_, ?_, ?_⟩⟩, ?_⟩
  · rw [timerRearm_nsec]
    omega
  · exact (firesInTime_iff hnow).mpr ht
  · intro hdue e order task hwakeable hpending
    exact (registerTask_firesNow_iff hnow hwakeable hdue order task).mpr ⟨ht, hpending⟩
  · intro hdue e order task hwakeable
    exact registerTask_firesNow_iff hnow hwakeable hdue order task

/-- A timer for the instant 5 that is set at the instant 7. -/
theorem fires_at_once : FiresInTime ⟨5⟩ ⟨7⟩ := by
  have hnow : 0 ≤ (⟨7⟩ : TimePoint).ticks := by decide
  exact ((fires_iff (t := ⟨5⟩) (Q := SortedQueue (@DelayedTask.gt ℕ)) hnow).1.mpr (by decide)).2.1

/-- The instant 0 disarms the timer. -/
theorem epoch_disarms :
    ¬ ∀ t now : TimePoint, 0 ≤ now.ticks → FiresInTime t now := by
  intro hall
  exact absurd (hall ⟨0⟩ ⟨0⟩ (by decide)) (by unfold FiresInTime; decide)

end FFNetwork
