import FFNetwork.Base.MessageLoop.WakeUp

/-!
# Tasks with a delay

`source/base/messageloop/task_runner.cpp`: `PostDelayTask` posts a task for a time that it gets by
adding the delay to the clock.  The sum and the difference that `RegisterTask` logs are of signed
64-bit numbers.

* `TaskRunner.postDelayTask` — the call on the queue.
* `RegisteredFor`, `notHandedOut_before` — a task that is registered for a time is not handed out
  before it.
* **`runs_after_delay_iff`** — when a delayed task does not run before its delay.
-/

namespace FFNetwork

open PriorityQueue

/-- `TaskRunner::PostDelayTask` when the clock stands at `now`, on a loop that is not terminated. -/
def TaskRunner.postDelayTask (now : TimePoint) (delay : TimeDelta) : QueueCall :=
  .registerTask (now.add delay)

/-- A sum that fits is the exact one. -/
lemma TimePoint.ticks_add {now : TimePoint} {delay : TimeDelta}
    (hfits : FitsInt64 (now.ticks + delay.delta_.toInt)) :
    (now.add delay).ticks = now.ticks + delay.delta_.toInt := by
  show (now.ticks_ + delay.delta_).toInt = now.ticks_.toInt + delay.delta_.toInt
  rw [Int64.toInt_add]
  have hlow := hfits.1
  have hhigh := hfits.2
  simp only [TimePoint.ticks] at hlow hhigh
  exact Int.bmod_eq_of_le (by omega) (by omega)

namespace TaskQueueEntry

variable {Closure Q : Type} [DelayedTaskQueue Q Closure]

/-- After a registration there is an earliest task: no later than the one registered, and no later
than any that was pending. -/
lemma nextWakeTime_registerTask (e : TaskQueueEntry Closure Q) (order : Int32) (task : Closure)
    (target_time : TimePoint) :
    ∃ time, (e.registerTask order task target_time).getNextWakeTimeUnlocked = some time ∧
      time ≤ target_time ∧ (∀ t ∈ e.pending, time ≤ t.target_time_) ∧
      (time = target_time ∨ ∃ t ∈ e.pending, t.target_time_ = time) := by
  have hpending := e.registerTask_pending order task target_time
  cases htime : (e.registerTask order task target_time).getNextWakeTimeUnlocked with
  | none =>
      rw [pending_of_nextWakeTime_none htime] at hpending
      exact absurd hpending.symm Multiset.cons_ne_zero
  | some time =>
      obtain ⟨⟨t, ht, hearliest⟩, hle⟩ := isEarliest_of_nextWakeTime htime
      rw [hpending] at ht hle
      refine ⟨time, rfl, hle _ (Multiset.mem_cons_self ..),
        fun t ht => hle t (Multiset.mem_cons_of_mem ht), ?_⟩
      rcases Multiset.mem_cons.mp ht with rfl | ht
      · exact Or.inl hearliest.symm
      · exact Or.inr ⟨t, ht, hearliest⟩

end TaskQueueEntry

namespace QueueHistory

variable {Q : Type} [DelayedTaskQueue Q ℕ] {h : QueueHistory Q} {number : ℕ} {target : TimePoint}

/-- The registration with this number is over, and was for this time. -/
structure RegisteredFor (h : QueueHistory Q) (number : ℕ) (target : TimePoint) : Prop where
  registered : number < h.registrations
  pending : ∀ t ∈ h.entry.pending, t.task_ = number → t.target_time_ = target

lemma registeredFor_step (hreg : h.RegisteredFor number target) (c : QueueCall) :
    (h.step c).RegisteredFor number target := by
  cases c with
  | registerTask time =>
      refine ⟨Nat.lt_succ_of_lt hreg.registered, fun t ht hnumber => ?_⟩
      simp only [step, TaskQueueEntry.registerTask_pending, Multiset.mem_cons] at ht
      rcases ht with rfl | ht
      · exact absurd hnumber hreg.registered.ne'
      · exact hreg.pending t ht hnumber
  | registerElsewhere => exact ⟨Nat.lt_succ_of_lt hreg.registered, hreg.pending⟩
  | getTasksToRunNow type now =>
      refine ⟨hreg.registered, fun t ht => hreg.pending t ?_⟩
      exact TaskQueueEntry.mem_of_mem_getTasksToRunNow ht
  | disposeTasks =>
      refine ⟨hreg.registered, fun t ht => ?_⟩
      simp only [step, TaskQueueEntry.disposeTasks_pending] at ht
      exact absurd ht (Multiset.notMem_zero t)

lemma registeredFor_run (hreg : h.RegisteredFor number target) (calls : List QueueCall) :
    (h.run calls).RegisteredFor number target := by
  induction calls generalizing h with
  | nil => exact hreg
  | cons c calls ih => exact ih (registeredFor_step hreg c)

/-- The task that a history registers next. -/
lemma registeredFor_next (acc : h.Accounted) (target : TimePoint) :
    (h.step (.registerTask target)).RegisteredFor h.registrations target := by
  refine ⟨Nat.lt_succ_self _, fun t ht hnumber => ?_⟩
  simp only [step, TaskQueueEntry.registerTask_pending, Multiset.mem_cons] at ht
  rcases ht with rfl | ht
  · rfl
  · have hlt := acc.numbered _ (acc.registered_of_pending ht)
    rw [hnumber] at hlt
    exact absurd hlt (lt_irrefl _)

/-- The delay of a task that is posted now and registered when the clock stands at `registered`:
nothing overflows, and whatever happens to the queue then, no flush with a reading of the clock
before the end of the delay hands the task out. -/
structure RunsAfterDelay (h : QueueHistory Q) (now : TimePoint) (delay : TimeDelta)
    (registered : TimePoint) : Prop where
  sum : FitsInt64 (now.ticks + delay.delta_.toInt)
  later : now ≤ now.add delay
  difference : ∀ time, (h.step (TaskRunner.postDelayTask now delay)).entry.getNextWakeTimeUnlocked =
    some time → FitsInt64 (time.ticks - registered.ticks)
  notBefore : ∀ (calls : List QueueCall) (type : FlushType) (reading : TimePoint),
    reading.ticks < now.ticks + delay.delta_.toInt → h.registrations ∉
      (((h.step (TaskRunner.postDelayTask now delay)).run calls).entry.getTasksToRunNow type reading
        []).2

/-- A task that was registered for a time is not handed out before it. -/
lemma notHandedOut_before (hreg : h.RegisteredFor number target) {type : FlushType}
    {reading : TimePoint} (hbefore : reading < target) :
    number ∉ (h.entry.getTasksToRunNow type reading []).2 := by
  intro hmem
  obtain ⟨t, ht, hnumber, hdue⟩ := TaskQueueEntry.handedOut_due hmem
  rw [hreg.pending t ht hnumber] at hdue
  exact absurd hbefore (not_lt.mpr hdue)

/-- **Delayed tasks.**  For every history of a queue, a task that is posted with a delay has it,
without overflow on the way, if and only if the end of the delay is a time that fits in 64 bits, and
no pending task is more than `2 ^ 63` nanoseconds overdue. -/
theorem runs_after_delay_iff (wakeable : Option Wakeable) (n : ℕ) (before : List QueueCall)
    {now registered : TimePoint} {delay : TimeDelta} (hnow : 0 ≤ now.ticks)
    (hdelay : 0 ≤ delay.delta_.toInt) (hregistered : now ≤ registered) :
    ((created wakeable n : QueueHistory Q).run before).RunsAfterDelay now delay registered ↔
      now.ticks + delay.delta_.toInt < 2 ^ 63 ∧
        ∀ b ∈ ((created wakeable n : QueueHistory Q).run before).entry.pending,
          -2 ^ 63 ≤ b.target_time_.ticks - registered.ticks := by
  have acc := accounted_run (accounted_created (Q := Q) wakeable n) before
  generalize (created wakeable n : QueueHistory Q).run before = h at acc ⊢
  obtain ⟨time, hwake, hle, hfirst, hpending⟩ := h.entry.nextWakeTime_registerTask
    (Int32.ofNat h.registrations) h.registrations (now.add delay)
  constructor
  · rintro ⟨hsum, _, hdifference, _⟩
    refine ⟨hsum.2, fun b hb => ?_⟩
    have hlow := (hdifference time hwake).1
    have hfirst := TimePoint.le_iff.mp (hfirst b hb)
    omega
  · rintro ⟨hsum, hoverdue⟩
    have hfits : FitsInt64 (now.ticks + delay.delta_.toInt) := ⟨by omega, hsum⟩
    have hticks := TimePoint.ticks_add hfits
    have hlater : now ≤ now.add delay := by
      rw [TimePoint.le_iff, hticks]
      omega
    refine ⟨hfits, hlater, fun time' hwake' => ?_, fun calls type reading hreading => ?_⟩
    · obtain rfl : time = time' := Option.some.inj (hwake.symm.trans hwake')
      rw [TimePoint.le_iff] at hle hregistered
      have hlate : registered.ticks < 2 ^ 63 := Int64.toInt_lt registered.ticks_
      refine ⟨?_, by omega⟩
      rcases hpending with rfl | ⟨b, hb, rfl⟩
      · omega
      · exact hoverdue b hb
    · refine notHandedOut_before (registeredFor_run (registeredFor_next acc _) calls) ?_
      rwa [← not_le, TimePoint.le_iff, hticks, not_le]

/-- Behind a task for time 5, a task that is posted at time 1 with a delay of 10 waits. -/
theorem runs_after_delay_ten :
    ((created none 0 : QueueHistory (SortedQueue (@DelayedTask.gt ℕ))).run
      [.registerTask ⟨5⟩]).RunsAfterDelay ⟨1⟩ ⟨10⟩ ⟨2⟩ := by
  refine (runs_after_delay_iff none 0 [.registerTask ⟨5⟩] (by decide) (by decide)
    (by decide)).mpr ⟨by decide, fun b hb => ?_⟩
  obtain rfl := Multiset.mem_singleton.mp
    (show b ∈ ({⟨DelayedTask.orderOf 0, 0, ⟨5⟩⟩} : Multiset (DelayedTask ℕ)) from hb)
  decide

/-- A task that is posted at time 1 with the longest delay comes out of a flush at time 1: the sum
is the earliest time there is. -/
theorem longest_delay_runs_at_once :
    ¬ ∀ (wakeable : Option Wakeable) (n : ℕ) (before : List QueueCall)
      (now registered : TimePoint) (delay : TimeDelta), 0 ≤ now.ticks → 0 ≤ delay.delta_.toInt →
        now ≤ registered →
          ((created wakeable n : QueueHistory (SortedQueue (@DelayedTask.gt ℕ))).run
            before).RunsAfterDelay now delay registered := by
  intro hall
  have hruns := hall none 0 [] ⟨1⟩ ⟨1⟩ TimeDelta.max (by decide) (by decide) le_rfl
  have hearly : 0 ∉ [0] := hruns.notBefore [] .kAll ⟨1⟩ (by decide)
  exact hearly (List.mem_singleton_self 0)

end QueueHistory

end FFNetwork
