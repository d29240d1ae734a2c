import FFNetwork.Base.Thread.WaitableEvent

/-!
# The budget of `WaitWithTimeout`

One call of `AutoResetWaitableEvent::WaitWithTimeout` that nobody signals: it wakes up without a
reason any number of times, and in the end `wait_for` may report a timeout.  The clock does not go
back, and `wait_for` does not report a timeout before its own time is up.

* `TimedCall.step` — a wake-up or a timeout.
* `TimedWait.Renewed` — a `wait_for` that ends exactly when the call is due.
* **`spends_its_budget`** — all renewed waits do, and a call that reports a timeout is due.
-/

namespace FFNetwork

open StepSystem

/-- The `wait_for` that a section of `WaitWithTimeout` ends in. -/
def Progress.waits? : Progress → List TimedWait
  | .returns _ => []
  | .waits w => [w]

/-- A call of `WaitWithTimeout`: how far it is, the `wait_for` calls it has made and the latest
reading of the clock. -/
structure TimedCall (Thread : Type) where
  event : AutoResetWaitableEvent Thread
  progress : Progress
  waited : List TimedWait
  clock : TimePoint

/-- How a `wait_for` ends without a signal, with the next reading of the clock. -/
inductive WaitOutcome where
  | spuriousWake (now : TimePoint)
  | timedOut (now : TimePoint)

/-- The call for `timeout` made at `start` is due at this time. -/
def due (timeout : TimeDelta) (start : TimePoint) : ℤ := start.ticks + timeout.delta_.toInt

/-- A `wait_for` of the call that ends when the call is due. -/
structure TimedWait.OnBudget (w : TimedWait) (timeout : TimeDelta) (start : TimePoint) : Prop where
  timeout_eq : w.timeout = timeout
  start_eq : w.start_time = start
  ends : w.since.ticks + w.time_remaining.delta_.toInt = due timeout start

/-- A `wait_for` that is given a positive rest of the timeout, before the call is due. -/
structure TimedWait.Renewed (w : TimedWait) (timeout : TimeDelta) (start : TimePoint) : Prop
    extends w.OnBudget timeout start where
  pos : 0 < w.time_remaining.delta_.toInt
  le : w.time_remaining.delta_.toInt ≤ timeout.delta_.toInt
  early : w.since.ticks < due timeout start

namespace TimedCall

variable {Thread : Type} [DecidableEq Thread] {thread : Thread} {c c' : TimedCall Thread}
  {timeout : TimeDelta} {start now : TimePoint}

/-- The call up to its first `wait_for`. -/
def enter (event : AutoResetWaitableEvent Thread) (thread : Thread) (timeout : TimeDelta)
    (start : TimePoint) : TimedCall Thread :=
  let r := event.waitWithTimeout thread timeout start
  ⟨r.1, r.2, r.2.waits?, start⟩

/-- The end of a `wait_for`, up to the next one or the return of the call. -/
def step (thread : Thread) (c : TimedCall Thread) : WaitOutcome → Option (TimedCall Thread)
  | .spuriousWake now =>
      match c.progress with
      | .returns _ => none
      | .waits w =>
          if c.clock ≤ now then
            ((c.event.cv_.wake thread).bind fun cv_ => cv_.resume thread).map fun cv_ =>
              let r := { c.event with cv_ := cv_ }.awoken thread w now
              ⟨r.1, r.2, c.waited ++ r.2.waits?, now⟩
          else none
  | .timedOut now =>
      match c.progress with
      | .returns _ => none
      | .waits w =>
          if c.clock ≤ now ∧ w.deadline ≤ now.ticks then
            (c.event.cv_.giveUp thread).map fun cv_ =>
              ⟨{ c.event with cv_ := cv_ }, .returns true, c.waited, now⟩
          else none

/-- What a step can do. -/
inductive Moves (thread : Thread) (c : TimedCall Thread) :
    WaitOutcome → TimedCall Thread → Prop
  | spuriousWake {w : TimedWait} {now : TimePoint} (cv_ : CondVar Thread)
      (hwaits : c.progress = .waits w) (hclock : c.clock ≤ now) :
      c.Moves thread (.spuriousWake now)
        ⟨({ c.event with cv_ := cv_ }.awoken thread w now).1,
          ({ c.event with cv_ := cv_ }.awoken thread w now).2,
          c.waited ++ ({ c.event with cv_ := cv_ }.awoken thread w now).2.waits?, now⟩
  | timedOut {w : TimedWait} {now : TimePoint} (cv_ : CondVar Thread)
      (hwaits : c.progress = .waits w) (hclock : c.clock ≤ now)
      (hdeadline : w.deadline ≤ now.ticks) :
      c.Moves thread (.timedOut now) ⟨{ c.event with cv_ := cv_ }, .returns true, c.waited, now⟩

lemma moves_of_step {a : WaitOutcome} (hstep : c.step thread a = some c') :
    c.Moves thread a c' := by
  cases a with
  | spuriousWake now =>
      simp only [step] at hstep
      split at hstep
      · cases hstep
      · next w hwaits =>
          simp only [Option.ite_none_right_eq_some, Option.map_eq_some_iff] at hstep
          rcases hstep with ⟨hclock, cv_, _, rfl⟩
          exact .spuriousWake cv_ hwaits hclock
  | timedOut now =>
      simp only [step] at hstep
      split at hstep
      · cases hstep
      · next w hwaits =>
          simp only [Option.ite_none_right_eq_some, Option.map_eq_some_iff] at hstep
          rcases hstep with ⟨⟨hclock, hdeadline⟩, cv_, _, rfl⟩
          exact .timedOut cv_ hwaits hclock hdeadline

/-! ## The budget -/

/-- The first `wait_for` is given the whole timeout and the others what is left of it; the call has
not been signaled, and a timeout that it reports is due. -/
structure OnBudget (c : TimedCall Thread) (thread : Thread) (timeout : TimeDelta)
    (start : TimePoint) : Prop where
  down : c.event.signaled_ = false
  started : start ≤ c.clock
  waited : ∃ renewed, c.waited = ⟨timeout, start, timeout, start⟩ :: renewed ∧
    ∀ w ∈ renewed, w.Renewed timeout start
  waits : ∀ w, c.progress = .waits w → w.OnBudget timeout start ∧ thread ∈ c.event.cv_.blocked
  returns : ∀ timedOut, c.progress = .returns timedOut →
    timedOut = true ∧ due timeout start ≤ c.clock.ticks

lemma onBudget_enter (event : AutoResetWaitableEvent Thread) (thread : Thread)
    (timeout : TimeDelta) (start : TimePoint) (hdown : event.signaled_ = false) :
    (enter event thread timeout start).OnBudget thread timeout start := by
  rw [enter, AutoResetWaitableEvent.waitWithTimeout,
    if_neg (by rw [hdown]; exact Bool.false_ne_true)]
  refine ⟨hdown, le_rfl, ⟨[], rfl, by simp⟩, ?_, ?_⟩
  · intro w hw
    cases hw
    exact ⟨⟨rfl, rfl, rfl⟩, Finset.mem_insert_self ..⟩
  · intro timedOut hreturns
    cases hreturns

/-- What is left of the timeout after a wake-up is positive and ends when the call is due. -/
lemma renewed_of_lt {w : TimedWait} (hw : w.OnBudget timeout start) (hnow : start ≤ now)
    (hspan : now.ticks - start.ticks < 2 ^ 63) (hlt : ¬ w.timeout ≤ now.sub w.start_time) :
    ({ w with
        time_remaining := w.timeout.sub (now.sub w.start_time)
        since := now } : TimedWait).Renewed timeout start := by
  have helapsed := TimePoint.toInt_sub hnow hspan
  rw [TimePoint.le_iff] at hnow
  have hmax := timeout.delta_.toInt_lt
  rw [hw.timeout_eq, hw.start_eq] at hlt ⊢
  have hlt : (now.sub start).delta_.toInt < timeout.delta_.toInt :=
    not_le.mp fun hle => hlt (Int64.le_iff_toInt_le.mpr hle)
  have hrest : (timeout.sub (now.sub start)).delta_.toInt =
      timeout.delta_.toInt - (now.ticks - start.ticks) := by
    show (timeout.delta_ - (now.sub start).delta_).toInt = _
    rw [Int64.toInt_sub, helapsed]
    exact Int.bmod_eq_of_le (by omega) (by omega)
  refine ⟨⟨rfl, rfl, ?_⟩, ?_, ?_, ?_⟩
  · show now.ticks + (timeout.sub (now.sub start)).delta_.toInt = _
    rw [hrest, due]
    omega
  · rw [hrest]
    omega
  · rw [hrest]
    omega
  · show now.ticks < _
    rw [due]
    omega

/-- A call that finds its timeout spent is due. -/
lemma due_of_le {w : TimedWait} (hw : w.OnBudget timeout start) (hnow : start ≤ now)
    (hspan : now.ticks - start.ticks < 2 ^ 63) (hle : w.timeout ≤ now.sub w.start_time) :
    due timeout start ≤ now.ticks := by
  have helapsed := TimePoint.toInt_sub hnow hspan
  rw [hw.timeout_eq, hw.start_eq] at hle
  have hle : timeout.delta_.toInt ≤ (now.sub start).delta_.toInt := Int64.le_iff_toInt_le.mp hle
  rw [due]
  omega

lemma OnBudget.moves {a : WaitOutcome} (hc : c.OnBudget thread timeout start)
    (hmoves : c.Moves thread a c') (hspan : c'.clock.ticks - start.ticks < 2 ^ 63) :
    c'.OnBudget thread timeout start := by
  cases hmoves with
  | @spuriousWake w now cv_ hwaits hclock =>
      have hnow : start ≤ now := hc.started.trans hclock
      have hw := (hc.waits w hwaits).1
      rcases hc.waited with ⟨renewed, hwaited, hrenewed⟩
      have hdown : ¬ c.event.signaled_ = true := Bool.eq_false_iff.mp hc.down
      rw [AutoResetWaitableEvent.awoken, if_neg hdown]
      by_cases hle : w.timeout ≤ now.sub w.start_time
      -- the timeout is spent, and the call returns
      · rw [if_pos hle]
        refine ⟨hc.down, hnow, ⟨renewed, by simp [hwaited, Progress.waits?], hrenewed⟩, ?_, ?_⟩
        · intro w' hw'
          cases hw'
        · intro timedOut hreturns
          cases hreturns
          exact ⟨rfl, due_of_le hw hnow hspan hle⟩
      -- the call waits for what is left of it
      · rw [if_neg hle]
        have hnew := renewed_of_lt hw hnow hspan hle
        refine ⟨hc.down, hnow, ⟨renewed ++
          [{ w with time_remaining := w.timeout.sub (now.sub w.start_time), since := now }],
          by simp [hwaited, Progress.waits?], ?_⟩, ?_, ?_⟩
        · intro w' hw'
          rcases List.mem_append.mp hw' with hw' | hw'
          · exact hrenewed w' hw'
          · exact List.mem_singleton.mp hw' ▸ hnew
        · intro w' hw'
          cases hw'
          exact ⟨hnew.toOnBudget, Finset.mem_insert_self ..⟩
        · intro timedOut hreturns
          cases hreturns
  | @timedOut w now cv_ hwaits hclock hdeadline =>
      refine ⟨hc.down, hc.started.trans hclock, hc.waited, ?_, ?_⟩
      · intro w' hw'
        cases hw'
      · intro timedOut hreturns
        cases hreturns
        exact ⟨rfl, (hc.waits w hwaits).1.ends ▸ hdeadline⟩

/-- A call that waits can wake up without a reason at any time. -/
lemma OnBudget.wakes (hc : c.OnBudget thread timeout start) {w : TimedWait}
    (hwaits : c.progress = .waits w) (hclock : c.clock ≤ now) :
    (c.step thread (.spuriousWake now)).isSome := by
  have hasleep := (hc.waits w hwaits).2
  simp [step, hwaits, hclock, CondVar.wake, CondVar.resume, hasleep]

/-- **`WaitWithTimeout` spends its budget exactly.**  However often it wakes up, the first
`wait_for` is given the timeout, every other one a positive rest of it that ends when the call is
due, and a call that returns reports a timeout and is due.  The readings of a steady clock are not
negative. -/
theorem spends_its_budget (event : AutoResetWaitableEvent Thread) (thread : Thread)
    (timeout : TimeDelta) (start : TimePoint) (hdown : event.signaled_ = false)
    (hsteady : 0 ≤ start.ticks) (outcomes : List WaitOutcome) (c : TimedCall Thread)
    (hrun : run (step thread) (enter event thread timeout start) outcomes = some c) :
    (∃ renewed, c.waited = ⟨timeout, start, timeout, start⟩ :: renewed ∧
      ∀ w ∈ renewed, w.Renewed timeout start) ∧
    (∀ timedOut, c.progress = .returns timedOut →
      timedOut = true ∧ start.ticks + timeout.delta_.toInt ≤ c.clock.ticks) ∧
    ∀ w now, c.progress = .waits w → c.clock ≤ now →
      (c.step thread (.spuriousWake now)).isSome := by
  have hinv := run_invariant (I := fun c : TimedCall Thread => c.OnBudget thread timeout start)
    (fun c a c' hc hstep => by
      have hspan : c'.clock.ticks < 2 ^ 63 := c'.clock.ticks_.toInt_lt
      exact hc.moves (moves_of_step hstep) (by omega))
    (onBudget_enter event thread timeout start hdown) hrun
  exact ⟨hinv.waited, hinv.returns, fun w now hwaits hclock => hinv.wakes hwaits hclock⟩

/-- Two wake-ups before the deadline of ten nanoseconds, one of them at once. -/
theorem spends_its_budget_twice :
    ∃ c : TimedCall ℕ,
      run (step 0) (enter .create 0 ⟨10⟩ ⟨100⟩)
        [.spuriousWake ⟨100⟩, .spuriousWake ⟨107⟩, .timedOut ⟨110⟩] = some c ∧
      (∃ renewed, c.waited = ⟨⟨10⟩, ⟨100⟩, ⟨10⟩, ⟨100⟩⟩ :: renewed ∧
        ∀ w ∈ renewed, w.Renewed ⟨10⟩ ⟨100⟩) ∧
      (∀ timedOut, c.progress = .returns timedOut →
        timedOut = true ∧
          (⟨100⟩ : TimePoint).ticks + (⟨10⟩ : TimeDelta).delta_.toInt ≤ c.clock.ticks) ∧
      ∀ w now, c.progress = .waits w → c.clock ≤ now →
        (c.step 0 (.spuriousWake now)).isSome :=
  ⟨_, rfl, spends_its_budget .create 0 ⟨10⟩ ⟨100⟩ rfl (by decide)
    [.spuriousWake ⟨100⟩, .spuriousWake ⟨107⟩, .timedOut ⟨110⟩] _ rfl⟩

end TimedCall

end FFNetwork
