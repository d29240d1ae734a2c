import FFNetwork.Base.MessageLoop.LoopImpl
import FFNetwork.Base.MessageLoop.TimerRearm
import FFNetwork.Lib.TimerFd

/-!
# The loop and its timer

`MessageLoopImplLinux` between its parts: the store calls `WakeUp` under the queue's mutex, which
sets the timer; the loop thread waits for the timer in `epoll_wait`, reads it in `TimerDrain`
without the mutex, and flushes the queue.  `DoTerminate` sets the timer too, without the mutex.
The model adds the timer, the clock, `running_` and the place in `RunForTime` to a `LoopImpl`, and
interleaves the loop thread with threads that post and terminate.  When the duration is over and
what `errno` stands at is left open.

* `LinuxLoop.step` — the step function; `impl_run` says that it refines that of `LoopImpl`.
* `Timely` — the invariant: the timer stands at the earliest pending task, or has just been read.
* **`asleep_accounted`** — a loop thread that is left waiting has no due task to run.
* **`termination_wakes_iff`** — when `DoTerminate` wakes the loop thread up, while `running_` is
  still cleared.
-/

namespace FFNetwork

open PriorityQueue StepSystem

/-! ## The timer after `WakeUp` calls -/

/-- The timer after `MessageLoopImplLinux::WakeUp`. -/
def armed (time_point : TimePoint) : TimerFd :=
  .settime (timerRearm time_point).it_value.nanoseconds
    (timerRearm time_point).it_interval.nanoseconds

/-- The timer fires for the time, once that has come, exactly for the positive times. -/
lemma readable_armed {t now : TimePoint} :
    (armed t).Readable now.ticks ↔ 0 < t.ticks ∧ t ≤ now := by
  have ht := t.ticks_.le_toInt
  have hnow := now.ticks_.toInt_lt
  have htticks : t.ticks = t.ticks_.toInt := rfl
  have hnowticks : now.ticks = now.ticks_.toInt := rfl
  rw [armed, TimerFd.readable_settime, timerRearm_nanoseconds, TimePoint.le_iff]
  split <;> omega

lemma armed_next {t : TimePoint} (ht : 0 < t.ticks) : (armed t).next = some t.ticks := by
  rw [armed, timerRearm_nanoseconds, if_pos ht.le, TimerFd.settime, if_neg ht.ne']

namespace TaskQueueEntry

variable {Closure Q : Type} [DelayedTaskQueue Q Closure] {e e' : TaskQueueEntry Closure Q}

lemma IsEarliest.of_pending {time : TimePoint} (h : e.IsEarliest time)
    (hpending : e'.pending = e.pending) : e'.IsEarliest time := by
  rwa [IsEarliest, hpending]

/-- The `WakeUp` calls so far, the last one first. -/
def wakeUpCalls (e : TaskQueueEntry Closure Q) : List TimePoint :=
  (e.wakeable.map Wakeable.calls).getD []

/-- What the calls of a method that holds the mutex do to the timer. -/
def timerAfter (e e' : TaskQueueEntry Closure Q) (timer : TimerFd) : TimerFd :=
  (e'.wakeUpCalls.take (e'.wakeUpCalls.length - e.wakeUpCalls.length)).foldr
    (fun time_point _ => armed time_point) timer

omit [DelayedTaskQueue Q Closure] in
lemma timerAfter_self (e : TaskQueueEntry Closure Q) (timer : TimerFd) :
    e.timerAfter e timer = timer := by
  rw [timerAfter, Nat.sub_self, List.take_zero, List.foldr_nil]

/-- The calls of one method: without one the tasks stay, and the last one is for the earliest task
left. -/
structure Rearms (e e' : TaskQueueEntry Closure Q) (calls : List TimePoint) : Prop where
  calls_eq : e'.wakeUpCalls = calls ++ e.wakeUpCalls
  isSome : e'.wakeable.isSome
  unchanged : calls = [] → e'.pending = e.pending
  earliest : ∀ time, calls.head? = some time → e'.pending ≠ 0 → e'.IsEarliest time

lemma Rearms.timerAfter_eq {timer : TimerFd} {calls : List TimePoint} (h : Rearms e e' calls) :
    e.timerAfter e' timer = (calls.head?.map armed).getD timer := by
  rw [timerAfter, h.calls_eq, List.length_append, Nat.add_sub_cancel, List.take_left]
  cases calls <;> rfl

lemma rearms_nil (hw : e'.wakeable.isSome) (hwakeable : e'.wakeable = e.wakeable)
    (hpending : e'.pending = e.pending) : Rearms e e' [] :=
  ⟨by rw [wakeUpCalls, hwakeable]; rfl, hw, fun _ => hpending, by simp⟩

lemma rearms_wakeUpUnlocked {time : TimePoint} (hw : e.wakeable.isSome)
    (h : e.pending ≠ 0 → e.IsEarliest time) : Rearms e (e.wakeUpUnlocked time) [time] := by
  obtain ⟨w, hw⟩ := Option.isSome_iff_exists.mp hw
  refine ⟨?_, ?_, by simp, ?_⟩
  · simp [wakeUpCalls, wakeUpUnlocked, hw, Wakeable.wakeUp]
  · simp [wakeUpUnlocked, hw]
  · rintro _ ⟨rfl⟩
    exact h

lemma rearms_rearmUnlocked (hw : e.wakeable.isSome) : ∃ time, Rearms e e.rearmUnlocked [time] := by
  rw [rearmUnlocked]
  split
  · next hnone =>
      exact ⟨_, rearms_wakeUpUnlocked hw fun hne => absurd (pending_of_nextWakeTime_none hnone) hne⟩
  · next time htime => exact ⟨_, rearms_wakeUpUnlocked hw fun _ => isEarliest_of_nextWakeTime htime⟩

/-- A registration makes one call, for the earliest task. -/
lemma rearms_registerTask (hw : e.wakeable.isSome) (order : Int32) (task : Closure)
    (target_time : TimePoint) :
    ∃ time, Rearms e (e.registerTask order task target_time) [time] ∧
      (e.registerTask order task target_time).IsEarliest time := by
  have hpending := e.registerTask_pending order task target_time
  rw [registerTask] at hpending ⊢
  set pushed : TaskQueueEntry Closure Q := { e with
    delayed_tasks := push ⟨DelayedTask.castOrder order, task, target_time⟩ e.delayed_tasks }
  split
  · next hnone =>
      simp only [hnone, pending_of_nextWakeTime_none hnone] at hpending
      exact absurd hpending.symm Multiset.cons_ne_zero
  · next time htime =>
      have hearliest := isEarliest_of_nextWakeTime htime
      have h := rearms_wakeUpUnlocked (e := pushed) hw fun _ => hearliest
      exact ⟨time, ⟨h.calls_eq, h.isSome, by simp, h.earliest⟩, hearliest⟩

/-- Each round of a full flush that hands out a task ends with a call, for the earliest task that is
left then; the induction is on the rounds. -/
lemma rearms_flushLoop (now : TimePoint) (n : ℕ) (hw : e.wakeable.isSome)
    (invocations : List Closure) :
    ∃ calls, Rearms e (flushLoop .kAll now n e invocations).1 calls := by
  induction n generalizing e invocations with
  | zero => exact ⟨[], rearms_nil hw rfl rfl⟩
  | succ n ih =>
      rw [flushLoop]
      split
      · exact ⟨[], rearms_nil hw rfl rfl⟩
      · next top_task _ =>
          split
          · exact ⟨[], rearms_nil hw rfl rfl⟩
          · set popped : TaskQueueEntry Closure Q := { e with delayed_tasks := pop e.delayed_tasks }
            obtain ⟨time, hone⟩ := rearms_rearmUnlocked (e := popped) hw
            obtain ⟨calls, hrest⟩ := ih hone.isSome (invocations ++ [top_task.task_])
            rw [if_neg (by decide)]
            refine ⟨calls ++ [time], ?_, hrest.isSome, by simp, ?_⟩
            · rw [hrest.calls_eq, hone.calls_eq, List.append_assoc]
              rfl
            · cases calls with
              | nil =>
                  rintro _ ⟨rfl⟩ hne
                  rw [hrest.unchanged rfl] at hne
                  exact (hone.earliest time rfl hne).of_pending (hrest.unchanged rfl)
              | cons last calls => exact hrest.earliest

/-- **The timer after a full flush.**  If it stays as it is, then no task was due. -/
lemma rearms_getTasksToRunNow (hw : e.wakeable.isSome) (now : TimePoint)
    (invocations : List Closure) :
    ∃ calls, Rearms e (e.getTasksToRunNow .kAll now invocations).1 calls ∧
      (calls = [] → ∀ t ∈ e.pending, now < t.target_time_) := by
  obtain ⟨calls, h⟩ := rearms_flushLoop now (size e.delayed_tasks) hw invocations
  refine ⟨calls, h, fun hnil t ht => ?_⟩
  obtain ⟨_, _, _, hpending, _⟩ := e.getTasksToRunNow_kAll now invocations
  have hunchanged : e.pending = e.pending.filter fun t => now < t.target_time_ :=
    (h.unchanged hnil).symm.trans hpending
  rw [hunchanged] at ht
  exact (Multiset.mem_filter.mp ht).2

/-- The timer after the calls of a method stands at the earliest task, or has not been touched. -/
lemma Rearms.next_eq {calls : List TimePoint} {time : TimePoint} {timer : TimerFd}
    (h : Rearms e e' calls) (hpos : ∀ t ∈ e'.pending, 0 < t.target_time_.ticks)
    (htime : e'.IsEarliest time) :
    (e.timerAfter e' timer).next = some time.ticks ∨
      (calls = [] ∧ e.timerAfter e' timer = timer ∧ e.IsEarliest time) := by
  rw [h.timerAfter_eq]
  cases calls with
  | nil => exact Or.inr ⟨rfl, rfl, htime.of_pending (h.unchanged rfl).symm⟩
  | cons last calls =>
      obtain ⟨t, ht, rfl⟩ := htime.1
      have hne : e'.pending ≠ 0 := by
        rintro hzero
        rw [hzero] at ht
        exact absurd ht (Multiset.notMem_zero t)
      obtain rfl := (h.earliest last rfl hne).unique htime
      exact Or.inl (armed_next (hpos t ht))

lemma exists_isEarliest {t : DelayedTask Closure} (ht : t ∈ e.pending) :
    ∃ time, e.IsEarliest time := by
  cases hnext : e.getNextWakeTimeUnlocked with
  | none =>
      rw [pending_of_nextWakeTime_none hnext] at ht
      exact absurd ht (Multiset.notMem_zero t)
  | some time => exact ⟨time, isEarliest_of_nextWakeTime hnext⟩

end TaskQueueEntry

/-! ## The system -/

/-- Where the loop thread is in `RunForTime`. -/
inductive LinuxPhase
  /-- Outside, or in a flush. -/
  | away
  /-- Before `running_ = true`. -/
  | entering
  /-- Before `while (running_)`. -/
  | testing
  /-- In `epoll_wait`. -/
  | polling
  /-- Behind an `epoll_wait` that has returned the timer. -/
  | woken
  /-- Behind a `TimerDrain` that has returned true. -/
  | drained
  /-- Behind the while loop. -/
  | left
deriving DecidableEq, Repr

/-- The loop with its timer.  `clearing` and `waking` count the `DoTerminate` calls that are about
to clear `running_` and to wake the loop up. -/
structure LinuxLoop (Q : Type) where
  impl : LoopImpl Q
  timer : TimerFd
  running_ : Bool
  phase : LinuxPhase
  clock : TimePoint
  clearing : ℕ
  waking : ℕ

/-- The steps of the loop thread with its timer, of the posters and of the `DoTerminate` calls. -/
inductive LinuxAction
  | passTime (now : TimePoint)
  /-- A step of the `MessageLoopImpl`. -/
  | loop (a : LoopAction)
  | setRunning
  | testRunning
  /-- `epoll_wait` returns the timer. -/
  | epollEvent
  /-- It returns without the timer, which may stop the loop. -/
  | epollOther (stops : Bool)
  | timerDrain
  /-- The duration is over at the end of an iteration. -/
  | timeOver
  /-- The second step of a `DoTerminate`. -/
  | clearRunning
  /-- The last step of a `DoTerminate`. -/
  | wakeUp
deriving Repr

namespace LinuxLoop

variable {Q : Type} [DelayedTaskQueue Q ℕ]

/-- `MessageLoopImplLinux::MessageLoopImplLinux`. -/
def create (n : ℕ) (clock : TimePoint) : LinuxLoop Q :=
  ⟨.create n, .created, false, .away, clock, 0, 0⟩

/-- A flush needs the timer drained, or is the last one behind the loop, and reads the clock. -/
def Allows (s : LinuxLoop Q) : LoopAction → Prop
  | .onEventFired now => s.phase = .drained ∧ now = s.clock
  | .runExpiredTasksNow now => now = s.clock
  | .runReturns => s.phase = .left
  | _ => True

instance (s : LinuxLoop Q) (a : LoopAction) : Decidable (s.Allows a) := by
  unfold Allows
  split <;> infer_instance

/-- Where the loop thread is in `RunForTime` after a step of the `MessageLoopImpl`. -/
def phaseAfter (s : LinuxLoop Q) : LoopAction → LinuxPhase
  | .doRun | .doRunForTime => if s.impl.terminated_ then s.phase else .entering
  | .onEventFired _ => .away
  | .flushed => .testing
  | .runReturns => .away
  | _ => s.phase

/-- Each `DoTerminate` has `running_` still to clear. -/
def clearingAfter (s : LinuxLoop Q) : LoopAction → ℕ
  | .doTerminate => s.clearing + 1
  | _ => s.clearing

/-- The step function; a step of the `MessageLoopImpl` sets the timer for its `WakeUp` calls. -/
def step (s : LinuxLoop Q) : LinuxAction → Option (LinuxLoop Q)
  | .passTime now => if s.clock ≤ now then some { s with clock := now } else none
  | .loop a =>
      if s.Allows a then
        (s.impl.step a).map fun impl =>
          { s with
            impl := impl
            timer := s.impl.queue.entry.timerAfter impl.queue.entry s.timer
            phase := s.phaseAfter a
            clearing := s.clearingAfter a }
      else none
  | .setRunning =>
      if s.phase = .entering then some { s with running_ := true, phase := .testing } else none
  | .testRunning =>
      if s.phase = .testing then
        some { s with phase := if s.running_ then .polling else .left }
      else none
  | .epollEvent =>
      if s.phase = .polling ∧ s.timer.Readable s.clock.ticks then some { s with phase := .woken }
      else none
  | .epollOther stops =>
      if s.phase = .polling then
        some { s with running_ := s.running_ && !stops, phase := .testing }
      else none
  | .timerDrain =>
      if s.phase = .woken then
        match s.timer.read s.clock.ticks with
        | none => some { s with phase := .testing }
        | some (fire_count, timer) =>
            some { s with timer := timer, phase := if 0 < fire_count then .drained else .testing }
      else none
  | .timeOver => if s.phase = .testing then some { s with running_ := false } else none
  | .clearRunning =>
      if 0 < s.clearing then
        some { s with running_ := false, clearing := s.clearing - 1, waking := s.waking + 1 }
      else none
  | .wakeUp =>
      if 0 < s.waking then some { s with timer := armed s.clock, waking := s.waking - 1 } else none

/-! ## What a step can be -/

/-- The transitions, each with what has to hold for it. -/
inductive Moves (s : LinuxLoop Q) : LinuxAction → LinuxLoop Q → Prop
  | passTime {now : TimePoint} (hle : s.clock ≤ now) :
      Moves s (.passTime now) { s with clock := now }
  | loop {a : LoopAction} {impl : LoopImpl Q} (hallows : s.Allows a)
      (himpl : s.impl.step a = some impl) :
      Moves s (.loop a) { s with
        impl := impl
        timer := s.impl.queue.entry.timerAfter impl.queue.entry s.timer
        phase := s.phaseAfter a
        clearing := s.clearingAfter a }
  | setRunning (hphase : s.phase = .entering) :
      Moves s .setRunning { s with running_ := true, phase := .testing }
  | testRunning (hphase : s.phase = .testing) (hrun : s.running_ = true) :
      Moves s .testRunning { s with phase := .polling }
  | testStopped (hphase : s.phase = .testing) (hrun : s.running_ = false) :
      Moves s .testRunning { s with phase := .left }
  | epollEvent (hphase : s.phase = .polling) (hready : s.timer.Readable s.clock.ticks) :
      Moves s .epollEvent { s with phase := .woken }
  | epollOther {stops : Bool} (hphase : s.phase = .polling) :
      Moves s (.epollOther stops) { s with running_ := s.running_ && !stops, phase := .testing }
  | drainFails (hphase : s.phase = .woken) (hready : ¬ s.timer.Readable s.clock.ticks) :
      Moves s .timerDrain { s with phase := .testing }
  | timerDrain {fire_count : ℕ} {timer : TimerFd} (hphase : s.phase = .woken)
      (hread : s.timer.read s.clock.ticks = some (fire_count, timer)) (hcount : 0 < fire_count) :
      Moves s .timerDrain { s with timer := timer, phase := .drained }
  | timeOver (hphase : s.phase = .testing) : Moves s .timeOver { s with running_ := false }
  | clearRunning (hclearing : 0 < s.clearing) : Moves s .clearRunning
      { s with running_ := false, clearing := s.clearing - 1, waking := s.waking + 1 }
  | wakeUp (hwaking : 0 < s.waking) :
      Moves s .wakeUp { s with timer := armed s.clock, waking := s.waking - 1 }

variable {s t u : LinuxLoop Q} {a : LinuxAction} {acts : List LinuxAction}

theorem moves_of_step (ht : s.step a = some t) : s.Moves a t := by
  cases a with
  | passTime now =>
      simp only [step] at ht
      split at ht <;> cases ht
      exact .passTime ‹_›
  | loop a =>
      simp only [step] at ht
      split at ht
      · next hallows =>
          obtain ⟨impl, himpl, rfl⟩ := Option.map_eq_some_iff.mp ht
          exact .loop hallows himpl
      · cases ht
  | setRunning =>
      simp only [step] at ht
      split at ht <;> cases ht
      exact .setRunning ‹_›
  | testRunning =>
      simp only [step] at ht
      split at ht
      · next hphase =>
          obtain rfl := Option.some.inj ht
          split
          · next hrun => exact .testRunning hphase hrun
          · next hrun => exact .testStopped hphase (Bool.eq_false_iff.mpr hrun)
      · cases ht
  | epollEvent =>
      simp only [step] at ht
      split at ht
      · next h =>
          obtain rfl := Option.some.inj ht
          exact .epollEvent h.1 h.2
      · cases ht
  | epollOther stops =>
      simp only [step] at ht
      split at ht <;> cases ht
      exact .epollOther ‹_›
  | timerDrain =>
      simp only [step] at ht
      split at ht
      · next hphase =>
          split at ht
          · next hread =>
              obtain rfl := Option.some.inj ht
              exact .drainFails hphase (TimerFd.read_eq_none_iff.mp hread)
          · next fire_count timer hread =>
              obtain rfl := Option.some.inj ht
              have hcount := (TimerFd.read_eq_some hread).2
              rw [if_pos hcount]
              exact .timerDrain hphase hread hcount
      · cases ht
  | timeOver =>
      simp only [step] at ht
      split at ht <;> cases ht
      exact .timeOver ‹_›
  | clearRunning =>
      simp only [step] at ht
      split at ht <;> cases ht
      exact .clearRunning ‹_›
  | wakeUp =>
      simp only [step] at ht
      split at ht <;> cases ht
      exact .wakeUp ‹_›

/-! ## The loop without its timer -/

/-- The steps that a `MessageLoopImpl` sees. -/
def implAction : LinuxAction → Option LoopAction
  | .loop a => some a
  | _ => none

/-- **Refinement.**  Without timer, clock and phase a run is one of `MessageLoopImpl`. -/
theorem impl_run (hu : run step s acts = some u) :
    run LoopImpl.step s.impl (acts.filterMap implAction) = some u.impl := by
  induction acts generalizing s with
  | nil =>
      obtain rfl := Option.some.inj hu
      rfl
  | cons a acts ih =>
      obtain ⟨t, ht, hrest⟩ := run_cons_eq_some.mp hu
      have hu := ih hrest
      cases moves_of_step ht with
      | loop hallows himpl => exact run_cons_eq_some.mpr ⟨_, himpl, hu⟩
      | _ => exact hu

/-! ## Where the threads are -/

/-- The loop thread is inside `RunForTime` when its phase says so, and a `DoTerminate` call under
way has set `terminated_`. -/
structure Placed (s : LinuxLoop Q) : Prop where
  isSome : s.impl.queue.entry.wakeable.isSome
  inside : s.phase ≠ .away → ∃ call, s.impl.control = .waiting call
  begun : 0 < s.clearing ∨ 0 < s.waking → s.impl.terminated_ = true

lemma placed_create (n : ℕ) (clock : TimePoint) : (create n clock : LinuxLoop Q).Placed where
  isSome := rfl
  inside h := absurd rfl h
  begun h := by simp [create] at h

omit [DelayedTaskQueue Q ℕ] in
lemma Placed.away (hs : s.Placed) (hcontrol : ∀ call, s.impl.control ≠ .waiting call) :
    s.phase = .away := by
  by_contra hphase
  obtain ⟨call, hcall⟩ := hs.inside hphase
  exact hcontrol call hcall

lemma Placed.loop (hs : s.Placed) {a : LoopAction} {impl : LoopImpl Q} (hallows : s.Allows a)
    (himpl : s.impl.step a = some impl) :
    Placed { s with
      impl := impl
      timer := s.impl.queue.entry.timerAfter impl.queue.entry s.timer
      phase := s.phaseAfter a
      clearing := s.clearingAfter a } := by
  obtain ⟨_, hflush, _⟩ := TaskQueueEntry.rearms_getTasksToRunNow hs.isSome s.clock
    s.impl.queue.invocations
  cases LoopImpl.moves_of_step himpl with
  | doRunTerminated hout hterm | doRunForTimeTerminated hout hterm =>
      exact ⟨hs.isSome, by simpa [phaseAfter, hterm] using hs.inside, hs.begun⟩
  | doRun hout hterm | doRunForTime hout hterm => exact ⟨hs.isSome, fun _ => ⟨_, rfl⟩, hs.begun⟩
  | onEventFired hwait =>
      obtain ⟨_, rfl⟩ := hallows
      exact ⟨hflush.isSome, fun hnot => absurd rfl hnot, hs.begun⟩
  | invoke hcontrol | invokeLast hcontrol =>
      exact ⟨hs.isSome, fun hnot => absurd (hs.away (by simp [hcontrol])) hnot, hs.begun⟩
  | flushed hserving => exact ⟨hs.isSome, fun _ => ⟨_, rfl⟩, hs.begun⟩
  | runReturns hwait => exact ⟨hs.isSome, fun hnot => absurd rfl hnot, fun _ => rfl⟩
  | runForTimeReturns hwait => exact ⟨hs.isSome, fun hnot => absurd rfl hnot, hs.begun⟩
  | runExpiredTasksNow hcontrol =>
      obtain rfl := hallows
      exact ⟨hflush.isSome, fun hnot => absurd (hs.away (by simp [hcontrol])) hnot, hs.begun⟩
  | disposeTasks hcontrol =>
      exact ⟨hs.isSome, fun hnot => absurd (hs.away (by simp [hcontrol])) hnot, hs.begun⟩
  | doTerminate => exact ⟨hs.isSome, hs.inside, fun _ => rfl⟩
  | postTaskTerminated hterm => exact ⟨hs.isSome, hs.inside, hs.begun⟩
  | postTask hterm => exact ⟨hs.isSome, hs.inside, hs.begun⟩
  | registerTask hposting =>
      obtain ⟨_, h, _⟩ := TaskQueueEntry.rearms_registerTask hs.isSome
        (Int32.ofNat s.impl.queue.registrations) s.impl.queue.registrations _
      exact ⟨h.isSome, hs.inside, hs.begun⟩
  | registerElsewhere => exact ⟨hs.isSome, hs.inside, hs.begun⟩

theorem placed_step (s : LinuxLoop Q) (a : LinuxAction) (t : LinuxLoop Q) (hs : s.Placed)
    (ht : s.step a = some t) : t.Placed := by
  cases moves_of_step ht with
  | passTime hle => exact ⟨hs.isSome, hs.inside, hs.begun⟩
  | loop hallows himpl => exact hs.loop hallows himpl
  | setRunning hphase | testRunning hphase _ | testStopped hphase _ | epollEvent hphase _
  | epollOther hphase | drainFails hphase _ | timerDrain hphase _ _ | timeOver hphase =>
      exact ⟨hs.isSome, fun _ => hs.inside (by simp [hphase]), hs.begun⟩
  | clearRunning hclearing => exact ⟨hs.isSome, hs.inside, fun _ => hs.begun (Or.inl hclearing)⟩
  | wakeUp hwaking => exact ⟨hs.isSome, hs.inside, fun _ => hs.begun (Or.inr hwaking)⟩

/-! ## The timer and the earliest task -/

/-- The timer stands at the earliest pending task, unless it has just been read for it. -/
def Timely (s : LinuxLoop Q) : Prop :=
  ∀ time, s.impl.queue.entry.IsEarliest time →
    s.timer.next = some time.ticks ∨ (s.phase = .drained ∧ time ≤ s.clock)

/-- The invariant of a loop whose tasks are posted for positive points in time. -/
structure Timed (s : LinuxLoop Q) : Prop extends Placed s where
  positive : ∀ t ∈ s.impl.queue.entry.pending, 0 < t.target_time_.ticks
  posting : ∀ time ∈ s.impl.posting, 0 < time.ticks
  timely : s.impl.terminated_ = false → s.Timely

/-- A task is posted for a positive point in time. -/
def PostsPositive (_ : LinuxLoop Q) (a : LinuxAction) (_ : LinuxLoop Q) : Prop :=
  ∀ target_time, a = .loop (.postTask target_time) → 0 < target_time.ticks

lemma everyStep_postsPositive (s : LinuxLoop Q)
    (hposts : ∀ target_time, .loop (.postTask target_time) ∈ acts → 0 < target_time.ticks) :
    EveryStep step PostsPositive s acts := by
  induction acts generalizing s with
  | nil => trivial
  | cons a acts ih =>
      intro t _
      refine ⟨?_, ih t fun target_time hmem => hposts target_time (List.mem_cons_of_mem a hmem)⟩
      rintro target_time rfl
      exact hposts target_time (List.mem_cons_self ..)

lemma timed_create (n : ℕ) (clock : TimePoint) : (create n clock : LinuxLoop Q).Timed := by
  have hnone : ∀ t, t ∉ (TaskQueueEntry.new : TaskQueueEntry ℕ Q).pending := by
    intro t ht
    rw [TaskQueueEntry.new_pending] at ht
    exact absurd ht (Multiset.notMem_zero t)
  refine ⟨placed_create n clock, fun t ht => absurd ht (hnone t), ?_, ?_⟩
  · simp [create, LoopImpl.create]
  · rintro _ time ⟨⟨t, ht, _⟩, _⟩
    exact absurd ht (hnone t)

/-- A flush leaves the timer at the earliest task. -/
lemma Timed.flush (hs : s.Timed) {time : TimePoint} (hterm : s.impl.terminated_ = false)
    (htime : (LoopImpl.flushTasks s.impl.queue s.clock).1.entry.IsEarliest time) :
    (s.impl.queue.entry.timerAfter (LoopImpl.flushTasks s.impl.queue s.clock).1.entry s.timer).next
      = some time.ticks := by
  obtain ⟨calls, h, hnone⟩ := TaskQueueEntry.rearms_getTasksToRunNow hs.isSome s.clock
    s.impl.queue.invocations
  have hpos : ∀ t ∈ (LoopImpl.flushTasks s.impl.queue s.clock).1.entry.pending,
      0 < t.target_time_.ticks :=
    fun t ht => hs.positive t (TaskQueueEntry.mem_of_mem_getTasksToRunNow ht)
  rcases h.next_eq hpos htime with hnext | ⟨hnil, htimer, hearliest⟩
  · exact hnext
  · refine (congrArg TimerFd.next htimer).trans ?_
    rcases hs.timely hterm time hearliest with hnext | ⟨_, hdue⟩
    · exact hnext
    · -- a timer that has been read for a task is set again when that task is handed out
      obtain ⟨t, ht, rfl⟩ := hearliest.1
      exact absurd hdue (not_le.mpr (hnone hnil t ht))

/-- A step that leaves the queue's tasks and calls as they are. -/
lemma Timed.timely_of_entry (hs : s.Timed) {impl : LoopImpl Q} {phase : LinuxPhase} {clearing : ℕ}
    (hentry : impl.queue.entry = s.impl.queue.entry) (hterm : s.impl.terminated_ = false)
    (hphase : s.phase = .drained → phase = .drained) :
    Timely { s with
      impl := impl
      timer := s.impl.queue.entry.timerAfter impl.queue.entry s.timer
      phase := phase
      clearing := clearing } := by
  have htimer : s.impl.queue.entry.timerAfter impl.queue.entry s.timer = s.timer := by
    rw [hentry, TaskQueueEntry.timerAfter_self]
  intro time htime
  rcases hs.timely hterm time (hentry ▸ htime) with hnext | ⟨hdrained, hdue⟩
  · exact Or.inl ((congrArg TimerFd.next htimer).trans hnext)
  · exact Or.inr ⟨hphase hdrained, hdue⟩

lemma Timed.loop (hs : s.Timed) {a : LoopAction} {impl : LoopImpl Q} (hallows : s.Allows a)
    (himpl : s.impl.step a = some impl)
    (hpost : ∀ target_time, a = .postTask target_time → 0 < target_time.ticks) :
    Timed { s with
      impl := impl
      timer := s.impl.queue.entry.timerAfter impl.queue.entry s.timer
      phase := s.phaseAfter a
      clearing := s.clearingAfter a } := by
  have hplaced := hs.toPlaced.loop hallows himpl
  have hleft : ∀ t ∈ (LoopImpl.flushTasks s.impl.queue s.clock).1.entry.pending,
      0 < t.target_time_.ticks :=
    fun t ht => hs.positive t (TaskQueueEntry.mem_of_mem_getTasksToRunNow ht)
  cases LoopImpl.moves_of_step himpl with
  | doRunTerminated hout hterm | doRunForTimeTerminated hout hterm =>
      refine ⟨hplaced, hs.positive, hs.posting, fun hnot => ?_⟩
      exact absurd hterm (Bool.eq_false_iff.mp hnot)
  | doRun hcontrol hterm | doRunForTime hcontrol hterm | invoke hcontrol | invokeLast hcontrol
  | flushed hcontrol =>
      have hphase := hs.away (by simp [hcontrol])
      exact ⟨hplaced, hs.positive, hs.posting, fun hnot =>
        hs.timely_of_entry rfl hnot (by simp [hphase])⟩
  | onEventFired hwait =>
      obtain ⟨_, rfl⟩ := hallows
      exact ⟨hplaced, hleft, hs.posting, fun hterm time htime => Or.inl (hs.flush hterm htime)⟩
  | runExpiredTasksNow hreturned =>
      obtain rfl := hallows
      exact ⟨hplaced, hleft, hs.posting, fun hterm time htime => Or.inl (hs.flush hterm htime)⟩
  | runReturns hwait =>
      exact ⟨hplaced, hs.positive, hs.posting, fun hnot => absurd hnot (by simp)⟩
  | runForTimeReturns hwait =>
      have hphase : s.phase = .left := hallows
      exact ⟨hplaced, hs.positive, hs.posting, fun hnot =>
        hs.timely_of_entry rfl hnot (by simp [hphase])⟩
  | disposeTasks hfinishing =>
      have hnone : ∀ t, t ∉ s.impl.queue.entry.disposeTasks.pending := by
        intro t ht
        rw [TaskQueueEntry.disposeTasks_pending] at ht
        exact absurd ht (Multiset.notMem_zero t)
      refine ⟨hplaced, fun t ht => absurd ht (hnone t), hs.posting, ?_⟩
      rintro _ time ⟨⟨t, ht, _⟩, _⟩
      exact absurd ht (hnone t)
  | doTerminate => exact ⟨hplaced, hs.positive, hs.posting, fun hnot => absurd hnot (by simp)⟩
  | postTaskTerminated hterm =>
      exact ⟨hplaced, hs.positive, hs.posting, fun hnot => hs.timely_of_entry rfl hnot id⟩
  | postTask hterm =>
      refine ⟨hplaced, hs.positive, ?_, fun hnot => hs.timely_of_entry rfl hnot id⟩
      intro time htime
      rcases List.mem_cons.mp htime with rfl | htime
      · exact hpost _ rfl
      · exact hs.posting time htime
  | registerTask hposting =>
      rename_i target_time
      obtain ⟨_, h, _⟩ := TaskQueueEntry.rearms_registerTask hs.isSome
        (Int32.ofNat s.impl.queue.registrations) s.impl.queue.registrations target_time
      have hpos : ∀ t ∈ (s.impl.queue.step (.registerTask target_time)).entry.pending,
          0 < t.target_time_.ticks := by
        intro t ht
        simp only [QueueHistory.step, TaskQueueEntry.registerTask_pending, Multiset.mem_cons] at ht
        rcases ht with rfl | ht
        · exact hs.posting _ hposting
        · exact hs.positive t ht
      refine ⟨hplaced, hpos, ?_, ?_⟩
      · exact fun time htime => hs.posting time (List.mem_of_mem_erase htime)
      · intro _ time htime
        rcases h.next_eq hpos htime with hnext | ⟨hnil, _⟩
        · exact Or.inl hnext
        · cases hnil
  | registerElsewhere =>
      exact ⟨hplaced, hs.positive, hs.posting, fun hnot => hs.timely_of_entry rfl hnot id⟩

theorem timed_step (s : LinuxLoop Q) (a : LinuxAction) (t : LinuxLoop Q) (hs : s.Timed)
    (ht : s.step a = some t) (hpost : s.PostsPositive a t) : t.Timed := by
  have hplaced := placed_step s a t hs.toPlaced ht
  have hsame : ∀ {phase : LinuxPhase}, s.phase = phase → phase ≠ .drained →
      s.impl.terminated_ = false → ∀ time, s.impl.queue.entry.IsEarliest time →
        s.timer.next = some time.ticks := by
    rintro phase rfl hdrained hterm time htime
    rcases hs.timely hterm time htime with hnext | ⟨hphase, _⟩
    · exact hnext
    · exact absurd hphase hdrained
  cases moves_of_step ht with
  | passTime hle =>
      refine ⟨hplaced, hs.positive, hs.posting, fun hterm time htime => ?_⟩
      rcases hs.timely hterm time htime with hnext | ⟨hphase, hdue⟩
      · exact Or.inl hnext
      · exact Or.inr ⟨hphase, hdue.trans hle⟩
  | loop hallows himpl =>
      exact hs.loop hallows himpl fun target_time heq => hpost target_time (congrArg _ heq)
  | setRunning hphase | testRunning hphase _ | testStopped hphase _ | epollEvent hphase _
  | epollOther hphase | drainFails hphase _ | timeOver hphase =>
      exact ⟨hplaced, hs.positive, hs.posting, fun hterm time htime =>
        Or.inl (hsame hphase (by simp) hterm time htime)⟩
  | timerDrain hphase hread hcount =>
      obtain ⟨first, hfirst, hle⟩ := (TimerFd.read_eq_some hread).1
      refine ⟨hplaced, hs.positive, hs.posting, fun hterm time htime => ?_⟩
      have hnext := hsame hphase (by simp) hterm time htime
      obtain rfl := Option.some.inj (hnext.symm.trans hfirst)
      exact Or.inr ⟨rfl, hle⟩
  | clearRunning hclearing => exact ⟨hplaced, hs.positive, hs.posting, hs.timely⟩
  | wakeUp hwaking =>
      refine ⟨hplaced, hs.positive, hs.posting, fun hnot => ?_⟩
      exact absurd (hs.begun (Or.inr hwaking)) (Bool.eq_false_iff.mp hnot)

/-! ## No due task is left waiting -/

/-- While a pending task is due, the timer is readable, unless it has just been read for it. -/
lemma Timed.readable (hs : s.Timed) (hterm : s.impl.terminated_ = false)
    (hdrained : s.phase ≠ .drained) {t : DelayedTask ℕ} (ht : t ∈ s.impl.queue.entry.pending)
    (hdue : t.target_time_ ≤ s.clock) : s.timer.Readable s.clock.ticks := by
  obtain ⟨time, htime⟩ := TaskQueueEntry.exists_isEarliest ht
  rcases hs.timely hterm time htime with hnext | ⟨hphase, _⟩
  · exact ⟨_, hnext, TimePoint.le_iff.mp ((htime.2 t ht).trans hdue)⟩
  · exact absurd hphase hdrained

/-- Each task registered so far has been executed or discarded, once, or is pending for a time still
to come. -/
def NothingDue (s : LinuxLoop Q) : Prop :=
  ∀ i ∈ s.impl.queue.registered,
    (s.impl.executed.count i + s.impl.queue.discarded.count i = 1 ∧
      i ∉ s.impl.queue.pendingTasks) ∨
    (s.impl.executed.count i + s.impl.queue.discarded.count i = 0 ∧
      ∃ t ∈ s.impl.queue.entry.pending, t.task_ = i ∧ s.clock < t.target_time_)

/-- **No wake-up is lost.**  In every interleaving of a loop, run in whole or in slices, with
threads that post for positive points in time: while the loop is not terminated and its thread is in
`epoll_wait`, or before `TimerDrain`, with nothing to read from the timer, no registered task is
due. -/
theorem asleep_accounted {n : ℕ} {clock : TimePoint}
    (hposts : ∀ target_time, .loop (.postTask target_time) ∈ acts → 0 < target_time.ticks)
    (hu : run step (create n clock : LinuxLoop Q) acts = some u)
    (hterm : u.impl.terminated_ = false) (hphase : u.phase = .polling ∨ u.phase = .woken)
    (hasleep : ¬ u.timer.Readable u.clock.ticks) : u.NothingDue := by
  intro i hi
  have hu' : u.Timed := run_invariant_of (I := Timed) timed_step (timed_create n clock)
    (everyStep_postsPositive _ hposts) hu
  have bal : u.impl.Balanced := run_invariant (I := LoopImpl.Balanced)
    (fun s a t bal ht => LoopImpl.balanced_step bal ht) (LoopImpl.balanced_create n) (impl_run hu)
  obtain ⟨call, hwait⟩ := hu'.inside (by rcases hphase with h | h <;> simp [h])
  have hcount := bal.count (by rw [hwait]; rfl) hi
  by_cases hpending : i ∈ u.impl.queue.pendingTasks
  · right
    obtain ⟨t, ht, rfl⟩ := Multiset.mem_map.mp hpending
    have hpos := Multiset.count_pos.mpr hpending
    refine ⟨by omega, t, ht, rfl, ?_⟩
    by_contra hdue
    have hdrained : u.phase ≠ .drained := by rcases hphase with h | h <;> simp [h]
    exact hasleep (hu'.readable hterm hdrained ht (not_lt.mp hdue))
  · left
    rw [Multiset.count_eq_zero_of_notMem hpending] at hcount
    exact ⟨hcount, hpending⟩

/-- A task for time 5, registered at time 1 while the loop thread is in `epoll_wait`. -/
def delayedPost : List LinuxAction :=
  [.loop .doRun, .setRunning, .testRunning, .loop (.postTask ⟨5⟩), .loop (.registerTask ⟨5⟩)]

theorem asleep_accounted_delayed :
    ∃ u : LinuxLoop (SortedQueue (@DelayedTask.gt ℕ)),
      run step (create 0 ⟨1⟩) delayedPost = some u ∧ u.NothingDue := by
  have hposts : ∀ target_time, .loop (.postTask target_time) ∈ delayedPost →
      0 < target_time.ticks := by
    simp only [delayedPost, List.mem_cons, LinuxAction.loop.injEq, LoopAction.postTask.injEq,
      reduceCtorEq, List.not_mem_nil, or_false, false_or, forall_eq]
    decide
  have hu : run step (create 0 ⟨1⟩ : LinuxLoop (SortedQueue (@DelayedTask.gt ℕ))) delayedPost
      = some _ := rfl
  exact ⟨_, hu, asleep_accounted hposts hu rfl (Or.inl rfl) (by decide)⟩

/-! ## Waking the loop up to terminate -/

/-- A loop thread in `epoll_wait` has the timer to read while `running_` is cleared and no
`DoTerminate` is about to wake it up.  A clearing that the thread's own `running_ = true` has
overwritten is left out: see `termination_kept_iff`. -/
def Noticed (_ : LinuxLoop Q) (_ : LinuxAction) (t : LinuxLoop Q) : Prop :=
  t.phase = .polling → t.running_ = false → t.waking = 0 → t.timer.Readable t.clock.ticks

/-- A task that is registered in such a state, behind a `DoTerminate` and with `running_` still
cleared, leaves the earliest task due, for a positive time. -/
def NoLateRegistration (s : LinuxLoop Q) (a : LinuxAction) (t : LinuxLoop Q) : Prop :=
  ∀ target_time, a = .loop (.registerTask target_time) → s.phase = .polling →
    s.running_ = false → s.waking = 0 →
      ∃ time, t.impl.queue.entry.IsEarliest time ∧ 0 < time.ticks ∧ time ≤ s.clock

/-- The invariant of a loop whose terminations are noticed. -/
structure Waking (s : LinuxLoop Q) : Prop extends Placed s where
  clock_pos : 0 < s.clock.ticks
  noticed : s.phase = .polling → s.running_ = false → s.waking = 0 →
    s.timer.Readable s.clock.ticks

lemma waking_create {clock : TimePoint} (n : ℕ) (hclock : 0 < clock.ticks) :
    (create n clock : LinuxLoop Q).Waking :=
  ⟨placed_create n clock, hclock, fun hphase => by simp [create] at hphase⟩

/-- In `epoll_wait` the loop thread takes no step of the `MessageLoopImpl`. -/
lemma Placed.polling (hs : s.Placed) {b : LoopAction} {impl : LoopImpl Q} (hallows : s.Allows b)
    (himpl : s.impl.step b = some impl) (hphase : s.phaseAfter b = .polling) :
    s.phase = .polling ∧ (impl.queue.entry = s.impl.queue.entry ∨
      ∃ target_time, b = .registerTask target_time) := by
  have haway : ∀ {control : LoopControl}, s.impl.control = control →
      (∀ call, control ≠ .waiting call) → s.phase ≠ .polling :=
    fun hcontrol hnot => by simp [hs.away fun call => hcontrol ▸ hnot call]
  cases LoopImpl.moves_of_step himpl with
  | doRunTerminated hout hterm | doRunForTimeTerminated hout hterm =>
      simp only [phaseAfter, hterm, if_true] at hphase
      exact absurd hphase (haway hout (by simp))
  | doRun hout hterm | doRunForTime hout hterm => simp [phaseAfter, hterm] at hphase
  | onEventFired hwait | runReturns hwait | runForTimeReturns hwait | flushed hserving =>
      simp [phaseAfter] at hphase
  | invoke hcontrol | invokeLast hcontrol | runExpiredTasksNow hcontrol | disposeTasks hcontrol =>
      exact absurd hphase (haway hcontrol (by simp))
  | doTerminate | postTaskTerminated _ | postTask _ | registerElsewhere =>
      exact ⟨hphase, Or.inl rfl⟩
  | registerTask hposting => exact ⟨hphase, Or.inr ⟨_, rfl⟩⟩

/-- A registration leaves the timer at the earliest task. -/
lemma readable_registerTask (hw : s.impl.queue.entry.wakeable.isSome) {target_time : TimePoint}
    {impl : LoopImpl Q} (himpl : s.impl.step (.registerTask target_time) = some impl) :
    (s.impl.queue.entry.timerAfter impl.queue.entry s.timer).Readable s.clock.ticks ↔
      ∃ time, impl.queue.entry.IsEarliest time ∧ 0 < time.ticks ∧ time ≤ s.clock := by
  cases LoopImpl.moves_of_step himpl with
  | registerTask hposting =>
      obtain ⟨time, h, hearliest⟩ := TaskQueueEntry.rearms_registerTask hw
        (Int32.ofNat s.impl.queue.registrations) s.impl.queue.registrations target_time
      have htimer : s.impl.queue.entry.timerAfter
          (s.impl.queue.step (.registerTask target_time)).entry s.timer = armed time :=
        h.timerAfter_eq
      rw [htimer, readable_armed]
      constructor
      · exact fun hdue => ⟨time, hearliest, hdue⟩
      · rintro ⟨time', htime', hdue⟩
        obtain rfl := htime'.unique hearliest
        exact hdue

lemma waking_step (s : LinuxLoop Q) (a : LinuxAction) (t : LinuxLoop Q) (hs : s.Waking)
    (ht : s.step a = some t) (hlate : s.NoLateRegistration a t) : t.Waking := by
  have hplaced := placed_step s a t hs.toPlaced ht
  cases moves_of_step ht with
  | passTime hle =>
      have hpos := hs.clock_pos.trans_le (TimePoint.le_iff.mp hle)
      exact ⟨hplaced, hpos, fun hphase hrun hwaking =>
        (hs.noticed hphase hrun hwaking).mono (TimePoint.le_iff.mp hle)⟩
  | loop hallows himpl =>
      refine ⟨hplaced, hs.clock_pos, fun hphase hrun hwaking => ?_⟩
      obtain ⟨hpolling, hentry | ⟨target_time, rfl⟩⟩ := hs.polling hallows himpl hphase
      · rw [hentry, TaskQueueEntry.timerAfter_self]
        exact hs.noticed hpolling hrun hwaking
      · have hdue := hlate target_time rfl hpolling hrun hwaking
        exact (readable_registerTask hs.isSome himpl).mpr hdue
  | setRunning hphase | testStopped hphase _ | epollEvent hphase _ | epollOther hphase
  | drainFails hphase _ | timerDrain hphase _ _ =>
      exact ⟨hplaced, hs.clock_pos, fun hpolling => by simp at hpolling⟩
  | testRunning hphase hrun =>
      exact ⟨hplaced, hs.clock_pos, fun _ hstopped => by simp [hrun] at hstopped⟩
  | timeOver hphase =>
      exact ⟨hplaced, hs.clock_pos, fun hpolling => by simp [hphase] at hpolling⟩
  | clearRunning hclearing =>
      exact ⟨hplaced, hs.clock_pos, fun _ _ hwaking => by simp at hwaking⟩
  | wakeUp hwaking =>
      exact ⟨hplaced, hs.clock_pos, fun _ _ _ => readable_armed.mpr ⟨hs.clock_pos, le_refl _⟩⟩

/-- **When a termination wakes the loop up.**  In every interleaving that begins at a positive clock
reading: behind each `DoTerminate` call, and while `running_` is still cleared, a loop thread in
`epoll_wait` has the timer to read, if and only if no post that had passed its test of `terminated_`
before registers its task in such a state, unless that leaves the earliest task due. -/
theorem termination_wakes_iff {n : ℕ} {clock : TimePoint} (hclock : 0 < clock.ticks)
    (acts : List LinuxAction) :
    EveryStep step Noticed (create n clock : LinuxLoop Q) acts ↔
      EveryStep step NoLateRegistration (create n clock : LinuxLoop Q) acts := by
  refine everyStep_iff (I := Waking) ?_ ?_ (waking_create n hclock)
  · intro s a t hs ht hlate
    have hs' := waking_step s a t hs ht hlate
    exact ⟨hs', hs'.noticed⟩
  · rintro s _ t hs ht hnoticed target_time rfl hphase hrun hwaking
    cases moves_of_step ht with
    | loop hallows himpl =>
        exact (readable_registerTask hs.isSome himpl).mp (hnoticed hphase hrun hwaking)

/-- A loop that is terminated at time 1 while its thread is in `epoll_wait`. -/
theorem termination_wakes_waiting :
    EveryStep step Noticed (create 0 ⟨1⟩ : LinuxLoop (SortedQueue (@DelayedTask.gt ℕ)))
        [.loop .doRun, .setRunning, .testRunning, .loop .doTerminate, .clearRunning, .wakeUp] ↔
      EveryStep step NoLateRegistration
        (create 0 ⟨1⟩ : LinuxLoop (SortedQueue (@DelayedTask.gt ℕ)))
        [.loop .doRun, .setRunning, .testRunning, .loop .doTerminate, .clearRunning, .wakeUp] :=
  termination_wakes_iff (by decide) _

/-- A post for time 5 has passed its test, and registers its task behind the whole `DoTerminate` of
time 1: the loop thread stays in `epoll_wait`. -/
example : ∃ u : LinuxLoop (SortedQueue (@DelayedTask.gt ℕ)),
    run step (create 0 ⟨1⟩) [.loop .doRun, .setRunning, .testRunning, .loop (.postTask ⟨5⟩),
      .loop .doTerminate, .clearRunning, .wakeUp, .loop (.registerTask ⟨5⟩)] = some u ∧
    u.phase = .polling ∧ u.running_ = false ∧ ¬ u.timer.Readable u.clock.ticks :=
  ⟨_, rfl, rfl, rfl, by decide⟩

/-- A clearing of `running_` that the loop thread overwrites: the wake-up is spent on a flush, and
the thread of the terminated loop waits again. -/
example : ∃ u : LinuxLoop (SortedQueue (@DelayedTask.gt ℕ)),
    run step (create 0 ⟨1⟩) [.loop .doRun, .loop .doTerminate, .clearRunning, .wakeUp, .setRunning,
      .testRunning, .epollEvent, .timerDrain, .loop (.onEventFired ⟨1⟩), .loop .flushed,
      .testRunning] = some u ∧
    u.phase = .polling ∧ u.running_ = true ∧ ¬ u.timer.Readable u.clock.ticks :=
  ⟨_, rfl, rfl, rfl, by decide⟩

end LinuxLoop

end FFNetwork
