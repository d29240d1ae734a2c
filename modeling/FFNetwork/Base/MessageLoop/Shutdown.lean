import FFNetwork.Base.MessageLoop.LoopImpl

/-!
# The end of `DoRun`

When `Run` returns, `DoRun` flushes once more what is due and throws the rest away.  Here the loop
is run by `DoRun` only, and every step has a time; the times do not go back, and a flush reads the
clock at its own time.  The history keeps for each task the time it was to run at and the time it
did run at, and for the final flush the reading and what had been registered by then.

* `DoRunHistory.step` — the loop with its posters, in time.
* `OnTime` and `Ending` — the invariant.
* **`OnTime.orderly`** — what has been executed when `DoRun` has returned.
-/

namespace FFNetwork

open PriorityQueue StepSystem

/-- A step of the loop or of a poster, and when it is taken. -/
structure TimedAction where
  action : LoopAction
  now : TimePoint

/-- A flush reads the clock when it is made. -/
def TimedAction.readsClock (a : TimedAction) : Bool :=
  match a.action with
  | .onEventFired reading | .runExpiredTasksNow reading => reading = a.now
  | _ => true

/-- A loop in time. -/
structure DoRunHistory (Q : Type) where
  loop : LoopImpl Q
  clock : TimePoint
  /-- The target times of the tasks registered. -/
  target : ℕ → TimePoint
  /-- The tasks executed, each with its time. -/
  executions : List (ℕ × TimePoint)
  /-- The clock reading of the final flush, and the tasks registered before it. -/
  finalFlush : Option (TimePoint × List ℕ)

namespace DoRunHistory

variable {Q : Type} [DelayedTaskQueue Q ℕ] {s t : DoRunHistory Q} {a : TimedAction}

/-- A new loop, after `n` registrations elsewhere. -/
def create (n : ℕ) (clock : TimePoint) : DoRunHistory Q :=
  ⟨.create n, clock, fun _ => ⟨0⟩, [], none⟩

/-- What the history adds to a step of the loop. -/
def record (s : DoRunHistory Q) (a : TimedAction) (loop : LoopImpl Q) : DoRunHistory Q where
  loop := loop
  clock := a.now
  target :=
    match a.action with
    | .registerTask target_time =>
        Function.update s.target s.loop.queue.registrations target_time
    | _ => s.target
  executions :=
    match a.action with
    | .invoke => s.executions ++ (s.loop.control.batch.take 1).map fun i => (i, a.now)
    | _ => s.executions
  finalFlush :=
    match a.action with
    | .runExpiredTasksNow now => some (now, s.loop.queue.registered)
    | _ => s.finalFlush

/-- The next step, not before the last one. -/
def step (s : DoRunHistory Q) (a : TimedAction) : Option (DoRunHistory Q) :=
  if s.clock ≤ a.now ∧ a.readsClock then
    match a.action with
    | .doRunForTime => none
    | action => (s.loop.step action).map fun loop => s.record a loop
  else none

lemma step_eq_some (ht : s.step a = some t) :
    s.clock ≤ a.now ∧ a.readsClock = true ∧ a.action ≠ .doRunForTime ∧
      s.loop.step a.action = some t.loop ∧ t = s.record a t.loop := by
  simp only [step, Option.ite_none_right_eq_some] at ht
  rcases ht with ⟨⟨hclock, hreads⟩, ht⟩
  rcases a with ⟨action, now⟩
  cases action with
  | doRunForTime => cases ht
  | _ =>
      simp only [Option.map_eq_some_iff] at ht
      rcases ht with ⟨loop, hloop, rfl⟩
      exact ⟨hclock, hreads, by simp, hloop, rfl⟩

/-! ## Tasks run on time -/

/-- What is pending has its target time, what has been handed out is due, and what has been executed
was due then. -/
structure OnTime (s : DoRunHistory Q) : Prop where
  balanced : s.loop.Balanced
  pending : ∀ task ∈ s.loop.queue.entry.pending, task.target_time_ = s.target task.task_
  handedOut : ∀ i ∈ s.loop.queue.invocations, s.target i ≤ s.clock
  executed : s.executions.map Prod.fst = s.loop.executed
  executions : ∀ e ∈ s.executions, s.target e.1 ≤ e.2

lemma onTime_create (n : ℕ) (clock : TimePoint) : (create n clock : DoRunHistory Q).OnTime where
  balanced := LoopImpl.balanced_create n
  pending task htask := by
    have htask : task ∈ (TaskQueueEntry.new : TaskQueueEntry ℕ Q).pending := htask
    simp at htask
  handedOut i hi := by simp [create, LoopImpl.create, QueueHistory.created] at hi
  executed := rfl
  executions e he := by simp [create] at he

/-- What a flush hands out is due, and what it leaves was there. -/
lemma flushTasks_spec (queue : QueueHistory Q) (now : TimePoint) :
    (∀ i ∈ (LoopImpl.flushTasks queue now).2,
        ∃ task ∈ queue.entry.pending, task.task_ = i ∧ task.target_time_ ≤ now) ∧
      ∀ task ∈ (LoopImpl.flushTasks queue now).1.entry.pending,
        task ∈ queue.entry.pending ∧ now < task.target_time_ := by
  constructor
  · exact fun i hi => TaskQueueEntry.handedOut_due hi
  · intro task htask
    rcases queue.entry.getTasksToRunNow_kAll now [] with ⟨_, _, _, hleft, _⟩
    have hrest : (LoopImpl.flushTasks queue now).1.entry.pending =
        (queue.entry.getTasksToRunNow .kAll now []).1.pending :=
      congrArg (fun r => r.1.pending)
        (queue.entry.getTasksToRunNow_append .kAll now queue.invocations)
    rw [hrest, hleft, Multiset.mem_filter] at htask
    exact htask

/-- A registration does not change the target times of the tasks registered before. -/
lemma OnTime.target_update (hs : s.OnTime) {i : ℕ} (hi : i ∈ s.loop.queue.registered)
    (target_time : TimePoint) :
    Function.update s.target s.loop.queue.registrations target_time i = s.target i := by
  have hlt := hs.balanced.accounted.numbered i hi
  exact Function.update_of_ne (by omega) _ _

/-- What the queue has handed out was registered. -/
lemma OnTime.registered_of_handedOut (hs : s.OnTime) {i : ℕ}
    (hi : i ∈ s.loop.queue.invocations) : i ∈ s.loop.queue.registered := by
  rw [← Multiset.mem_coe, hs.balanced.accounted.conserved]
  simp [hi]

/-- What has been executed was handed out. -/
lemma OnTime.handedOut_of_executed (hs : s.OnTime) {i : ℕ} (hi : i ∈ s.loop.executed) :
    i ∈ s.loop.queue.invocations := by
  rw [hs.balanced.invocations]
  exact List.mem_append_left _ hi

/-- A flush keeps the target times, and hands out what is due. -/
lemma OnTime.flush (hs : s.OnTime) {now : TimePoint} (hclock : s.clock ≤ now) :
    (∀ task ∈ (LoopImpl.flushTasks s.loop.queue now).1.entry.pending,
        task.target_time_ = s.target task.task_ ∧ now < task.target_time_) ∧
      ∀ i ∈ (LoopImpl.flushTasks s.loop.queue now).1.invocations, s.target i ≤ now := by
  rcases flushTasks_spec s.loop.queue now with ⟨hout, hleft⟩
  constructor
  · intro task htask
    exact ⟨hs.pending task (hleft task htask).1, (hleft task htask).2⟩
  · intro i hi
    rw [LoopImpl.flushTasks_invocations, List.mem_append] at hi
    rcases hi with hi | hi
    · exact le_trans (hs.handedOut i hi) hclock
    · rcases hout i hi with ⟨task, htask, rfl, hdue⟩
      exact hs.pending task htask ▸ hdue

/-- A step that leaves the queue and what has been executed alone. -/
lemma OnTime.keep (hs : s.OnTime) (hclock : s.clock ≤ t.clock) (hbalanced : t.loop.Balanced)
    (hpending : t.loop.queue.entry.pending = s.loop.queue.entry.pending)
    (hinvocations : t.loop.queue.invocations = s.loop.queue.invocations)
    (hexecuted : t.loop.executed = s.loop.executed) (htarget : t.target = s.target)
    (hexecutions : t.executions = s.executions) : t.OnTime where
  balanced := hbalanced
  pending := by
    rw [hpending, htarget]
    exact hs.pending
  handedOut := by
    rw [htarget, hinvocations]
    exact fun i hi => le_trans (hs.handedOut i hi) hclock
  executed := by rw [hexecutions, hexecuted, hs.executed]
  executions := by
    rw [hexecutions, htarget]
    exact hs.executions

/-- The batch under way gives its first task away. -/
lemma OnTime.invoke (hs : s.OnTime) {task : ℕ} {batch : List ℕ} {now : TimePoint}
    (hbatch : s.loop.control.batch = task :: batch) (hclock : s.clock ≤ now) {loop : LoopImpl Q}
    (hbalanced : loop.Balanced) (hqueue : loop.queue = s.loop.queue)
    (hexecuted : loop.executed = s.loop.executed ++ [task]) :
    (s.record ⟨.invoke, now⟩ loop).OnTime := by
  have hdue : ∀ i ∈ loop.queue.invocations, s.target i ≤ now := by
    rw [hqueue]
    exact fun i hi => le_trans (hs.handedOut i hi) hclock
  refine ⟨hbalanced, ?_, hdue, ?_, ?_⟩
  · simp only [record, hqueue]
    exact hs.pending
  · simp [record, hbatch, hs.executed, hexecuted]
  · intro e he
    simp only [record, hbatch, List.mem_append] at he
    rcases he with he | he
    · exact hs.executions e he
    · simp at he
      subst he
      refine hdue task ?_
      rw [hqueue, hs.balanced.invocations, hbatch]
      simp

theorem onTime_step (hs : s.OnTime) (ht : s.step a = some t) : t.OnTime := by
  rcases step_eq_some ht with ⟨hclock, hreads, hslice, hloop, hrecord⟩
  have hbalanced := LoopImpl.balanced_step hs.balanced hloop
  rcases a with ⟨action, now⟩
  generalize t.loop = loop at hloop hrecord hbalanced
  subst hrecord
  simp only at hclock hslice hloop
  cases LoopImpl.moves_of_step hloop with
  | doRunTerminated _ _ => exact hs.keep hclock hbalanced rfl rfl rfl rfl rfl
  | doRunForTimeTerminated _ _ => exact absurd rfl hslice
  | doRunForTime _ _ => exact absurd rfl hslice
  | doRun _ _ => exact hs.keep hclock hbalanced rfl rfl rfl rfl rfl
  | @onEventFired reading call hwait =>
      have hnow : reading = now := by simpa [TimedAction.readsClock] using hreads
      subst hnow
      rcases hs.flush hclock with ⟨hpending, hdue⟩
      exact ⟨hbalanced, fun task htask => (hpending task htask).1, hdue, hs.executed,
        hs.executions⟩
  | invoke hserving =>
      exact hs.invoke (congrArg LoopControl.batch hserving) hclock hbalanced rfl rfl
  | invokeLast hfinishing =>
      exact hs.invoke (congrArg LoopControl.batch hfinishing) hclock hbalanced rfl rfl
  | flushed _ => exact hs.keep hclock hbalanced rfl rfl rfl rfl rfl
  | runReturns _ => exact hs.keep hclock hbalanced rfl rfl rfl rfl rfl
  | runForTimeReturns _ => exact hs.keep hclock hbalanced rfl rfl rfl rfl rfl
  | @runExpiredTasksNow reading hreturned =>
      have hnow : reading = now := by simpa [TimedAction.readsClock] using hreads
      subst hnow
      rcases hs.flush hclock with ⟨hpending, hdue⟩
      exact ⟨hbalanced, fun task htask => (hpending task htask).1, hdue, hs.executed,
        hs.executions⟩
  | disposeTasks _ =>
      refine ⟨hbalanced, ?_, fun i hi => le_trans (hs.handedOut i hi) hclock, hs.executed,
        hs.executions⟩
      intro task htask
      simp [record, QueueHistory.step] at htask
  | doTerminate => exact hs.keep hclock hbalanced rfl rfl rfl rfl rfl
  | postTaskTerminated _ => exact hs.keep hclock hbalanced rfl rfl rfl rfl rfl
  | postTask _ => exact hs.keep hclock hbalanced rfl rfl rfl rfl rfl
  | @registerTask target_time hposting =>
      refine ⟨hbalanced, ?_, ?_, hs.executed, ?_⟩
      · intro task htask
        simp only [record, QueueHistory.step, TaskQueueEntry.registerTask_pending,
          Multiset.mem_cons] at htask ⊢
        rcases htask with rfl | htask
        · rw [Function.update_self]
        · rw [hs.target_update (hs.balanced.accounted.registered_of_pending htask)]
          exact hs.pending task htask
      · intro i hi
        simp only [record]
        rw [hs.target_update (hs.registered_of_handedOut hi)]
        exact le_trans (hs.handedOut i hi) hclock
      · intro e he
        have hexecuted : e.1 ∈ s.loop.executed := hs.executed ▸ List.mem_map_of_mem he
        simp only [record]
        rw [hs.target_update (hs.registered_of_handedOut (hs.handedOut_of_executed hexecuted))]
        exact hs.executions e he
  | registerElsewhere => exact hs.keep hclock hbalanced rfl rfl rfl rfl rfl

/-! ## The final flush -/

/-- What holds from the final flush on, made at `now` when these tasks were registered. -/
structure Flushed (s : DoRunHistory Q) (now : TimePoint) (registered : List ℕ) : Prop where
  terminated : s.loop.terminated_ = true
  ended : s.loop.control = .outside ∨ ∃ batch, s.loop.control = .finishing batch
  due : ∀ i ∈ s.loop.queue.invocations, s.target i ≤ now
  grown : ∀ i ∈ registered, i ∈ s.loop.queue.registered
  handedOut : ∀ i ∈ registered, s.target i ≤ now → i ∈ s.loop.queue.invocations

/-- The way to the end: `DoRun` sets `terminated_` before its final flush, and nothing is discarded
before it. -/
structure Ending (s : DoRunHistory Q) : Prop where
  notForTime : s.loop.control ≠ .waiting .doRunForTime ∧
    ∀ batch, s.loop.control ≠ .serving .doRunForTime batch
  terminated : s.loop.control = .returned → s.loop.terminated_ = true
  before : s.finalFlush = none →
    s.loop.queue.discarded = 0 ∧ ∀ batch, s.loop.control ≠ .finishing batch
  after : ∀ now registered, s.finalFlush = some (now, registered) → s.Flushed now registered

lemma ending_create (n : ℕ) (clock : TimePoint) : (create n clock : DoRunHistory Q).Ending where
  notForTime := by simp [create, LoopImpl.create]
  terminated := by simp [create, LoopImpl.create]
  before _ := by simp [create, LoopImpl.create, QueueHistory.created]
  after now registered hflush := by simp [create] at hflush

omit [DelayedTaskQueue Q ℕ] in
lemma Flushed.keep {now : TimePoint} {registered : List ℕ} (hf : s.Flushed now registered)
    (hterminated : t.loop.terminated_ = true)
    (hended : t.loop.control = .outside ∨ ∃ batch, t.loop.control = .finishing batch)
    (hinvocations : t.loop.queue.invocations = s.loop.queue.invocations)
    (hregistered : ∀ i ∈ s.loop.queue.registered, i ∈ t.loop.queue.registered)
    (htarget : ∀ i ∈ s.loop.queue.registered, t.target i = s.target i)
    (hhandedOut : ∀ i ∈ s.loop.queue.invocations, i ∈ s.loop.queue.registered) :
    t.Flushed now registered where
  terminated := hterminated
  ended := hended
  due i hi := by
    rw [hinvocations] at hi
    rw [htarget i (hhandedOut i hi)]
    exact hf.due i hi
  grown i hi := hregistered i (hf.grown i hi)
  handedOut i hi hdue := by
    rw [htarget i (hf.grown i hi)] at hdue
    rw [hinvocations]
    exact hf.handedOut i hi hdue

/-- After the final flush no other flush follows. -/
lemma flushed_step (hs : s.OnTime) {now : TimePoint} {registered : List ℕ}
    (hf : s.Flushed now registered) (ht : s.step a = some t) :
    t.finalFlush = s.finalFlush ∧ t.Flushed now registered := by
  rcases step_eq_some ht with ⟨_, _, hslice, hloop, hrecord⟩
  rcases a with ⟨action, time⟩
  generalize t.loop = loop at hloop hrecord
  subst hrecord
  simp only at hslice hloop
  have hhandedOut := fun i hi => hs.registered_of_handedOut (i := i) hi
  have hterm := hf.terminated
  have hended := hf.ended
  cases LoopImpl.moves_of_step hloop with
  | doRunTerminated _ _ =>
      exact ⟨rfl, hf.keep hterm hended rfl (by simp [record]) (by simp [record]) hhandedOut⟩
  | doRunForTimeTerminated _ _ => exact absurd rfl hslice
  | doRunForTime _ _ => exact absurd rfl hslice
  | doRun _ hnot => simp [hterm] at hnot
  | onEventFired hwait => simp [hwait] at hended
  | invoke hserving => simp [hserving] at hended
  | invokeLast _ =>
      exact ⟨rfl, hf.keep hterm (Or.inr ⟨_, rfl⟩) rfl (by simp [record]) (by simp [record])
        hhandedOut⟩
  | flushed hserving => simp [hserving] at hended
  | runReturns hwait => simp [hwait] at hended
  | runForTimeReturns hwait => simp [hwait] at hended
  | runExpiredTasksNow hreturned => simp [hreturned] at hended
  | disposeTasks _ =>
      exact ⟨rfl, hf.keep hterm (Or.inl rfl) rfl (by simp [record, QueueHistory.step])
        (by simp [record]) hhandedOut⟩
  | doTerminate =>
      exact ⟨rfl, hf.keep rfl hended rfl (by simp [record]) (by simp [record]) hhandedOut⟩
  | postTaskTerminated _ =>
      exact ⟨rfl, hf.keep hterm hended rfl (by simp [record]) (by simp [record]) hhandedOut⟩
  | postTask hnot => simp [hterm] at hnot
  | registerTask hposting =>
      refine ⟨rfl, hf.keep hterm hended rfl ?_ ?_ hhandedOut⟩
      · intro i hi
        exact List.mem_append_left _ hi
      · exact fun i hi => hs.target_update hi _
  | registerElsewhere =>
      exact ⟨rfl, hf.keep hterm hended rfl (by simp [record, QueueHistory.step]) (by simp [record])
        hhandedOut⟩

/-- The final flush hands out everything that is due. -/
lemma Ending.flush (hs : s.OnTime) (he : s.Ending) {now : TimePoint} (hclock : s.clock ≤ now)
    (hnone : s.finalFlush = none) (hreturned : s.loop.control = .returned) :
    Flushed
      { s with
        loop := { s.loop with
          queue := (LoopImpl.flushTasks s.loop.queue now).1
          control := .finishing (LoopImpl.flushTasks s.loop.queue now).2 }
        clock := now
        finalFlush := some (now, s.loop.queue.registered) }
      now s.loop.queue.registered := by
  rcases hs.flush hclock with ⟨hpending, hdue⟩
  refine ⟨he.terminated hreturned, Or.inr ⟨_, rfl⟩, hdue, fun i hi => hi, ?_⟩
  intro i hi htarget
  have hacc := QueueHistory.accounted_step hs.balanced.accounted (.getTasksToRunNow .kAll now)
  have hdiscarded : (s.loop.queue.step (.getTasksToRunNow .kAll now)).discarded = 0 :=
    (he.before hnone).1
  have hmem : i ∈ (↑(s.loop.queue.step (.getTasksToRunNow .kAll now)).registered : Multiset ℕ) := hi
  rw [hacc.conserved, hdiscarded, add_zero, Multiset.mem_add, Multiset.mem_coe] at hmem
  rcases hmem with hmem | hmem
  · exact hmem
  · rcases Multiset.mem_map.mp hmem with ⟨task, htask, rfl⟩
    rcases hpending task htask with ⟨heq, hlate⟩
    rw [heq] at hlate
    exact absurd htarget (not_le.mpr hlate)

omit [DelayedTaskQueue Q ℕ] in
lemma Flushed.ending {now : TimePoint} {registered : List ℕ} (hf : s.Flushed now registered)
    (hflush : s.finalFlush = some (now, registered)) : s.Ending where
  notForTime := by
    rcases hf.ended with hout | ⟨batch, hfinishing⟩
    · simp [hout]
    · simp [hfinishing]
  terminated _ := hf.terminated
  before hnone := by simp [hflush] at hnone
  after now' registered' hflush' := by
    rw [hflush, Option.some.injEq, Prod.mk.injEq] at hflush'
    rcases hflush' with ⟨rfl, rfl⟩
    exact hf

omit [DelayedTaskQueue Q ℕ] in
/-- Before the final flush. -/
lemma ending_of_none (hnone : s.finalFlush = none)
    (hnotForTime : s.loop.control ≠ .waiting .doRunForTime ∧
      ∀ batch, s.loop.control ≠ .serving .doRunForTime batch)
    (hterminated : s.loop.control = .returned → s.loop.terminated_ = true)
    (hdiscarded : s.loop.queue.discarded = 0)
    (hnotFinishing : ∀ batch, s.loop.control ≠ .finishing batch) : s.Ending where
  notForTime := hnotForTime
  terminated := hterminated
  before _ := ⟨hdiscarded, hnotFinishing⟩
  after now registered hflush := by simp [hnone] at hflush

theorem ending_step (hs : s.OnTime) (he : s.Ending) (ht : s.step a = some t) : t.Ending := by
  cases hflush : s.finalFlush with
  | some flush =>
      rcases flush with ⟨now, registered⟩
      rcases flushed_step hs (he.after now registered hflush) ht with ⟨hsame, hf⟩
      exact hf.ending (hsame.trans hflush)
  | none =>
      rcases step_eq_some ht with ⟨hclock, hreads, hslice, hloop, hrecord⟩
      rcases a with ⟨action, time⟩
      generalize t.loop = loop at hloop hrecord
      subst hrecord
      simp only at hclock hslice hloop
      have hnot := LoopImpl.notForTime_step he.notForTime hslice hloop
      rcases he.before hflush with ⟨hdiscarded, hfinishingNot⟩
      have hterm := he.terminated
      cases LoopImpl.moves_of_step hloop with
      | doRunForTimeTerminated _ _ => exact absurd rfl hslice
      | doRunForTime _ _ => exact absurd rfl hslice
      | invokeLast hfinishing => exact absurd hfinishing (hfinishingNot _)
      | runReturns _ =>
          exact ending_of_none hflush hnot (fun _ => rfl) hdiscarded (by simp [record])
      | runForTimeReturns hwait => exact absurd hwait he.notForTime.1
      | @runExpiredTasksNow reading hreturned =>
          have hnow : reading = time := by simpa [TimedAction.readsClock] using hreads
          subst hnow
          exact (Ending.flush hs he hclock hflush hreturned).ending rfl
      | disposeTasks hfinishing => exact absurd hfinishing (hfinishingNot _)
      | doTerminate => exact ending_of_none hflush hnot (fun _ => rfl) hdiscarded hfinishingNot
      | doRunTerminated _ _ => exact ending_of_none hflush hnot hterm hdiscarded hfinishingNot
      | postTaskTerminated _ => exact ending_of_none hflush hnot hterm hdiscarded hfinishingNot
      | postTask _ => exact ending_of_none hflush hnot hterm hdiscarded hfinishingNot
      | registerTask _ => exact ending_of_none hflush hnot hterm hdiscarded hfinishingNot
      | registerElsewhere => exact ending_of_none hflush hnot hterm hdiscarded hfinishingNot
      | _ => exact ending_of_none hflush hnot (by simp [record]) hdiscarded (by simp [record])

/-! ## What has been executed when `DoRun` has returned -/

/-- Every task that was registered before the final flush and was due then has been executed once,
none before its time, and none that was due only later. -/
structure Orderly (s : DoRunHistory Q) (now : TimePoint) (registered : List ℕ) : Prop where
  once : ∀ i ∈ registered, s.target i ≤ now → s.loop.executed.count i = 1
  recorded : s.executions.map Prod.fst = s.loop.executed
  notBefore : ∀ i time, (i, time) ∈ s.executions → s.target i ≤ time
  notLater : ∀ i ∈ s.loop.executed, s.target i ≤ now

/-- With the loop outside, all that was handed out has been executed. -/
theorem OnTime.orderly (hs : s.OnTime) (he : s.Ending) {now : TimePoint} {registered : List ℕ}
    (hout : s.loop.control = .outside) (hflush : s.finalFlush = some (now, registered)) :
    s.Orderly now registered := by
  have hf := he.after now registered hflush
  have hbatch : s.loop.control.batch = [] := by simp [hout, LoopControl.batch]
  have hexecuted : s.loop.queue.invocations = s.loop.executed := by
    rw [hs.balanced.invocations, hbatch, List.append_nil]
  refine ⟨?_, hs.executed, fun i time hi => hs.executions (i, time) hi, ?_⟩
  · intro i hi hdue
    have hmem : i ∈ s.loop.executed := hexecuted ▸ hf.handedOut i hi hdue
    have hcount := hs.balanced.count hbatch (hf.grown i hi)
    have hpos := List.count_pos_iff.mpr hmem
    omega
  · exact fun i hi => hf.due i (hexecuted ▸ hi)

theorem invariant_run {n : ℕ} {clock : TimePoint} {acts : List TimedAction}
    (hrun : run step (create n clock) acts = some s) : s.OnTime ∧ s.Ending :=
  run_invariant (I := fun s => s.OnTime ∧ s.Ending)
    (fun _ _ _ h ht => ⟨onTime_step h.1 ht, ending_step h.1 h.2 ht⟩)
    ⟨onTime_create n clock, ending_create n clock⟩ hrun

/-! ## What later steps keep -/

/-- What is known of the tasks of a history stays true later. -/
structure Extends (s t : DoRunHistory Q) : Prop where
  clock : s.clock ≤ t.clock
  registered : ∀ i ∈ s.loop.queue.registered, i ∈ t.loop.queue.registered
  target : ∀ i ∈ s.loop.queue.registered, t.target i = s.target i
  executed : ∀ i ∈ s.loop.executed, i ∈ t.loop.executed

lemma extends_step (hs : s.OnTime) (ht : s.step a = some t) : s.Extends t := by
  rcases step_eq_some ht with ⟨hclock, _, _, hloop, hrecord⟩
  rcases a with ⟨action, time⟩
  generalize t.loop = loop at hloop hrecord
  subst hrecord
  simp only at hclock hloop
  cases LoopImpl.moves_of_step hloop with
  | registerTask hposting =>
      exact ⟨hclock, fun i hi => List.mem_append_left _ hi, fun i hi => hs.target_update hi _,
        fun i hi => hi⟩
  | invoke _ =>
      exact ⟨hclock, fun i hi => hi, fun _ _ => rfl, fun i hi => List.mem_append_left _ hi⟩
  | invokeLast _ =>
      exact ⟨hclock, fun i hi => hi, fun _ _ => rfl, fun i hi => List.mem_append_left _ hi⟩
  | _ => exact ⟨hclock, fun i hi => hi, fun _ _ => rfl, fun i hi => hi⟩

/-- `terminated_` is set by `DoTerminate` and when `Run` has returned, and not else. -/
lemma terminated_step (ht : s.step a = some t) (hterminate : a.action ≠ .doTerminate)
    (hreturns : a.action ≠ .runReturns) : t.loop.terminated_ = s.loop.terminated_ := by
  rcases step_eq_some ht with ⟨_, _, _, hloop, _⟩
  rcases a with ⟨action, time⟩
  simp only at hterminate hreturns hloop
  generalize t.loop = loop at hloop
  cases LoopImpl.moves_of_step hloop with
  | doTerminate => exact absurd rfl hterminate
  | runReturns _ => exact absurd rfl hreturns
  | _ => rfl

/-- A final flush sees what is registered, behind the return of `Run`. -/
lemma finalFlush_step (ht : s.step a = some t) : t.finalFlush = s.finalFlush ∨
    (s.loop.control = .returned ∧ ∃ now, t.finalFlush = some (now, s.loop.queue.registered)) := by
  rcases step_eq_some ht with ⟨_, _, _, hloop, hrecord⟩
  rcases a with ⟨action, time⟩
  generalize t.loop = loop at hloop hrecord
  subst hrecord
  simp only at hloop
  cases LoopImpl.moves_of_step hloop with
  | runExpiredTasksNow hreturned => exact Or.inr ⟨hreturned, _, rfl⟩
  | _ => exact Or.inl rfl

/-- Time passes. -/
def tick (s : DoRunHistory Q) (now : TimePoint) : DoRunHistory Q := { s with clock := now }

lemma OnTime.tick (hs : s.OnTime) {now : TimePoint} (hclock : s.clock ≤ now) :
    (s.tick now).OnTime :=
  hs.keep hclock hs.balanced rfl rfl rfl rfl rfl

omit [DelayedTaskQueue Q ℕ] in
lemma Ending.tick (he : s.Ending) (now : TimePoint) : (s.tick now).Ending where
  notForTime := he.notForTime
  terminated := he.terminated
  before := he.before
  after now registered hflush :=
    let hf := he.after now registered hflush
    ⟨hf.terminated, hf.ended, hf.due, hf.grown, hf.handedOut⟩

end DoRunHistory

end FFNetwork
