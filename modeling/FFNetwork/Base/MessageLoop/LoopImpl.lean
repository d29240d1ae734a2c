import FFNetwork.Base.MessageLoop.QueueHistory

/-!
# MessageLoopImpl

`source/base/messageloop/message_loop_impl.cpp`: a loop is a queue of the store, the flag
`terminated_` and a platform part that waits for the timer.  The model interleaves the loop thread
with the threads that post.  `PostTask` is two steps, its test of `terminated_` and its
`RegisterTask`, and so is each section of the store that holds the queue's mutex; a task that the
loop runs is one step, and what it posts are the posting steps that follow.  When `Run` and
`RunForTime` serve the timer and when they return is left open here, so the model has every
behaviour of both platforms.

* `LoopImpl.step` — the step function of the loop and its posters; `moves_of_step` says what one
  step can be.
* `Balanced` — the invariant: what the queue handed out is executed or in the batch under way.
* **`slices_keep_tasks_iff`** — running the loop in slices loses no task exactly when every
  `DisposeTasks` finds the queue empty.
-/

namespace FFNetwork

open PriorityQueue StepSystem

/-- The two ways to run a loop. -/
inductive RunCall
  | doRun
  | doRunForTime
deriving DecidableEq, Repr

/-- Where the loop thread stands. -/
inductive LoopControl
  /-- Neither in `DoRun` nor in `DoRunForTime`. -/
  | outside
  /-- Inside `Run` or `RunForTime`, waiting. -/
  | waiting (call : RunCall)
  /-- In a flush made from there, with these tasks still to invoke. -/
  | serving (call : RunCall) (batch : List ℕ)
  /-- `Run` or `RunForTime` has returned. -/
  | returned
  /-- In the final flush, with these tasks still to invoke. -/
  | finishing (batch : List ℕ)
deriving DecidableEq, Repr

/-- The steps of the loop thread, and those of the threads that post or terminate. -/
inductive LoopAction
  | doRun
  | doRunForTime
  /-- The platform part serves the timer: `RunExpiredTasksNow` at this clock reading. -/
  | onEventFired (now : TimePoint)
  /-- Invoke the next task of the batch, and its observers. -/
  | invoke
  /-- The batch is done. -/
  | flushed
  /-- `Run` or `RunForTime` returns. -/
  | runReturns
  /-- The final `RunExpiredTasksNow`. -/
  | runExpiredTasksNow (now : TimePoint)
  | disposeTasks
  | doTerminate
  /-- `PostTask` tests `terminated_`. -/
  | postTask (target_time : TimePoint)
  /-- A `PostTask` that has passed its test calls `RegisterTask`. -/
  | registerTask (target_time : TimePoint)
  /-- A task is registered on another queue of the store. -/
  | registerElsewhere
deriving Repr

/-- A `MessageLoopImpl` with its queue, the place of the loop thread, the posts that are under way
and the tasks executed so far. -/
structure LoopImpl (Q : Type) where
  queue : QueueHistory Q
  terminated_ : Bool
  control : LoopControl
  /-- The target times of the `PostTask` calls between their two steps. -/
  posting : List TimePoint
  executed : List ℕ

/-- The tasks handed out by `GetTasksToRunNow` and not invoked yet. -/
def LoopControl.batch : LoopControl → List ℕ
  | .serving _ batch => batch
  | .finishing batch => batch
  | _ => []

namespace LoopImpl

variable {Q : Type} [DelayedTaskQueue Q ℕ]

/-- `MessageLoopImpl::MessageLoopImpl`, after `n` registrations elsewhere. -/
def create (n : ℕ) : LoopImpl Q := ⟨.created (some ⟨[]⟩) n, false, .outside, [], []⟩

/-- `FlushTasks(FlushType::kAll)` up to its loop: the queue after `GetTasksToRunNow`, and the
tasks to invoke. -/
def flushTasks (queue : QueueHistory Q) (now : TimePoint) : QueueHistory Q × List ℕ :=
  (queue.step (.getTasksToRunNow .kAll now), (queue.entry.getTasksToRunNow .kAll now []).2)

/-- The step function; `none` where the thread cannot take the step. -/
def step (s : LoopImpl Q) : LoopAction → Option (LoopImpl Q)
  | .doRun =>
      if s.control = .outside then
        some (if s.terminated_ then s else { s with control := .waiting .doRun })
      else none
  | .doRunForTime =>
      if s.control = .outside then
        some (if s.terminated_ then s else { s with control := .waiting .doRunForTime })
      else none
  | .onEventFired now =>
      match s.control with
      | .waiting call =>
          let r := flushTasks s.queue now
          some { s with queue := r.1, control := .serving call r.2 }
      | _ => none
  | .invoke =>
      match s.control with
      | .serving call (task :: batch) =>
          some { s with control := .serving call batch, executed := s.executed ++ [task] }
      | .finishing (task :: batch) =>
          some { s with control := .finishing batch, executed := s.executed ++ [task] }
      | _ => none
  | .flushed =>
      match s.control with
      | .serving call [] => some { s with control := .waiting call }
      | _ => none
  | .runReturns =>
      match s.control with
      | .waiting .doRun => some { s with control := .returned, terminated_ := true }
      | .waiting .doRunForTime => some { s with control := .returned }
      | _ => none
  | .runExpiredTasksNow now =>
      if s.control = .returned then
        let r := flushTasks s.queue now
        some { s with queue := r.1, control := .finishing r.2 }
      else none
  | .disposeTasks =>
      if s.control = .finishing [] then
        some { s with queue := s.queue.step .disposeTasks, control := .outside }
      else none
  | .doTerminate => some { s with terminated_ := true }
  | .postTask target_time =>
      some (if s.terminated_ then s else { s with posting := target_time :: s.posting })
  | .registerTask target_time =>
      if target_time ∈ s.posting then
        some { s with
          queue := s.queue.step (.registerTask target_time)
          posting := s.posting.erase target_time }
      else none
  | .registerElsewhere => some { s with queue := s.queue.step .registerElsewhere }

/-! ## What a step can be -/

/-- The transitions of the loop and its posters, each with what has to hold for it. -/
inductive Moves (s : LoopImpl Q) : LoopAction → LoopImpl Q → Prop
  | doRunTerminated (hout : s.control = .outside) (hterm : s.terminated_ = true) : Moves s .doRun s
  | doRun (hout : s.control = .outside) (hterm : s.terminated_ = false) :
      Moves s .doRun { s with control := .waiting .doRun }
  | doRunForTimeTerminated (hout : s.control = .outside) (hterm : s.terminated_ = true) :
      Moves s .doRunForTime s
  | doRunForTime (hout : s.control = .outside) (hterm : s.terminated_ = false) :
      Moves s .doRunForTime { s with control := .waiting .doRunForTime }
  | onEventFired {now : TimePoint} {call : RunCall} (hwait : s.control = .waiting call) :
      Moves s (.onEventFired now) { s with
        queue := (flushTasks s.queue now).1
        control := .serving call (flushTasks s.queue now).2 }
  | invoke {call : RunCall} {task : ℕ} {batch : List ℕ}
      (hserving : s.control = .serving call (task :: batch)) :
      Moves s .invoke { s with
        control := .serving call batch
        executed := s.executed ++ [task] }
  | invokeLast {task : ℕ} {batch : List ℕ} (hfinishing : s.control = .finishing (task :: batch)) :
      Moves s .invoke { s with
        control := .finishing batch
        executed := s.executed ++ [task] }
  | flushed {call : RunCall} (hserving : s.control = .serving call []) :
      Moves s .flushed { s with control := .waiting call }
  | runReturns (hwait : s.control = .waiting .doRun) :
      Moves s .runReturns { s with control := .returned, terminated_ := true }
  | runForTimeReturns (hwait : s.control = .waiting .doRunForTime) :
      Moves s .runReturns { s with control := .returned }
  | runExpiredTasksNow {now : TimePoint} (hreturned : s.control = .returned) :
      Moves s (.runExpiredTasksNow now) { s with
        queue := (flushTasks s.queue now).1
        control := .finishing (flushTasks s.queue now).2 }
  | disposeTasks (hfinishing : s.control = .finishing []) :
      Moves s .disposeTasks { s with queue := s.queue.step .disposeTasks, control := .outside }
  | doTerminate : Moves s .doTerminate { s with terminated_ := true }
  | postTaskTerminated {target_time : TimePoint} (hterm : s.terminated_ = true) :
      Moves s (.postTask target_time) s
  | postTask {target_time : TimePoint} (hterm : s.terminated_ = false) :
      Moves s (.postTask target_time) { s with posting := target_time :: s.posting }
  | registerTask {target_time : TimePoint} (hposting : target_time ∈ s.posting) :
      Moves s (.registerTask target_time) { s with
        queue := s.queue.step (.registerTask target_time)
        posting := s.posting.erase target_time }
  | registerElsewhere :
      Moves s .registerElsewhere { s with queue := s.queue.step .registerElsewhere }

/-- **What one step does.** -/
theorem moves_of_step {s t : LoopImpl Q} {a : LoopAction} (ht : s.step a = some t) :
    s.Moves a t := by
  cases a with
  | doRun =>
      simp only [step] at ht
      split at ht
      · next hout =>
          obtain rfl := Option.some.inj ht
          split
          · next hterm => exact .doRunTerminated hout hterm
          · next hterm => exact .doRun hout (Bool.eq_false_iff.mpr hterm)
      · cases ht
  | doRunForTime =>
      simp only [step] at ht
      split at ht
      · next hout =>
          obtain rfl := Option.some.inj ht
          split
          · next hterm => exact .doRunForTimeTerminated hout hterm
          · next hterm => exact .doRunForTime hout (Bool.eq_false_iff.mpr hterm)
      · cases ht
  | onEventFired now =>
      simp only [step] at ht
      split at ht
      · next call hwait =>
          obtain rfl := Option.some.inj ht
          exact .onEventFired hwait
      · cases ht
  | invoke =>
      simp only [step] at ht
      split at ht
      · next call task batch hserving =>
          obtain rfl := Option.some.inj ht
          exact .invoke hserving
      · next task batch hfinishing =>
          obtain rfl := Option.some.inj ht
          exact .invokeLast hfinishing
      · cases ht
  | flushed =>
      simp only [step] at ht
      split at ht
      · next call hserving =>
          obtain rfl := Option.some.inj ht
          exact .flushed hserving
      · cases ht
  | runReturns =>
      simp only [step] at ht
      split at ht
      · next hwait =>
          obtain rfl := Option.some.inj ht
          exact .runReturns hwait
      · next hwait =>
          obtain rfl := Option.some.inj ht
          exact .runForTimeReturns hwait
      · cases ht
  | runExpiredTasksNow now =>
      simp only [step] at ht
      split at ht
      · next hreturned =>
          obtain rfl := Option.some.inj ht
          exact .runExpiredTasksNow hreturned
      · cases ht
  | disposeTasks =>
      simp only [step] at ht
      split at ht
      · next hfinishing =>
          obtain rfl := Option.some.inj ht
          exact .disposeTasks hfinishing
      · cases ht
  | doTerminate =>
      obtain rfl := Option.some.inj ht
      exact .doTerminate
  | postTask target_time =>
      obtain rfl := Option.some.inj ht
      split
      · next hterm => exact .postTaskTerminated hterm
      · next hterm => exact .postTask (Bool.eq_false_iff.mpr hterm)
  | registerTask target_time =>
      simp only [step] at ht
      split at ht
      · next hposting =>
          obtain rfl := Option.some.inj ht
          exact .registerTask hposting
      · cases ht
  | registerElsewhere =>
      obtain rfl := Option.some.inj ht
      exact .registerElsewhere

/-- A loop that is run by `DoRun` only is never in a `DoRunForTime`. -/
lemma notForTime_step {s t : LoopImpl Q} {a : LoopAction}
    (hs : s.control ≠ .waiting .doRunForTime ∧
      ∀ batch, s.control ≠ .serving .doRunForTime batch)
    (ha : a ≠ .doRunForTime) (ht : s.step a = some t) :
    t.control ≠ .waiting .doRunForTime ∧ ∀ batch, t.control ≠ .serving .doRunForTime batch := by
  rcases hs with ⟨hwaiting, hserving⟩
  cases moves_of_step ht with
  | doRunForTimeTerminated _ _ => exact absurd rfl ha
  | doRunForTime _ _ => exact absurd rfl ha
  | onEventFired hwait =>
      simp only [ne_eq, reduceCtorEq, not_false_eq_true, LoopControl.serving.injEq, true_and]
      rintro _ ⟨rfl, _⟩
      exact hwaiting hwait
  | invoke hserve =>
      simp only [ne_eq, reduceCtorEq, not_false_eq_true, LoopControl.serving.injEq, true_and]
      rintro _ ⟨rfl, _⟩
      exact hserving _ hserve
  | flushed hserve =>
      simp only [ne_eq, LoopControl.waiting.injEq, reduceCtorEq, not_false_eq_true,
        implies_true, and_true]
      rintro rfl
      exact hserving _ hserve
  | doRunTerminated _ _ => exact ⟨hwaiting, hserving⟩
  | doTerminate => exact ⟨hwaiting, hserving⟩
  | postTaskTerminated _ => exact ⟨hwaiting, hserving⟩
  | postTask _ => exact ⟨hwaiting, hserving⟩
  | registerTask _ => exact ⟨hwaiting, hserving⟩
  | registerElsewhere => exact ⟨hwaiting, hserving⟩
  | _ => simp

/-! ## The invariant -/

/-- What the queue has handed out is what has been executed and what the batch under way holds. -/
structure Balanced (s : LoopImpl Q) : Prop where
  accounted : s.queue.Accounted
  invocations : s.queue.invocations = s.executed ++ s.control.batch

lemma balanced_create (n : ℕ) : (create n : LoopImpl Q).Balanced :=
  ⟨QueueHistory.accounted_created _ n, rfl⟩

lemma flushTasks_invocations (queue : QueueHistory Q) (now : TimePoint) :
    (flushTasks queue now).1.invocations = queue.invocations ++ (flushTasks queue now).2 :=
  congrArg Prod.snd (queue.entry.getTasksToRunNow_append .kAll now queue.invocations)

/-- A flush moves what it takes from the queue into a batch that was empty. -/
lemma Balanced.flush {s : LoopImpl Q} (bal : s.Balanced) (hbatch : s.control.batch = [])
    (now : TimePoint) {control : LoopControl} (hc : control.batch = (flushTasks s.queue now).2) :
    Balanced { s with queue := (flushTasks s.queue now).1, control := control } where
  accounted := QueueHistory.accounted_step bal.accounted (.getTasksToRunNow .kAll now)
  invocations := by
    show (flushTasks s.queue now).1.invocations = s.executed ++ control.batch
    rw [flushTasks_invocations, bal.invocations, hbatch, List.append_nil, hc]

theorem balanced_step {s t : LoopImpl Q} {a : LoopAction} (bal : s.Balanced)
    (ht : s.step a = some t) : t.Balanced := by
  have acc := bal.accounted
  have hinv := bal.invocations
  cases moves_of_step ht with
  | doRunTerminated hout hterm => exact bal
  | doRunForTimeTerminated hout hterm => exact bal
  | doRun hout hterm => exact ⟨acc, by rw [hinv, hout]; rfl⟩
  | doRunForTime hout hterm => exact ⟨acc, by rw [hinv, hout]; rfl⟩
  | onEventFired hwait => exact bal.flush (congrArg LoopControl.batch hwait) _ rfl
  | invoke hserving => exact ⟨acc, by rw [hinv, hserving]; simp [LoopControl.batch]⟩
  | invokeLast hfinishing => exact ⟨acc, by rw [hinv, hfinishing]; simp [LoopControl.batch]⟩
  | flushed hserving => exact ⟨acc, by rw [hinv, hserving]; rfl⟩
  | runReturns hwait => exact ⟨acc, by rw [hinv, hwait]; rfl⟩
  | runForTimeReturns hwait => exact ⟨acc, by rw [hinv, hwait]; rfl⟩
  | runExpiredTasksNow hreturned => exact bal.flush (congrArg LoopControl.batch hreturned) _ rfl
  | disposeTasks hfinishing =>
      exact ⟨QueueHistory.accounted_step acc .disposeTasks, by rw [hfinishing] at hinv; exact hinv⟩
  | doTerminate => exact ⟨acc, hinv⟩
  | postTaskTerminated hterm => exact bal
  | postTask hterm => exact ⟨acc, hinv⟩
  | registerTask hposting => exact ⟨QueueHistory.accounted_step acc (.registerTask _), hinv⟩
  | registerElsewhere => exact ⟨QueueHistory.accounted_step acc .registerElsewhere, hinv⟩

/-! ## Running the loop in slices -/

/-- The steps of a loop that is only run in slices: `DoRun` and `DoTerminate` are not called. -/
def sliceStep (s : LoopImpl Q) : LoopAction → Option (LoopImpl Q)
  | .doRun => none
  | .doTerminate => none
  | a => s.step a

lemma step_of_sliceStep {s t : LoopImpl Q} {a : LoopAction} (ht : s.sliceStep a = some t) :
    s.step a = some t := by
  cases a with
  | doRun | doTerminate => cases ht
  | _ => exact ht

/-- Every task registered so far has been executed, once, or is pending. -/
def KeepsTasks (s : LoopImpl Q) : Prop :=
  ∀ i ∈ s.queue.registered, s.executed.count i + s.queue.pendingTasks.count i = 1

/-- Only `DisposeTasks` discards tasks. -/
lemma discarded_step {s t : LoopImpl Q} {a : LoopAction} (ht : s.step a = some t)
    (ha : a ≠ .disposeTasks) : t.queue.discarded = s.queue.discarded := by
  cases moves_of_step ht with
  | disposeTasks hfinishing => exact absurd rfl ha
  | _ => rfl

/-- Outside a batch, what is registered is executed, discarded or pending, and only one of these. -/
lemma Balanced.count {s : LoopImpl Q} (bal : s.Balanced) (hbatch : s.control.batch = []) {i : ℕ}
    (hi : i ∈ s.queue.registered) :
    s.executed.count i + s.queue.discarded.count i + s.queue.pendingTasks.count i = 1 := by
  have hone := List.count_eq_one_of_mem bal.accounted.nodup hi
  rw [← Multiset.coe_count, bal.accounted.conserved, bal.invocations, hbatch, List.append_nil,
    Multiset.count_add, Multiset.count_add, Multiset.coe_count] at hone
  exact hone

/-- The return of a slice keeps every task exactly when `DisposeTasks` found nothing to discard. -/
lemma keepsTasks_disposeTasks {s t : LoopImpl Q} (bal : s.Balanced)
    (hdisc : s.queue.discarded = 0) (ht : s.step .disposeTasks = some t) :
    t.KeepsTasks ↔ s.queue.pendingTasks = 0 := by
  have bal' := balanced_step bal ht
  cases moves_of_step ht
  have hdisc' : (s.queue.step .disposeTasks).discarded = s.queue.pendingTasks := by
    show s.queue.discarded + s.queue.pendingTasks = s.queue.pendingTasks
    rw [hdisc, zero_add]
  constructor
  · intro hkeeps
    refine Multiset.eq_zero_of_forall_notMem fun i hi => ?_
    have hreg : i ∈ s.queue.registered := by
      obtain ⟨task, htask, rfl⟩ := Multiset.mem_map.mp hi
      exact bal.accounted.registered_of_pending htask
    have hcount := bal'.count rfl hreg
    have hkept := hkeeps i hreg
    have hpos := Multiset.count_pos.mpr hi
    simp only [hdisc'] at hcount hkept
    omega
  · intro hnone i hi
    have hcount := bal'.count rfl hi
    simp only [hdisc', hnone, Multiset.count_zero, add_zero] at hcount
    exact hcount

/-- **Running the loop in slices.**  In every interleaving of any number of `DoRunForTime` calls
with posts from any thread: every task registered is executed once or pending whenever a slice
returns, exactly when the queue is empty whenever `DisposeTasks` is called. -/
theorem slices_keep_tasks_iff (n : ℕ) (acts : List LoopAction) :
    EveryStep sliceStep (fun _ a t => a = .disposeTasks → t.KeepsTasks)
        (create n : LoopImpl Q) acts ↔
      EveryStep sliceStep (fun s a _ => a = .disposeTasks → s.queue.pendingTasks = 0)
        (create n : LoopImpl Q) acts := by
  refine everyStep_iff (I := fun s => s.Balanced ∧ s.queue.discarded = 0) ?_ ?_
    ⟨balanced_create n, rfl⟩
  · rintro s a t ⟨bal, hdisc⟩ ht hC
    have ht := step_of_sliceStep ht
    refine ⟨⟨balanced_step bal ht, ?_⟩, ?_⟩
    · by_cases ha : a = .disposeTasks
      · subst ha
        cases moves_of_step ht
        show s.queue.discarded + s.queue.pendingTasks = 0
        rw [hdisc, hC rfl, zero_add]
      · rw [discarded_step ht ha, hdisc]
    · rintro rfl
      exact (keepsTasks_disposeTasks bal hdisc ht).mpr (hC rfl)
  · rintro s a t ⟨bal, hdisc⟩ ht hP rfl
    exact (keepsTasks_disposeTasks bal hdisc (step_of_sliceStep ht)).mp (hP rfl)

/-- One task is posted for time 5, and one slice runs up to time 1: the task is gone. -/
theorem slice_loses_delayed_task :
    ¬ ∀ (n : ℕ) (acts : List LoopAction),
      EveryStep sliceStep (fun _ a t => a = .disposeTasks → t.KeepsTasks)
        (create n : LoopImpl (SortedQueue (@DelayedTask.gt ℕ))) acts := by
  intro hall
  let acts : List LoopAction := [.postTask ⟨5⟩, .registerTask ⟨5⟩, .doRunForTime, .runReturns,
    .runExpiredTasksNow ⟨1⟩]
  have hkeeps := (hall 0 (acts ++ [.disposeTasks])).at rfl rfl rfl
  exact absurd (hkeeps 0 (List.mem_cons_self ..)) (by decide)

end LoopImpl

end FFNetwork
