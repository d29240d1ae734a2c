import FFNetwork.Base.MessageLoop.DelayedTask
import Mathlib.Logic.Function.Basic

/-!
# MessageLoopTaskQueues

`source/base/messageloop/message_loop_task_queues.{h,cpp}`: one process-wide store with, for each
message loop, a queue of delayed tasks, the observers to notify after each task, and the `Wakeable`
that arms the loop's timer.

The model has two levels.  `TaskQueueEntry` carries what each method does to the entry it looked
up, under the queue's mutex; `MessageLoopTaskQueues` adds the two maps, the id counter and the
shared registration counter, and the ways a look-up can fail.

* `TaskQueueEntry.getTasksToRunNow` — the peek/pop/break loop, with its three exits and the
  re-arming of the wake-up between two pops.
* `getTasksToRunNow_kAll`, `getTasksToRunNow_kSingle` — what a flush hands out and what it leaves.
-/

namespace FFNetwork

open PriorityQueue

/-- Which of the due tasks a flush takes. -/
inductive FlushType
  | kSingle
  | kAll
deriving DecidableEq, Repr

/-- A `Wakeable` seen from the store: the arguments of the `WakeUp` calls it has had, the last one
first. -/
structure Wakeable where
  calls : List TimePoint

/-- One more `WakeUp` call. -/
def Wakeable.wakeUp (w : Wakeable) (timepoint : TimePoint) : Wakeable := ⟨timepoint :: w.calls⟩

/-- The entry of one queue.  `task_observers` is a `std::map`, listed in ascending key order. -/
structure TaskQueueEntry (Closure Q : Type) where
  task_observers : List (Int64 × Closure)
  delayed_tasks : Q
  wakeable : Option Wakeable

namespace TaskQueueEntry

variable {Closure Q : Type} [DelayedTaskQueue Q Closure]

/-! ## The methods, on the entry they look up -/

/-- `TaskQueueEntry::TaskQueueEntry`. -/
def new : TaskQueueEntry Closure Q := ⟨[], empty, none⟩

/-- The pending tasks. -/
def pending (e : TaskQueueEntry Closure Q) : Multiset (DelayedTask Closure) :=
  elems e.delayed_tasks

/-- `WakeUpUnlocked`; without a `Wakeable` nothing is called. -/
def wakeUpUnlocked (e : TaskQueueEntry Closure Q) (time : TimePoint) : TaskQueueEntry Closure Q :=
  { e with wakeable := e.wakeable.map fun w => w.wakeUp time }

/-- `HasPendingTasksUnlocked`. -/
def hasPendingTasksUnlocked (e : TaskQueueEntry Closure Q) : Bool := (top? e.delayed_tasks).isSome

/-- `PeekNextTaskUnlocked`; its callers have checked that a task is pending. -/
def peekNextTaskUnlocked (e : TaskQueueEntry Closure Q) : Option (DelayedTask Closure) :=
  top? e.delayed_tasks

/-- `GetNextWakeTimeUnlocked`: the target time at the top, if a task is pending. -/
def getNextWakeTimeUnlocked (e : TaskQueueEntry Closure Q) : Option TimePoint :=
  e.peekNextTaskUnlocked.map DelayedTask.target_time_

/-- `RegisterTask`, for a task that gets the counter value `order`: push, then wake up at the
target time now at the top. -/
def registerTask (e : TaskQueueEntry Closure Q) (order : Int32) (task : Closure)
    (target_time : TimePoint) : TaskQueueEntry Closure Q :=
  let delayed_task : DelayedTask Closure := ⟨DelayedTask.castOrder order, task, target_time⟩
  let e := { e with delayed_tasks := push delayed_task e.delayed_tasks }
  match e.getNextWakeTimeUnlocked with
  | none => e
  | some time => e.wakeUpUnlocked time

/-- The end of a round of `GetTasksToRunNow`: wake up for the next task, or as late as possible. -/
def rearmUnlocked (e : TaskQueueEntry Closure Q) : TaskQueueEntry Closure Q :=
  match e.getNextWakeTimeUnlocked with
  | none => e.wakeUpUnlocked TimePoint.max
  | some time => e.wakeUpUnlocked time

/-- The while loop of `GetTasksToRunNow`; the fuel bounds the number of rounds. -/
def flushLoop (type : FlushType) (now : TimePoint) :
    ℕ → TaskQueueEntry Closure Q → List Closure → TaskQueueEntry Closure Q × List Closure
  | 0, e, invocations => (e, invocations)
  | n + 1, e, invocations =>
      match e.peekNextTaskUnlocked with
      | none => (e, invocations)
      | some top_task =>
          if top_task.target_time_ > now then (e, invocations)
          else
            let invocations := invocations ++ [top_task.task_]
            let e := { e with delayed_tasks := pop e.delayed_tasks }
            if type = .kSingle then (e, invocations)
            else flushLoop type now n e.rearmUnlocked invocations

/-- `GetTasksToRunNow`: `now` is its one clock reading.  Each round pops a task, so as many rounds
as there are pending tasks are enough. -/
def getTasksToRunNow (e : TaskQueueEntry Closure Q) (type : FlushType) (now : TimePoint)
    (invocations : List Closure) : TaskQueueEntry Closure Q × List Closure :=
  flushLoop type now (size e.delayed_tasks) e invocations

/-- `GetNumPendingTasks`. -/
def getNumPendingTasks (e : TaskQueueEntry Closure Q) : ℕ := size e.delayed_tasks

/-- `DisposeTasks`. -/
def disposeTasks (e : TaskQueueEntry Closure Q) : TaskQueueEntry Closure Q :=
  { e with delayed_tasks := empty }

/-- `task_observers[key] = callback`. -/
def setObserver (key : Int64) (callback : Closure) : List (Int64 × Closure) → List (Int64 × Closure)
  | [] => [(key, callback)]
  | (k, c) :: rest =>
      if key < k then (key, callback) :: (k, c) :: rest
      else if key = k then (key, callback) :: rest
      else (k, c) :: setObserver key callback rest

/-- `AddTaskObserver`, which replaces the observer under an equal key. -/
def addTaskObserver (e : TaskQueueEntry Closure Q) (key : Int64) (callback : Closure) :
    TaskQueueEntry Closure Q :=
  { e with task_observers := setObserver key callback e.task_observers }

/-- `RemoveTaskObserver`. -/
def removeTaskObserver (e : TaskQueueEntry Closure Q) (key : Int64) : TaskQueueEntry Closure Q :=
  { e with task_observers := e.task_observers.filter fun o => o.1 ≠ key }

/-- `GetObserversToNotify`: the callbacks, in the order of their keys. -/
def getObserversToNotify (e : TaskQueueEntry Closure Q) : List Closure :=
  e.task_observers.map Prod.snd

/-! ## What each method does to the pending tasks -/

@[simp] lemma new_pending : (new : TaskQueueEntry Closure Q).pending = 0 := elems_empty

@[simp] lemma rearmUnlocked_delayed_tasks (e : TaskQueueEntry Closure Q) :
    e.rearmUnlocked.delayed_tasks = e.delayed_tasks := by
  rw [rearmUnlocked]; split <;> rfl

@[simp] lemma disposeTasks_pending (e : TaskQueueEntry Closure Q) : e.disposeTasks.pending = 0 :=
  elems_empty

@[simp] lemma registerTask_pending (e : TaskQueueEntry Closure Q) (order : Int32) (task : Closure)
    (target_time : TimePoint) :
    (e.registerTask order task target_time).pending
      = ⟨DelayedTask.castOrder order, task, target_time⟩ ::ₘ e.pending := by
  simp only [registerTask]
  split <;> exact elems_push _ _

lemma getNumPendingTasks_eq (e : TaskQueueEntry Closure Q) :
    e.getNumPendingTasks = Multiset.card e.pending := rfl

lemma hasPendingTasksUnlocked_iff (e : TaskQueueEntry Closure Q) :
    e.hasPendingTasksUnlocked = true ↔ e.pending ≠ 0 := by
  rw [hasPendingTasksUnlocked, Option.isSome_iff_ne_none, pending, ne_eq, top?_eq_none]

/-! ## What a flush hands out -/

/-- The test of the loop's first break, as a predicate on tasks. -/
def due (now : TimePoint) (t : DelayedTask Closure) : Bool := decide (t.target_time_ ≤ now)

/-- With `kAll` the loop pops as long as the task at the top is due. -/
lemma flushLoop_kAll (now : TimePoint) (n : ℕ) (e : TaskQueueEntry Closure Q)
    (invocations : List Closure) :
    (flushLoop .kAll now n e invocations).1.delayed_tasks
        = (popWhile (due now) n e.delayed_tasks).2 ∧
      (flushLoop .kAll now n e invocations).2
        = invocations ++ (popWhile (due now) n e.delayed_tasks).1.map DelayedTask.task_ := by
  induction n generalizing e invocations with
  | zero => simp [flushLoop, popWhile]
  | succ n ih =>
      rw [flushLoop, popWhile, peekNextTaskUnlocked]
      cases htop : top? e.delayed_tasks with
      | none => simp
      | some top_task =>
          by_cases hdue : top_task.target_time_ ≤ now
          · have hdue' : due now top_task = true := decide_eq_true hdue
            simp only [gt_iff_lt, not_lt.mpr hdue, if_false, hdue', if_true, reduceCtorEq]
            obtain ⟨h1, h2⟩ := ih (rearmUnlocked { e with delayed_tasks := pop e.delayed_tasks })
              (invocations ++ [top_task.task_])
            rw [rearmUnlocked_delayed_tasks] at h1 h2
            exact ⟨h1, by rw [h2]; simp⟩
          · have hdue' : due now top_task = false := decide_eq_false hdue
            simp [not_le.mp hdue, hdue']

/-- **A full flush.**  It appends the due tasks, in an order in which no task comes before one it
is greater than, leaves exactly the others, and keeps what `invocations` held. -/
theorem getTasksToRunNow_kAll (e : TaskQueueEntry Closure Q) (now : TimePoint)
    (invocations : List Closure) :
    ∃ popped : List (DelayedTask Closure),
      (e.getTasksToRunNow .kAll now invocations).2
        = invocations ++ popped.map DelayedTask.task_ ∧
      (↑popped : Multiset (DelayedTask Closure))
        = e.pending.filter (fun t => t.target_time_ ≤ now) ∧
      (e.getTasksToRunNow .kAll now invocations).1.pending
        = e.pending.filter (fun t => now < t.target_time_) ∧
      popped.Pairwise (fun a b => a.gt b = false) := by
  obtain ⟨hqueue, hinv⟩ := flushLoop_kAll now (size e.delayed_tasks) e invocations
  obtain ⟨hout, hleft⟩ :=
    popWhile_spec (p := due now) DelayedTask.due_of_gt_eq_false e.delayed_tasks
  refine ⟨_, hinv, ?_, ?_, (popWhile_sorted respects_comp (due now) _ _).1⟩
  · simpa [due, pending] using hout
  · rw [pending, getTasksToRunNow, hqueue]
    simpa [due, pending] using hleft

/-- The one round of a single flush. -/
lemma getTasksToRunNow_kSingle_eq (e : TaskQueueEntry Closure Q) (now : TimePoint)
    (invocations : List Closure) :
    e.getTasksToRunNow .kSingle now invocations =
      match top? e.delayed_tasks with
      | none => (e, invocations)
      | some top_task =>
          if top_task.target_time_ > now then (e, invocations)
          else
            ({ e with delayed_tasks := pop e.delayed_tasks }, invocations ++ [top_task.task_]) := by
  rw [getTasksToRunNow]
  cases htop : top? e.delayed_tasks with
  | none => rw [size_eq_zero.mpr (top?_none _ htop), flushLoop]
  | some top_task =>
      rw [size_pop htop, flushLoop, peekNextTaskUnlocked, htop]
      rfl

/-- **A single flush.**  It hands out one task that no pending task comes before, if that task is
due, and otherwise changes nothing.  It never calls `WakeUp`. -/
theorem getTasksToRunNow_kSingle (e : TaskQueueEntry Closure Q) (now : TimePoint)
    (invocations : List Closure) :
    (∃ t ∈ e.pending, t.target_time_ ≤ now ∧ (∀ b ∈ e.pending, t.gt b = false) ∧
      (e.getTasksToRunNow .kSingle now invocations).2 = invocations ++ [t.task_] ∧
      e.pending = t ::ₘ (e.getTasksToRunNow .kSingle now invocations).1.pending ∧
      (e.getTasksToRunNow .kSingle now invocations).1.wakeable = e.wakeable) ∨
    ((∀ t ∈ e.pending, now < t.target_time_) ∧
      e.getTasksToRunNow .kSingle now invocations = (e, invocations)) := by
  rw [getTasksToRunNow_kSingle_eq]
  cases htop : top? e.delayed_tasks with
  | none =>
      right
      refine ⟨fun t ht => ?_, rfl⟩
      rw [pending, top?_none _ htop] at ht
      exact absurd ht (Multiset.notMem_zero t)
  | some top_task =>
      have hfirst := top?_first _ _ htop
      by_cases hdue : top_task.target_time_ ≤ now
      · left
        simp only [gt_iff_lt, not_lt.mpr hdue, if_false]
        exact ⟨top_task, mem_of_top? htop, hdue, hfirst, rfl, top?_some _ _ htop, trivial⟩
      · right
        simp only [gt_iff_lt, not_le.mp hdue, if_true, and_true]
        exact fun t ht => lt_of_lt_of_le (not_le.mp hdue)
          (DelayedTask.target_le_of_gt_eq_false (hfirst t ht))

/-- **What any flush does to the queue.**  Some tasks move from the queue to the end of
`invocations`, in an order in which none comes before one it is greater than, and none is greater
than a task left behind.  The order is that of any comparator that the queue respects. -/
theorem getTasksToRunNow_popped {r : DelayedTask Closure → DelayedTask Closure → Bool}
    (hr : Respects Q r) (e : TaskQueueEntry Closure Q) (type : FlushType) (now : TimePoint)
    (invocations : List Closure) :
    ∃ popped : List (DelayedTask Closure),
      (e.getTasksToRunNow type now invocations).2
        = invocations ++ popped.map DelayedTask.task_ ∧
      e.pending = ↑popped + (e.getTasksToRunNow type now invocations).1.pending ∧
      popped.Pairwise (fun a b => r a b = false) ∧
      ∀ a ∈ popped, ∀ b ∈ (e.getTasksToRunNow type now invocations).1.pending, r a b = false := by
  cases type with
  | kSingle =>
      rw [getTasksToRunNow_kSingle_eq]
      cases htop : top? e.delayed_tasks with
      | none => exact ⟨[], by simp, by simp, List.Pairwise.nil, by simp⟩
      | some top_task =>
          by_cases hdue : top_task.target_time_ > now
          · simp only [hdue, if_true]
            exact ⟨[], by simp, by simp, List.Pairwise.nil, by simp⟩
          · simp only [hdue, if_false]
            refine ⟨[top_task], rfl, top?_some _ _ htop, List.pairwise_singleton _ _, ?_⟩
            intro a ha b hb
            obtain rfl := List.mem_singleton.mp ha
            exact hr _ _ htop b (mem_of_mem_pop htop hb)
  | kAll =>
      obtain ⟨hqueue, hinv⟩ := flushLoop_kAll now (size e.delayed_tasks) e invocations
      obtain ⟨hsorted, hrest⟩ := popWhile_sorted hr (due now) (size e.delayed_tasks) e.delayed_tasks
      refine ⟨_, hinv, ?_, hsorted, ?_⟩
      · rw [pending, pending, getTasksToRunNow, hqueue]
        exact popWhile_elems (due now) (size e.delayed_tasks) e.delayed_tasks
      · rw [pending, getTasksToRunNow, hqueue]
        exact hrest

lemma flushLoop_invocations (type : FlushType) (now : TimePoint) (n : ℕ)
    (e : TaskQueueEntry Closure Q) (invocations more : List Closure) :
    flushLoop type now n e (invocations ++ more)
      = ((flushLoop type now n e more).1, invocations ++ (flushLoop type now n e more).2) := by
  induction n generalizing e more with
  | zero => rfl
  | succ n ih =>
      rw [flushLoop, flushLoop]
      split
      · rfl
      · split
        · rfl
        · simp only [List.append_assoc]
          split
          · rfl
          · exact ih _ _

/-- A flush appends to `invocations` and does not look at what they held. -/
lemma getTasksToRunNow_append (e : TaskQueueEntry Closure Q) (type : FlushType) (now : TimePoint)
    (invocations : List Closure) :
    e.getTasksToRunNow type now invocations
      = ((e.getTasksToRunNow type now []).1,
          invocations ++ (e.getTasksToRunNow type now []).2) := by
  have h := flushLoop_invocations type now (size e.delayed_tasks) e invocations []
  rwa [List.append_nil] at h

/-- A flush moves tasks from the queue to `invocations` and does nothing else with them. -/
lemma getTasksToRunNow_conserves (e : TaskQueueEntry Closure Q) (type : FlushType)
    (now : TimePoint) (invocations : List Closure) :
    (↑(e.getTasksToRunNow type now invocations).2 : Multiset Closure)
        + (e.getTasksToRunNow type now invocations).1.pending.map DelayedTask.task_
      = ↑invocations + e.pending.map DelayedTask.task_ := by
  obtain ⟨popped, hinv, hpending, _, _⟩ :=
    e.getTasksToRunNow_popped respects_comp type now invocations
  rw [hinv, hpending, Multiset.map_add, Multiset.map_coe, ← Multiset.coe_add, add_assoc]

/-- What a flush hands out was pending and is due. -/
lemma handedOut_due {e : TaskQueueEntry Closure Q} {type : FlushType} {now : TimePoint}
    {task : Closure} (h : task ∈ (e.getTasksToRunNow type now []).2) :
    ∃ t ∈ e.pending, t.task_ = task ∧ t.target_time_ ≤ now := by
  cases type with
  | kAll =>
      obtain ⟨popped, hinv, hpopped, _, _⟩ := e.getTasksToRunNow_kAll now []
      rw [hinv, List.nil_append] at h
      obtain ⟨t, ht, rfl⟩ := List.mem_map.mp h
      rw [← Multiset.mem_coe, hpopped, Multiset.mem_filter] at ht
      exact ⟨t, ht.1, rfl, ht.2⟩
  | kSingle =>
      rcases e.getTasksToRunNow_kSingle now [] with ⟨t, ht, hdue, _, hinv, _, _⟩ | ⟨_, hsame⟩
      · rw [hinv, List.nil_append, List.mem_singleton] at h
        exact ⟨t, ht, h.symm, hdue⟩
      · rw [hsame] at h
        cases h

/-- What a flush leaves was there before. -/
lemma mem_of_mem_getTasksToRunNow {e : TaskQueueEntry Closure Q} {type : FlushType}
    {now : TimePoint} {invocations : List Closure} {t : DelayedTask Closure}
    (ht : t ∈ (e.getTasksToRunNow type now invocations).1.pending) : t ∈ e.pending := by
  obtain ⟨_, _, hpending, _, _⟩ := e.getTasksToRunNow_popped respects_comp type now invocations
  rw [hpending]
  exact Multiset.mem_add.mpr (Or.inr ht)

end TaskQueueEntry

/-! ## The store -/

/-- A queue id: a `size_t`, compared through its conversion to `int`. -/
structure TaskQueueId where
  value_ : UInt64
deriving DecidableEq, Repr

/-- `TaskQueueId::operator int`, which is what `std::map` orders the ids by. -/
def TaskQueueId.toInt (id : TaskQueueId) : Int32 := id.value_.toUInt32.toInt32

/-- How a call on the store goes wrong: `std::map::at` throws, a null `unique_ptr` that
`operator[]` has just inserted is dereferenced, an `FF_CHECK` aborts. -/
inductive Fault
  | outOfRange
  | nullDereference
  | checkFailed
deriving DecidableEq, Repr

/-- The store.  The maps are keyed by what their comparator sees of an id. -/
structure MessageLoopTaskQueues (Closure Q : Type) where
  queue_entries_ : Int32 → Option (TaskQueueEntry Closure Q)
  queue_locks_ : Int32 → Bool
  task_queue_id_counter_ : UInt64
  order_ : Int32

namespace MessageLoopTaskQueues

variable {Closure Q : Type} [DelayedTaskQueue Q Closure]

/-- `MessageLoopTaskQueues::MessageLoopTaskQueues`. -/
def new : MessageLoopTaskQueues Closure Q := ⟨fun _ => none, fun _ => false, 0, 0⟩

/-- The entry behind an id, if there is one. -/
def entry (qs : MessageLoopTaskQueues Closure Q) (queue_id : TaskQueueId) :
    Option (TaskQueueEntry Closure Q) :=
  qs.queue_entries_ queue_id.toInt

/-- The store with another entry behind the id. -/
def setEntry (qs : MessageLoopTaskQueues Closure Q) (queue_id : TaskQueueId)
    (e : TaskQueueEntry Closure Q) : MessageLoopTaskQueues Closure Q :=
  { qs with queue_entries_ := Function.update qs.queue_entries_ queue_id.toInt (some e) }

/-- `GetMutex`: the mutexes of disposed queues stay in their map. -/
def getMutex (qs : MessageLoopTaskQueues Closure Q) (queue_id : TaskQueueId) : Except Fault Unit :=
  if qs.queue_locks_ queue_id.toInt then .ok () else .error .outOfRange

/-- `queue_entries_.at(queue_id)`. -/
def entryAt (qs : MessageLoopTaskQueues Closure Q) (queue_id : TaskQueueId) :
    Except Fault (TaskQueueEntry Closure Q) :=
  match qs.entry queue_id with
  | some e => .ok e
  | none => .error .outOfRange

/-- `queue_entries_[queue_id]->`, which inserts a null pointer for a missing key. -/
def entryRef (qs : MessageLoopTaskQueues Closure Q) (queue_id : TaskQueueId) :
    Except Fault (TaskQueueEntry Closure Q) :=
  match qs.entry queue_id with
  | some e => .ok e
  | none => .error .nullDereference

/-- `CreateTaskQueue`: the id is the counter before it is incremented. -/
def createTaskQueue (qs : MessageLoopTaskQueues Closure Q) :
    TaskQueueId × MessageLoopTaskQueues Closure Q :=
  let loop_id : TaskQueueId := ⟨qs.task_queue_id_counter_⟩
  (loop_id,
    { qs with
      task_queue_id_counter_ := qs.task_queue_id_counter_ + 1
      queue_locks_ := Function.update qs.queue_locks_ loop_id.toInt true
      queue_entries_ := Function.update qs.queue_entries_ loop_id.toInt (some .new) })

/-- `Dispose`, which erases the entry and keeps the mutex. -/
def dispose (qs : MessageLoopTaskQueues Closure Q) (queue_id : TaskQueueId) :
    Except Fault (MessageLoopTaskQueues Closure Q) := do
  qs.getMutex queue_id
  return { qs with queue_entries_ := Function.update qs.queue_entries_ queue_id.toInt none }

/-- `DisposeTasks` of the queue behind an id. -/
def disposeTasks (qs : MessageLoopTaskQueues Closure Q) (queue_id : TaskQueueId) :
    Except Fault (MessageLoopTaskQueues Closure Q) := do
  qs.getMutex queue_id
  let e ← qs.entryAt queue_id
  return qs.setEntry queue_id e.disposeTasks

/-- `RegisterTask`: the counter is read and incremented before the entry is looked up. -/
def registerTask (qs : MessageLoopTaskQueues Closure Q) (queue_id : TaskQueueId) (task : Closure)
    (target_time : TimePoint) : Except Fault (MessageLoopTaskQueues Closure Q) := do
  qs.getMutex queue_id
  let order := qs.order_
  let qs := { qs with order_ := qs.order_ + 1 }
  let e ← qs.entryRef queue_id
  return qs.setEntry queue_id (e.registerTask order task target_time)

/-- `HasPendingTask` of the queue behind an id. -/
def hasPendingTask (qs : MessageLoopTaskQueues Closure Q) (queue_id : TaskQueueId) :
    Except Fault Bool := do
  qs.getMutex queue_id
  let e ← qs.entryAt queue_id
  return e.hasPendingTasksUnlocked

/-- `GetTasksToRunNow` of the queue behind an id, with the clock reading. -/
def getTasksToRunNow (qs : MessageLoopTaskQueues Closure Q) (queue_id : TaskQueueId)
    (type : FlushType) (now : TimePoint) (invocations : List Closure) :
    Except Fault (MessageLoopTaskQueues Closure Q × List Closure) := do
  qs.getMutex queue_id
  let e ← qs.entryAt queue_id
  let r := e.getTasksToRunNow type now invocations
  return (qs.setEntry queue_id r.1, r.2)

/-- `GetNumPendingTasks` of the queue behind an id. -/
def getNumPendingTasks (qs : MessageLoopTaskQueues Closure Q) (queue_id : TaskQueueId) :
    Except Fault ℕ := do
  qs.getMutex queue_id
  let e ← qs.entryAt queue_id
  return e.getNumPendingTasks

/-- `AddTaskObserver` of the queue behind an id, looked up with `operator[]`. -/
def addTaskObserver (qs : MessageLoopTaskQueues Closure Q) (queue_id : TaskQueueId) (key : Int64)
    (callback : Closure) : Except Fault (MessageLoopTaskQueues Closure Q) := do
  qs.getMutex queue_id
  let e ← qs.entryRef queue_id
  return qs.setEntry queue_id (e.addTaskObserver key callback)

/-- `RemoveTaskObserver` of the queue behind an id, looked up with `operator[]`. -/
def removeTaskObserver (qs : MessageLoopTaskQueues Closure Q) (queue_id : TaskQueueId)
    (key : Int64) : Except Fault (MessageLoopTaskQueues Closure Q) := do
  qs.getMutex queue_id
  let e ← qs.entryRef queue_id
  return qs.setEntry queue_id (e.removeTaskObserver key)

/-- `GetObserversToNotify` of the queue behind an id. -/
def getObserversToNotify (qs : MessageLoopTaskQueues Closure Q) (queue_id : TaskQueueId) :
    Except Fault (List Closure) := do
  qs.getMutex queue_id
  let e ← qs.entryAt queue_id
  return e.getObserversToNotify

/-- `SetWakeable`, for a `Wakeable` that has had no call yet. -/
def setWakeable (qs : MessageLoopTaskQueues Closure Q) (queue_id : TaskQueueId) :
    Except Fault (MessageLoopTaskQueues Closure Q) := do
  qs.getMutex queue_id
  let e ← qs.entryRef queue_id
  if e.wakeable.isSome then throw .checkFailed
  return qs.setEntry queue_id { e with wakeable := some ⟨[]⟩ }

/-! ## When a call goes through -/

lemma bind_eq_ok {α β : Type} {x : Except Fault α} {f : α → Except Fault β} {b : β} :
    x >>= f = .ok b ↔ ∃ a, x = .ok a ∧ f a = .ok b := by
  cases x with
  | ok a => exact ⟨fun h => ⟨a, rfl, h⟩, fun ⟨_, ha, hb⟩ => by cases ha; exact hb⟩
  | error e => exact ⟨fun h => (nomatch h), fun ⟨_, ha, _⟩ => nomatch ha⟩

omit [DelayedTaskQueue Q Closure] in
lemma entryAt_eq_ok {qs : MessageLoopTaskQueues Closure Q} {queue_id : TaskQueueId}
    {e : TaskQueueEntry Closure Q} : qs.entryAt queue_id = .ok e ↔ qs.entry queue_id = some e := by
  rw [entryAt]
  cases qs.entry queue_id <;> simp

omit [DelayedTaskQueue Q Closure] in
lemma entryRef_eq_ok {qs : MessageLoopTaskQueues Closure Q} {queue_id : TaskQueueId}
    {e : TaskQueueEntry Closure Q} : qs.entryRef queue_id = .ok e ↔ qs.entry queue_id = some e := by
  rw [entryRef]
  cases qs.entry queue_id <;> simp

/-- `RegisterTask` needs a mutex and an entry, and changes the entry and the counter. -/
lemma registerTask_eq_ok {qs qs' : MessageLoopTaskQueues Closure Q} {queue_id : TaskQueueId}
    {task : Closure} {target_time : TimePoint} :
    qs.registerTask queue_id task target_time = .ok qs' ↔
      qs.getMutex queue_id = .ok () ∧ ∃ e, qs.entry queue_id = some e ∧
        { qs with order_ := qs.order_ + 1 }.setEntry queue_id
          (e.registerTask qs.order_ task target_time) = qs' := by
  simp only [registerTask, bind_eq_ok, entryRef_eq_ok, pure, Except.pure, Except.ok.injEq]
  exact ⟨fun ⟨_, hlock, h⟩ => ⟨hlock, h⟩, fun ⟨hlock, h⟩ => ⟨(), hlock, h⟩⟩

lemma getTasksToRunNow_eq_ok {qs : MessageLoopTaskQueues Closure Q} {queue_id : TaskQueueId}
    {type : FlushType} {now : TimePoint} {invocations : List Closure}
    {r : MessageLoopTaskQueues Closure Q × List Closure} :
    qs.getTasksToRunNow queue_id type now invocations = .ok r ↔
      qs.getMutex queue_id = .ok () ∧ ∃ e, qs.entry queue_id = some e ∧
        (qs.setEntry queue_id (e.getTasksToRunNow type now invocations).1,
          (e.getTasksToRunNow type now invocations).2) = r := by
  simp only [getTasksToRunNow, bind_eq_ok, entryAt_eq_ok, pure, Except.pure, Except.ok.injEq]
  exact ⟨fun ⟨_, hlock, h⟩ => ⟨hlock, h⟩, fun ⟨hlock, h⟩ => ⟨(), hlock, h⟩⟩

lemma disposeTasks_eq_ok {qs qs' : MessageLoopTaskQueues Closure Q} {queue_id : TaskQueueId} :
    qs.disposeTasks queue_id = .ok qs' ↔
      qs.getMutex queue_id = .ok () ∧ ∃ e, qs.entry queue_id = some e ∧
        qs.setEntry queue_id e.disposeTasks = qs' := by
  simp only [disposeTasks, bind_eq_ok, entryAt_eq_ok, pure, Except.pure, Except.ok.injEq]
  exact ⟨fun ⟨_, hlock, h⟩ => ⟨hlock, h⟩, fun ⟨hlock, h⟩ => ⟨(), hlock, h⟩⟩

omit [DelayedTaskQueue Q Closure] in
/-- `SetWakeable` goes through once for each queue. -/
lemma setWakeable_of_none {qs : MessageLoopTaskQueues Closure Q} {queue_id : TaskQueueId}
    {e : TaskQueueEntry Closure Q} (hlock : qs.getMutex queue_id = .ok ())
    (hentry : qs.entry queue_id = some e) (hnone : e.wakeable = none) :
    qs.setWakeable queue_id
      = .ok (qs.setEntry queue_id { e with wakeable := some ⟨[]⟩ }) := by
  refine bind_eq_ok.mpr ⟨(), hlock, bind_eq_ok.mpr ⟨e, entryRef_eq_ok.mpr hentry, ?_⟩⟩
  rw [hnone]
  rfl

omit [DelayedTaskQueue Q Closure] in
lemma setEntry_entry_self (qs : MessageLoopTaskQueues Closure Q) {id queue_id : TaskQueueId}
    (hid : id.toInt = queue_id.toInt) (e : TaskQueueEntry Closure Q) :
    (qs.setEntry id e).entry queue_id = some e := by
  rw [entry, ← hid]
  exact Function.update_self ..

omit [DelayedTaskQueue Q Closure] in
lemma setEntry_entry_other (qs : MessageLoopTaskQueues Closure Q) {id queue_id : TaskQueueId}
    (hid : id.toInt ≠ queue_id.toInt) (e : TaskQueueEntry Closure Q) :
    (qs.setEntry id e).entry queue_id = qs.entry queue_id :=
  Function.update_of_ne hid.symm ..

end MessageLoopTaskQueues

end FFNetwork
