import FFNetwork.Base.MessageLoop.QueueIsolation
import FFNetwork.Lib.LockedSections

/-!
# The store's methods are atomic

Each method of `MessageLoopTaskQueues` takes the mutex of its queue, and `RegisterTask` then takes
its number from `order_`, which all queues share.  The rest of a method works on the entry of its
queue in several steps: `RegisterTask` pushes the task and then calls `WakeUp`, `GetTasksToRunNow`
pops the due tasks one by one with a `WakeUp` behind each.  Here the methods of different queues
interleave step by step.

`queue_entries_` is taken as one independent cell for each queue.  It is one `std::map`, and
`GetMutex` gives up its shared lock when it returns: `CreateTaskQueue`, an `operator[]` that inserts
and the `erase` of `Dispose` race with the look-ups of methods under the mutexes of other queues.
So the result is about runs without them, on queues that have been created.

* `storeSections` — the steps of the methods, as a machine of `LockedSections`.
* `call` — a whole method on the store, with what it returns.
* **`calls_atomic`** — every method returns, and leaves behind, what the whole methods do one after
  the other, and the queues in the store stay the same.
-/

namespace FFNetwork

open PriorityQueue StepSystem LockedSections

/-- What a method of the store returns. -/
inductive CallResult (Closure : Type)
  | done
  | flag (pending : Bool)
  | count (tasks : ℕ)
  | closures (invocations : List Closure)

/-- Where a method is behind its lock. -/
inductive SectionControl (Closure : Type)
  /-- Behind the access to `order_`. -/
  | start (op : QueueOp Closure) (order : Int32)
  /-- `RegisterTask` behind its push. -/
  | waking
  /-- `GetTasksToRunNow` at the head of its loop. -/
  | flushing (type : FlushType) (now : TimePoint) (invocations : List Closure)
  /-- `GetTasksToRunNow` behind a pop, before `WakeUp`. -/
  | rearming (type : FlushType) (now : TimePoint) (invocations : List Closure)
  | returned (result : Except Fault (CallResult Closure))

namespace QueueOp

variable {Closure : Type}

/-- `order_` behind the method. -/
def orderAfter (order_ : Int32) : QueueOp Closure → Int32
  | .registerTask _ _ => order_ + 1
  | _ => order_

/-- How the method fails without an entry: `at` throws, and `[]` inserts a null pointer. -/
def missing : QueueOp Closure → Fault
  | .registerTask _ _ | .addTaskObserver _ _ | .removeTaskObserver _ | .setWakeable =>
      .nullDereference
  | _ => .outOfRange

end QueueOp

namespace TaskQueueEntry

variable {Closure Q : Type} [DelayedTaskQueue Q Closure]

/-- The end of `RegisterTask`. -/
def wakeTop (e : TaskQueueEntry Closure Q) : TaskQueueEntry Closure Q :=
  match e.getNextWakeTimeUnlocked with
  | none => e
  | some time => e.wakeUpUnlocked time

/-- The first step of a method on its entry. -/
def begin (e : TaskQueueEntry Closure Q) (order : Int32) :
    QueueOp Closure → Option (TaskQueueEntry Closure Q) × SectionControl Closure
  | .dispose => (none, .returned (.ok .done))
  | .disposeTasks => (some e.disposeTasks, .returned (.ok .done))
  | .registerTask task target_time =>
      let delayed_task : DelayedTask Closure := ⟨DelayedTask.castOrder order, task, target_time⟩
      (some { e with delayed_tasks := push delayed_task e.delayed_tasks }, .waking)
  | .hasPendingTask => (some e, .returned (.ok (.flag e.hasPendingTasksUnlocked)))
  | .getTasksToRunNow type now invocations => (some e, .flushing type now invocations)
  | .getNumPendingTasks => (some e, .returned (.ok (.count e.getNumPendingTasks)))
  | .addTaskObserver key callback =>
      (some (e.addTaskObserver key callback), .returned (.ok .done))
  | .removeTaskObserver key => (some (e.removeTaskObserver key), .returned (.ok .done))
  | .getObserversToNotify => (some e, .returned (.ok (.closures e.getObserversToNotify)))
  | .setWakeable =>
      if e.wakeable.isSome then (some e, .returned (.error .checkFailed))
      else (some { e with wakeable := some ⟨[]⟩ }, .returned (.ok .done))

/-- One round of `GetTasksToRunNow` up to its `WakeUp`. -/
def round (e : TaskQueueEntry Closure Q) (type : FlushType) (now : TimePoint)
    (invocations : List Closure) : TaskQueueEntry Closure Q × SectionControl Closure :=
  match e.peekNextTaskUnlocked with
  | none => (e, .returned (.ok (.closures invocations)))
  | some top_task =>
      if top_task.target_time_ > now then (e, .returned (.ok (.closures invocations)))
      else
        let invocations := invocations ++ [top_task.task_]
        let e := { e with delayed_tasks := pop e.delayed_tasks }
        if type = .kSingle then (e, .returned (.ok (.closures invocations)))
        else (e, .rearming type now invocations)

end TaskQueueEntry

/-! ## The steps of the methods -/

section

variable {Closure Q : Type} [DelayedTaskQueue Q Closure]

/-- A step of a method on the cell of its queue. -/
def sectionStep : Option (TaskQueueEntry Closure Q) → SectionControl Closure →
    Option (Option (TaskQueueEntry Closure Q) × SectionControl Closure)
  | _, .returned _ => none
  | none, .start .dispose _ => some (none, .returned (.ok .done))
  | none, .start op _ => some (none, .returned (.error op.missing))
  | none, _ => some (none, .returned (.error .outOfRange))
  | some e, .start op order => some (e.begin order op)
  | some e, .waking => some (some e.wakeTop, .returned (.ok .done))
  | some e, .flushing type now invocations =>
      some (some (e.round type now invocations).1, (e.round type now invocations).2)
  | some e, .rearming type now invocations =>
      some (some e.rearmUnlocked, .flushing type now invocations)

/-- What the steps of a method that has been begun come to. -/
def sectionRest : Option (TaskQueueEntry Closure Q) → SectionControl Closure →
    Option (TaskQueueEntry Closure Q) × SectionControl Closure
  | cell, .returned result => (cell, .returned result)
  | none, .start .dispose _ => (none, .returned (.ok .done))
  | none, .start op _ => (none, .returned (.error op.missing))
  | none, _ => (none, .returned (.error .outOfRange))
  | some e, .waking => (some e.wakeTop, .returned (.ok .done))
  | some e, .flushing type now invocations =>
      let r := e.getTasksToRunNow type now invocations
      (some r.1, .returned (.ok (.closures r.2)))
  | some e, .rearming type now invocations =>
      let r := e.rearmUnlocked.getTasksToRunNow type now invocations
      (some r.1, .returned (.ok (.closures r.2)))
  | some e, .start (.registerTask task target_time) order =>
      (some (e.registerTask order task target_time), .returned (.ok .done))
  | some e, .start (.getTasksToRunNow type now invocations) _ =>
      let r := e.getTasksToRunNow type now invocations
      (some r.1, .returned (.ok (.closures r.2)))
  | some e, .start op order => e.begin order op

/-- The rounds that are left, behind one of them. -/
lemma sectionRest_round (e : TaskQueueEntry Closure Q) (type : FlushType) (now : TimePoint)
    (invocations : List Closure) :
    sectionRest (some (e.round type now invocations).1) (e.round type now invocations).2
      = sectionRest (some e) (.flushing type now invocations) := by
  simp only [sectionRest, TaskQueueEntry.getTasksToRunNow, TaskQueueEntry.round]
  cases htop : top? e.delayed_tasks with
  | none =>
      have hsize := size_eq_zero.mpr (top?_none _ htop)
      simp [TaskQueueEntry.peekNextTaskUnlocked, htop, hsize, TaskQueueEntry.flushLoop]
  | some top_task =>
      rw [size_pop htop, TaskQueueEntry.flushLoop, TaskQueueEntry.peekNextTaskUnlocked, htop]
      by_cases hdue : top_task.target_time_ > now
      · simp [hdue]
      · by_cases htype : type = .kSingle
        · simp [hdue, htype]
        · simp only [hdue, htype, if_false, TaskQueueEntry.rearmUnlocked_delayed_tasks]

/-- The methods as a machine of sections, each on the cell of its own queue. -/
def storeSections : Machine (QueueOp Closure) Int32 (Option (TaskQueueEntry Closure Q))
    (SectionControl Closure) where
  enter order_ op := (op.orderAfter order_, .start op order_)
  next := sectionStep
  finish := sectionRest
  finish_of_next cell control r hnext := by
    cases control with
    | returned result => cases cell <;> cases hnext
    | flushing type now invocations =>
        cases cell with
        | none =>
            cases hnext
            rfl
        | some e =>
            cases hnext
            exact sectionRest_round e type now invocations
    | rearming type now invocations | waking => cases cell <;> cases hnext <;> rfl
    | start op order =>
        cases cell with
        | none => cases op <;> cases hnext <;> rfl
        | some e =>
            cases op with
            | setWakeable =>
                obtain rfl := Option.some.inj hnext
                by_cases hset : e.wakeable.isSome = true
                · simp [TaskQueueEntry.begin, hset, sectionRest]
                · simp [TaskQueueEntry.begin, hset, sectionRest]
            | _ =>
                cases hnext
                rfl
  finish_of_none cell control hnext := by
    cases control with
    | returned result => cases cell <;> rfl
    | start op order => cases cell <;> cases op <;> cases hnext
    | _ => cases cell <;> cases hnext

end

/-! ## Whole methods -/

namespace MessageLoopTaskQueues

variable {Closure Q : Type} [DelayedTaskQueue Q Closure]

/-- A method on the queue behind an id: the store behind it, and what it returns. -/
def call (qs : MessageLoopTaskQueues Closure Q) (queue_id : TaskQueueId) :
    QueueOp Closure → Except Fault (MessageLoopTaskQueues Closure Q × CallResult Closure)
  | .dispose => do return (← qs.dispose queue_id, .done)
  | .disposeTasks => do return (← qs.disposeTasks queue_id, .done)
  | .registerTask task target_time => do
      return (← qs.registerTask queue_id task target_time, .done)
  | .hasPendingTask => do return (qs, .flag (← qs.hasPendingTask queue_id))
  | .getTasksToRunNow type now invocations => do
      let r ← qs.getTasksToRunNow queue_id type now invocations
      return (r.1, .closures r.2)
  | .getNumPendingTasks => do return (qs, .count (← qs.getNumPendingTasks queue_id))
  | .addTaskObserver key callback => do return (← qs.addTaskObserver queue_id key callback, .done)
  | .removeTaskObserver key => do return (← qs.removeTaskObserver queue_id key, .done)
  | .getObserversToNotify => do return (qs, .closures (← qs.getObserversToNotify queue_id))
  | .setWakeable => do return (← qs.setWakeable queue_id, .done)

/-- A method that may fail: then the entries are as before, and `RegisterTask` has used up a
number. -/
def callOrFail (qs : MessageLoopTaskQueues Closure Q) (queue_id : TaskQueueId)
    (op : QueueOp Closure) : MessageLoopTaskQueues Closure Q × Except Fault (CallResult Closure) :=
  match qs.call queue_id op with
  | .ok (qs', result) => (qs', .ok result)
  | .error fault => ({ qs with order_ := op.orderAfter qs.order_ }, .error fault)

/-- The methods one after the other. -/
def calls (qs : MessageLoopTaskQueues Closure Q) (ops : List (TaskQueueId × QueueOp Closure)) :
    MessageLoopTaskQueues Closure Q × List (Except Fault (CallResult Closure)) :=
  ops.foldl (fun r op => ((r.1.callOrFail op.1 op.2).1, r.2 ++ [(r.1.callOrFail op.1 op.2).2]))
    (qs, [])

/-- What the sections share. -/
def view (qs : MessageLoopTaskQueues Closure Q) :
    Store Int32 Int32 (Option (TaskQueueEntry Closure Q)) := ⟨qs.order_, qs.queue_entries_⟩

/-- A whole section is the method. -/
lemma section_call {qs : MessageLoopTaskQueues Closure Q} {queue_id : TaskQueueId}
    (hlock : qs.getMutex queue_id = .ok ()) (op : QueueOp Closure) :
    storeSections.call qs.view queue_id.toInt op
      = ((qs.callOrFail queue_id op).1.view, .returned (qs.callOrFail queue_id op).2) := by
  have hsection : storeSections.call qs.view queue_id.toInt op =
      (⟨op.orderAfter qs.order_, Function.update qs.queue_entries_ queue_id.toInt
        (sectionRest (qs.entry queue_id) (.start op qs.order_)).1⟩,
          (sectionRest (qs.entry queue_id) (.start op qs.order_)).2) := rfl
  rw [hsection]
  cases hentry : qs.entry queue_id with
  | none =>
      have hsame : Function.update qs.queue_entries_ queue_id.toInt none = qs.queue_entries_ := by
        rw [← hentry]
        exact Function.update_eq_self ..
      have hat : qs.entryAt queue_id = .error .outOfRange := by rw [entryAt, hentry]
      have href : ∀ order, { qs with order_ := order }.entryRef queue_id
          = .error .nullDereference := by
        intro order
        rw [entryRef, show entry { qs with order_ := order } queue_id = none from hentry]
      cases op with
      | _ =>
          simp only [callOrFail, call, dispose, disposeTasks, registerTask, hasPendingTask,
            getTasksToRunNow, getNumPendingTasks, addTaskObserver, removeTaskObserver,
            getObserversToNotify, setWakeable, hlock, hat, href, sectionRest, hsame]
          rfl
  | some e =>
      have hsame : Function.update qs.queue_entries_ queue_id.toInt (some e)
          = qs.queue_entries_ := by
        rw [← hentry]
        exact Function.update_eq_self ..
      have hat : qs.entryAt queue_id = .ok e := entryAt_eq_ok.mpr hentry
      have href : ∀ order, { qs with order_ := order }.entryRef queue_id = .ok e :=
        fun _ => entryRef_eq_ok.mpr hentry
      cases op with
      | setWakeable =>
          cases hset : e.wakeable with
          | some w =>
              have hfails : qs.setWakeable queue_id = .error .checkFailed := by
                have hbody : qs.setWakeable queue_id = (do
                    if e.wakeable.isSome then throw .checkFailed
                    return qs.setEntry queue_id { e with wakeable := some ⟨[]⟩ }) := by
                  rw [setWakeable, hlock, show qs.entryRef queue_id = .ok e from href qs.order_]
                  rfl
                rw [hbody, hset]
                rfl
              simp only [callOrFail, call, hfails, sectionRest, TaskQueueEntry.begin, hset,
                Option.isSome_some, if_true, hsame]
              rfl
          | none =>
              simp only [callOrFail, call, setWakeable_of_none hlock hentry hset, sectionRest,
                TaskQueueEntry.begin, hset]
              rfl
      | _ =>
          simp only [callOrFail, call, dispose, disposeTasks, registerTask, hasPendingTask,
            getTasksToRunNow, getNumPendingTasks, addTaskObserver, removeTaskObserver,
            getObserversToNotify, hlock, hat, href, sectionRest, TaskQueueEntry.begin, hsame]
          rfl

/-- What `call` leaves behind is what `perform` does. -/
lemma perform_of_call {qs qs' : MessageLoopTaskQueues Closure Q} {queue_id : TaskQueueId}
    {op : QueueOp Closure} {result : CallResult Closure}
    (h : qs.call queue_id op = .ok (qs', result)) : qs.perform queue_id op = .ok qs' := by
  cases op with
  | hasPendingTask | getTasksToRunNow | getNumPendingTasks | getObserversToNotify =>
      obtain ⟨_, hmethod, hresult⟩ := bind_eq_ok.mp h
      cases hresult
      exact bind_eq_ok.mpr ⟨_, hmethod, rfl⟩
  | _ =>
      obtain ⟨_, hmethod, hresult⟩ := bind_eq_ok.mp h
      cases hresult
      exact hmethod

lemma callOrFail_locks (qs : MessageLoopTaskQueues Closure Q) (queue_id : TaskQueueId)
    (op : QueueOp Closure) : (qs.callOrFail queue_id op).1.queue_locks_ = qs.queue_locks_ := by
  rw [callOrFail]
  split
  · next qs' result hcall =>
      rcases perform_cases (perform_of_call hcall) with rfl | ⟨e, order, rfl⟩ | ⟨_, rfl⟩ <;> rfl
  · rfl

lemma calls_concat (qs : MessageLoopTaskQueues Closure Q)
    (ops : List (TaskQueueId × QueueOp Closure)) (op : TaskQueueId × QueueOp Closure) :
    qs.calls (ops ++ [op]) = (((qs.calls ops).1.callOrFail op.1 op.2).1,
      (qs.calls ops).2 ++ [((qs.calls ops).1.callOrFail op.1 op.2).2]) := by
  rw [calls, List.foldl_append]
  rfl

lemma calls_locks (qs : MessageLoopTaskQueues Closure Q)
    (ops : List (TaskQueueId × QueueOp Closure)) :
    (qs.calls ops).1.queue_locks_ = qs.queue_locks_ := by
  induction ops using List.reverseRecOn with
  | nil => rfl
  | append_singleton ops op ih => rw [calls_concat, callOrFail_locks, ih]

/-- Some id with the key. -/
def idOf (key : Int32) : TaskQueueId := ⟨key.toUInt32.toUInt64⟩

lemma toInt_idOf (key : Int32) : (idOf key).toInt = key := by
  simp [idOf, TaskQueueId.toInt]

/-- Whole sections are the methods. -/
lemma serial_view (qs : MessageLoopTaskQueues Closure Q) {log : List (Int32 × QueueOp Closure)}
    (hlocks : ∀ call ∈ log, qs.queue_locks_ call.1 = true) :
    serial storeSections qs.view log =
      ((qs.calls (log.map fun call => (idOf call.1, call.2))).1.view,
        (qs.calls (log.map fun call => (idOf call.1, call.2))).2.map .returned) := by
  induction log using List.reverseRecOn with
  | nil => rfl
  | append_singleton log call ih =>
      have hlock : (qs.calls (log.map fun call => (idOf call.1, call.2))).1.getMutex (idOf call.1)
          = .ok () := by
        rw [getMutex, calls_locks, toInt_idOf]
        exact if_pos (hlocks call (List.mem_append_right _ (List.mem_singleton_self call)))
      have hsection := section_call hlock call.2
      rw [toInt_idOf] at hsection
      rw [serial_concat, ih fun call hcall => hlocks call (List.mem_append_left _ hcall), hsection,
        List.map_append, List.map_singleton, calls_concat, List.map_append, List.map_singleton]

/-- A method that neither inserts into `queue_entries_` nor erases: one of a queue that is in the
store, other than `Dispose`. -/
def KeepsKeys (qs : MessageLoopTaskQueues Closure Q) (key : Int32) (op : QueueOp Closure) : Prop :=
  (qs.queue_entries_ key).isSome ∧ op ≠ .dispose

lemma sectionStep_keeps {e : TaskQueueEntry Closure Q} {control : SectionControl Closure}
    {r : Option (TaskQueueEntry Closure Q) × SectionControl Closure}
    (hcontrol : ∀ order, control ≠ .start .dispose order)
    (hnext : sectionStep (some e) control = some r) :
    r.1.isSome ∧ ∀ order, r.2 ≠ .start .dispose order := by
  cases control with
  | returned result => cases hnext
  | waking | rearming type now invocations =>
      cases hnext
      exact ⟨rfl, fun order => by simp⟩
  | flushing type now invocations =>
      cases hnext
      refine ⟨rfl, fun order => ?_⟩
      simp only [TaskQueueEntry.round]
      repeat' split
      all_goals simp
  | start op order =>
      cases op with
      | dispose => exact absurd rfl (hcontrol order)
      | setWakeable =>
          obtain rfl := Option.some.inj hnext
          rw [TaskQueueEntry.begin]
          split <;> simp
      | _ =>
          cases hnext
          exact ⟨rfl, fun order => by simp [TaskQueueEntry.begin]⟩

/-- The steps of such methods leave every entry where it is. -/
lemma keys_of_run {Thread : Type} [DecidableEq Thread] (qs : MessageLoopTaskQueues Closure Q)
    {acts : List (Action Thread Int32 (QueueOp Closure))}
    {u : Sections Thread Int32 (QueueOp Closure) Int32 (Option (TaskQueueEntry Closure Q))
      (SectionControl Closure)}
    (hu : run (step storeSections) (created qs.view) acts = some u)
    (hkeeps : ∀ call ∈ u.log, qs.KeepsKeys call.1 call.2) (key : Int32) :
    (u.store.cells key).isSome = (qs.queue_entries_ key).isSome := by
  refine cells_of_run (A := qs.KeepsKeys)
    (C := fun key cell => cell.isSome = (qs.queue_entries_ key).isSome)
    (J := fun key control => (qs.queue_entries_ key).isSome ∧
      ∀ order, control ≠ .start .dispose order) ?_ ?_ (fun _ => rfl) hu hkeeps key
  · rintro key op word ⟨hkey, hop⟩
    refine ⟨hkey, fun order heq => ?_⟩
    cases heq
    exact hop rfl
  · rintro key cell control r hcell ⟨hkey, hcontrol⟩ hnext
    rw [hkey] at hcell
    obtain ⟨e, rfl⟩ := Option.isSome_iff_exists.mp hcell
    obtain ⟨hcell, hcontrol⟩ := sectionStep_keeps hcontrol hnext
    exact ⟨hcell.trans hkey.symm, hkey, hcontrol⟩

/-- **Atomic methods.**  Any threads call any methods of the store but `CreateTaskQueue` and
`Dispose`, on queues that are in it, and the steps of methods on different queues interleave.  Each
method returns what it does when the whole methods are called one after the other, in the order of
their accesses to `order_`; while no thread is inside a method, the store is what these calls leave;
and at any time it has the queues that it had. -/
theorem calls_atomic {Thread : Type} [DecidableEq Thread] (qs : MessageLoopTaskQueues Closure Q)
    {acts : List (Action Thread Int32 (QueueOp Closure))}
    {u : Sections Thread Int32 (QueueOp Closure) Int32 (Option (TaskQueueEntry Closure Q))
      (SectionControl Closure)}
    (hu : run (step storeSections) (created qs.view) acts = some u)
    (hlocks : ∀ call ∈ u.log, qs.queue_locks_ call.1 = true)
    (hkeeps : ∀ call ∈ u.log, qs.KeepsKeys call.1 call.2) :
    (∀ r ∈ u.returned, ∃ result, r.2 = .returned result ∧
        (qs.calls (u.log.map fun call => (idOf call.1, call.2))).2[r.1]? = some result) ∧
      ((∀ thread, (u.progress thread).lock = none) →
        (qs.calls (u.log.map fun call => (idOf call.1, call.2))).1.view = u.store) ∧
      ∀ key, (u.store.cells key).isSome = (qs.queue_entries_ key).isSome := by
  obtain ⟨hreturned, hstore⟩ := serial_of_run hu
  rw [serial_view qs hlocks] at hreturned hstore
  refine ⟨fun r hr => ?_, hstore, keys_of_run qs hu hkeeps⟩
  have hresult := hreturned r hr
  rw [List.getElem?_map, Option.map_eq_some_iff] at hresult
  obtain ⟨result, hget, heq⟩ := hresult
  exact ⟨result, heq.symm, hget⟩

/-- Two queues that have just been created. -/
def twoQueues : MessageLoopTaskQueues ℕ (SortedQueue (@DelayedTask.gt ℕ)) :=
  (new.createTaskQueue.2).createTaskQueue.2

/-- Two threads register a task each; the one that takes its lock last gets the first number. -/
def twoRegistrations : List (Action Bool Int32 (QueueOp ℕ)) :=
  [.acquire false 0 (.registerTask 10 ⟨5⟩), .acquire true 1 (.registerTask 20 ⟨5⟩), .enter true,
    .enter false, .advance false, .advance true, .advance false, .advance true, .release false,
    .release true]

theorem calls_atomic_twoRegistrations :
    ∃ u, run (step storeSections) (created twoQueues.view) twoRegistrations = some u ∧
      (∀ r ∈ u.returned, ∃ result, r.2 = .returned result ∧
        (twoQueues.calls (u.log.map fun call => (idOf call.1, call.2))).2[r.1]? = some result) ∧
      (twoQueues.calls (u.log.map fun call => (idOf call.1, call.2))).1.view = u.store ∧
      ∀ key, (u.store.cells key).isSome = (twoQueues.queue_entries_ key).isSome := by
  have hu : run (step storeSections) (created twoQueues.view) twoRegistrations = some _ := rfl
  have hkeeps : ∀ call ∈ [((1 : Int32), .registerTask 20 ⟨5⟩), (0, .registerTask 10 ⟨5⟩)],
      twoQueues.KeepsKeys call.1 call.2 := by
    rw [List.forall_mem_cons, List.forall_mem_singleton]
    exact ⟨⟨rfl, by simp⟩, rfl, by simp⟩
  obtain ⟨hreturned, hstore, hkeys⟩ := calls_atomic twoQueues hu (by decide) hkeeps
  exact ⟨_, hu, hreturned, hstore (by decide), hkeys⟩

end MessageLoopTaskQueues

end FFNetwork
