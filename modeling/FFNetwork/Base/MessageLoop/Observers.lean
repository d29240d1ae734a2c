import FFNetwork.Base.MessageLoop.TaskQueues
import FFNetwork.Lib.OrderedMap
import FFNetwork.Lib.Rounds

/-!
# Tasks and the observers that see them

`MessageLoopImpl::FlushTasks` calls every observer after every task.  Tasks and observers are any
code: they post tasks, and add, replace or remove observers while the loop goes on.  What a closure
does is a parameter here, and the loop keeps a trace of all that happens.

* `registeredAfter` — the observers that are registered, read off the calls in the trace.
* `ObservedTrace` — behind each task stand exactly the observers that were registered when it
  finished, in the order of their keys.
* **`observers_see_every_task`** — every run of the loop leaves such a trace.
-/

namespace FFNetwork

open OrderedMap

/-! ## The trace -/

/-- A call that reaches the loop or its store: from a task, from an observer, or meanwhile from
another thread. -/
inductive LoopCall (Closure : Type)
  | postTask (task : Closure) (target_time : TimePoint)
  /-- A task is registered on another queue of the store. -/
  | registerElsewhere
  | addTaskObserver (key : Int64) (callback : Closure)
  | removeTaskObserver (key : Int64)
  | doTerminate

/-- What happens on the loop.  The entry of a closure is made when it returns, behind those of its
calls.  The source has no keys where it calls the observers; here they tell the entries apart. -/
inductive LoopEvent (Closure : Type)
  | call (c : LoopCall Closure)
  | task (invocation : Closure)
  | observer (key : Int64) (callback : Closure)

section Trace

variable {Closure : Type} {observers : Int64 → Option Closure} {trace : List (LoopEvent Closure)}
  {key : Int64} {callback : Closure}

namespace LoopEvent

/-- The task that the event is about. -/
def task? : LoopEvent Closure → Option Closure
  | .task invocation => some invocation
  | _ => none

/-- The observer that the event is about, with its key. -/
def observer? : LoopEvent Closure → Option (Int64 × Closure)
  | .observer key callback => some (key, callback)
  | _ => none

/-- What an event does to the map of observers. -/
def register (m : Int64 → Option Closure) : LoopEvent Closure → Int64 → Option Closure
  | .call (.addTaskObserver key callback) => Function.update m key (some callback)
  | .call (.removeTaskObserver key) => Function.update m key none
  | _ => m

end LoopEvent

/-- The tasks that have been executed. -/
def tasksOf (trace : List (LoopEvent Closure)) : List Closure :=
  trace.filterMap LoopEvent.task?

/-- The observers that have been called. -/
def observersOf (trace : List (LoopEvent Closure)) : List (Int64 × Closure) :=
  trace.filterMap LoopEvent.observer?

lemma tasksOf_append (trace more : List (LoopEvent Closure)) :
    tasksOf (trace ++ more) = tasksOf trace ++ tasksOf more :=
  List.filterMap_append

lemma observersOf_append (trace more : List (LoopEvent Closure)) :
    observersOf (trace ++ more) = observersOf trace ++ observersOf more :=
  List.filterMap_append

/-- The observers that are registered after the trace, if these were before it. -/
def registeredAfter (observers : Int64 → Option Closure) (trace : List (LoopEvent Closure)) :
    Int64 → Option Closure :=
  trace.foldl LoopEvent.register observers

/-- No observer is called before the first task.  Behind each task, and before the next one, are
called exactly the observers that were registered when the task finished, each once and in
ascending order of the keys. -/
def ObservedTrace (observers : Int64 → Option Closure) : List (LoopEvent Closure) → Prop :=
  Rounds (fun event => event.task?.isSome) (fun part => observersOf part = [])
    fun before _ part => Represents (observersOf part) (registeredAfter observers before)

/-- Whenever a task finishes, the observer is registered under the key. -/
def StaysRegistered (observers : Int64 → Option Closure) (trace : List (LoopEvent Closure))
    (key : Int64) (callback : Closure) : Prop :=
  ∀ before invocation, before ++ [.task invocation] <+: trace →
    registeredAfter observers before key = some callback

/-- An observer that stays registered is called once for each task. -/
lemma ObservedTrace.called (h : ObservedTrace observers trace)
    (hstays : StaysRegistered observers trace key callback) :
    (observersOf trace).filter (fun o => o.1 = key)
      = List.replicate (tasksOf trace).length (key, callback) := by
  rw [observersOf, tasksOf, List.filter_filterMap, List.length_filterMap_eq_countP]
  refine h.filterMap_eq_replicate (fun part hnone => ?_) (fun event htask => ?_)
    fun before event part hinit htask hpart => ?_
  · rw [← List.filter_filterMap]
    exact congrArg _ hnone
  · cases event with
    | task invocation => rfl
    | call c => cases htask
    | observer key callback => cases htask
  · cases event with
    | task invocation =>
        have hbefore : before ++ [.task invocation] <+: trace :=
          List.IsPrefix.trans ⟨part, by simp⟩ hinit
        rw [← List.filter_filterMap]
        exact hpart.filter_key (hstays before invocation hbefore)
    | call c => cases htask
    | observer key callback => cases htask

end Trace

/-! ## The loop -/

/-- A loop while it serves its queue: the entry of the queue, the counter of the store, the flag,
whatever else the closures can change, and the trace. -/
structure ObservedLoop (Closure Q Env : Type) where
  entry : TaskQueueEntry Closure Q
  order_ : Int32
  terminated_ : Bool
  env : Env
  trace : List (LoopEvent Closure)

/-- The observers with their keys. -/
def TaskQueueEntry.observersToNotify {Closure Q : Type} (e : TaskQueueEntry Closure Q) :
    List (Int64 × Closure) :=
  (e.task_observers.map Prod.fst).zip e.getObserversToNotify

namespace TaskQueueEntry

variable {Closure Q : Type}

/-- `std::map::operator[]` on the model's list. -/
lemma setObserver_eq (key : Int64) (callback : Closure) (l : List (Int64 × Closure)) :
    setObserver key callback l = OrderedMap.set key callback l := by
  induction l with
  | nil => rfl
  | cons first rest ih => rw [setObserver, OrderedMap.set, ih]

lemma observersToNotify_eq (e : TaskQueueEntry Closure Q) :
    e.observersToNotify = e.task_observers :=
  (List.zip_of_prod rfl rfl).symm

variable [DelayedTaskQueue Q Closure]

lemma registerTask_task_observers (e : TaskQueueEntry Closure Q) (order : Int32) (task : Closure)
    (target_time : TimePoint) :
    (e.registerTask order task target_time).task_observers = e.task_observers := by
  simp only [registerTask]
  split <;> rfl

lemma rearmUnlocked_task_observers (e : TaskQueueEntry Closure Q) :
    e.rearmUnlocked.task_observers = e.task_observers := by
  rw [rearmUnlocked]
  split <;> rfl

lemma flushLoop_task_observers (type : FlushType) (now : TimePoint) (n : ℕ)
    (e : TaskQueueEntry Closure Q) (invocations : List Closure) :
    (flushLoop type now n e invocations).1.task_observers = e.task_observers := by
  induction n generalizing e invocations with
  | zero => rfl
  | succ n ih =>
      rw [flushLoop]
      split
      · rfl
      · split
        · rfl
        · dsimp only
          split
          · rfl
          · exact (ih _ _).trans (rearmUnlocked_task_observers _)

end TaskQueueEntry

namespace ObservedLoop

variable {Closure Q Env : Type} [DelayedTaskQueue Q Closure]

/-- The event goes to the end of the trace. -/
def record (s : ObservedLoop Closure Q Env) (event : LoopEvent Closure) :
    ObservedLoop Closure Q Env :=
  { s with trace := s.trace ++ [event] }

/-- The calls of `MessageLoopImpl`; `PostTask` tests `terminated_`. -/
def call (s : ObservedLoop Closure Q Env) : LoopCall Closure → ObservedLoop Closure Q Env
  | .postTask task target_time =>
      if s.terminated_ then s
      else
        { s with
          entry := s.entry.registerTask s.order_ task target_time
          order_ := s.order_ + 1 }
  | .registerElsewhere => { s with order_ := s.order_ + 1 }
  | .addTaskObserver key callback => { s with entry := s.entry.addTaskObserver key callback }
  | .removeTaskObserver key => { s with entry := s.entry.removeTaskObserver key }
  | .doTerminate => { s with terminated_ := true }

/-- A call, with its entry in the trace. -/
def perform (s : ObservedLoop Closure Q Env) (c : LoopCall Closure) : ObservedLoop Closure Q Env :=
  (s.call c).record (.call c)

-- What a closure does: the calls that are made while it runs, and what it leaves behind.
variable (body : Closure → ObservedLoop Closure Q Env → List (LoopCall Closure) × Env)

/-- A closure runs from its start to its return. -/
def invoke (s : ObservedLoop Closure Q Env) (closure : Closure) : ObservedLoop Closure Q Env :=
  let r := body closure s
  { r.1.foldl perform s with env := r.2 }

/-- The inner loop of `FlushTasks`. -/
def notify (s : ObservedLoop Closure Q Env) :
    List (Int64 × Closure) → ObservedLoop Closure Q Env
  | [] => s
  | (key, observer) :: observers =>
      notify ((s.invoke body observer).record (.observer key observer)) observers

/-- The outer loop of `FlushTasks`. -/
def invokeAll (s : ObservedLoop Closure Q Env) : List Closure → ObservedLoop Closure Q Env
  | [] => s
  | invocation :: invocations =>
      let s := (s.invoke body invocation).record (.task invocation)
      let observers := s.entry.observersToNotify
      invokeAll (s.notify body observers) invocations

/-- `MessageLoopImpl::FlushTasks`, with the clock of `GetTasksToRunNow` at `now`. -/
def flushTasks (s : ObservedLoop Closure Q Env) (type : FlushType) (now : TimePoint) :
    ObservedLoop Closure Q Env :=
  let r := s.entry.getTasksToRunNow type now []
  invokeAll body { s with entry := r.1 } r.2

/-- A step of the loop's thread, or of another one between two flushes. -/
inductive Step (Closure : Type)
  | flushTasks (type : FlushType) (now : TimePoint)
  | call (c : LoopCall Closure)
  | disposeTasks

/-- A step, with the bodies of the closures that it runs. -/
def step (s : ObservedLoop Closure Q Env) : Step Closure → ObservedLoop Closure Q Env
  | .flushTasks type now => s.flushTasks body type now
  | .call c => s.perform c
  | .disposeTasks => { s with entry := s.entry.disposeTasks }

/-- The steps one after the other. -/
def run (s : ObservedLoop Closure Q Env) (steps : List (Step Closure)) :
    ObservedLoop Closure Q Env :=
  steps.foldl (step body) s

/-! ## What runs leave in the trace -/

variable {observers : Int64 → Option Closure} {s s' s'' : ObservedLoop Closure Q Env}

/-- The entry has the observers that the trace says. -/
def Tracks (observers : Int64 → Option Closure) (s : ObservedLoop Closure Q Env) : Prop :=
  Represents s.entry.task_observers (registeredAfter observers s.trace)

omit [DelayedTaskQueue Q Closure] in
lemma registeredAfter_record (event : LoopEvent Closure) :
    registeredAfter observers (s.record event).trace
      = event.register (registeredAfter observers s.trace) :=
  List.foldl_append ..

lemma call_trace (s : ObservedLoop Closure Q Env) (c : LoopCall Closure) :
    (s.call c).trace = s.trace := by
  cases c with
  | postTask task target_time =>
      rw [call]
      split <;> rfl
  | _ => rfl

lemma tracks_perform (h : s.Tracks observers) (c : LoopCall Closure) :
    (s.perform c).Tracks observers := by
  rw [Tracks, perform, registeredAfter_record, call_trace]
  cases c with
  | postTask task target_time =>
      by_cases hterminated : s.terminated_ = true
      · simp only [record, call, hterminated, if_true]
        exact h
      · simp only [record, call, hterminated, Bool.false_eq_true, if_false,
          TaskQueueEntry.registerTask_task_observers]
        exact h
  | registerElsewhere => exact h
  | addTaskObserver key callback =>
      simp only [record, call, TaskQueueEntry.addTaskObserver, TaskQueueEntry.setObserver_eq]
      exact represents_set h key callback
  | removeTaskObserver key => exact represents_erase h key
  | doTerminate => exact h

/-- From `s` the loop has come to `s'` without finishing a task, and has called these observers. -/
structure Reaches (s s' : ObservedLoop Closure Q Env) (called : List (Int64 × Closure)) : Prop where
  tracks : ∀ observers, s.Tracks observers → s'.Tracks observers
  trace : ∃ part, s'.trace = s.trace ++ part ∧ tasksOf part = [] ∧ observersOf part = called

omit [DelayedTaskQueue Q Closure] in
lemma reaches_refl (s : ObservedLoop Closure Q Env) : s.Reaches s [] :=
  ⟨fun _ h => h, [], (List.append_nil _).symm, rfl, rfl⟩

omit [DelayedTaskQueue Q Closure] in
lemma Reaches.trans {called called' : List (Int64 × Closure)} (h : s.Reaches s' called)
    (h' : s'.Reaches s'' called') : s.Reaches s'' (called ++ called') := by
  obtain ⟨part, htrace, htasks, hcalled⟩ := h.trace
  obtain ⟨part', htrace', htasks', hcalled'⟩ := h'.trace
  refine ⟨fun observers hs => h'.tracks observers (h.tracks observers hs), part ++ part', ?_, ?_,
    ?_⟩
  · rw [htrace', htrace, List.append_assoc]
  · rw [tasksOf_append, htasks, htasks', List.nil_append]
  · rw [observersOf_append, hcalled, hcalled']

omit [DelayedTaskQueue Q Closure] in
lemma Reaches.tasksOf {called : List (Int64 × Closure)} (h : s.Reaches s' called) :
    tasksOf s'.trace = tasksOf s.trace := by
  obtain ⟨part, htrace, htasks, _⟩ := h.trace
  rw [htrace, tasksOf_append, htasks, List.append_nil]

lemma reaches_perform (s : ObservedLoop Closure Q Env) (c : LoopCall Closure) :
    s.Reaches (s.perform c) [] := by
  refine ⟨fun _ h => tracks_perform h c, [.call c], ?_, rfl, rfl⟩
  rw [perform, record, call_trace]

lemma reaches_calls (s : ObservedLoop Closure Q Env) (calls : List (LoopCall Closure)) :
    s.Reaches (calls.foldl perform s) [] := by
  induction calls generalizing s with
  | nil => exact reaches_refl s
  | cons c calls ih => exact (reaches_perform s c).trans (ih _)

lemma reaches_invoke (s : ObservedLoop Closure Q Env) (closure : Closure) :
    s.Reaches (s.invoke body closure) [] :=
  ⟨(s.reaches_calls (body closure s).1).tracks, (s.reaches_calls (body closure s).1).trace⟩

omit [DelayedTaskQueue Q Closure] in
lemma reaches_observer (s : ObservedLoop Closure Q Env) (key : Int64) (callback : Closure) :
    s.Reaches (s.record (.observer key callback)) [(key, callback)] := by
  refine ⟨fun observers h => ?_, [.observer key callback], rfl, rfl, rfl⟩
  rw [Tracks, registeredAfter_record]
  exact h

/-- The inner loop calls the observers it was given, whatever they do to the map. -/
lemma reaches_notify (s : ObservedLoop Closure Q Env) (called : List (Int64 × Closure)) :
    s.Reaches (s.notify body called) called := by
  induction called generalizing s with
  | nil => exact reaches_refl s
  | cons first called ih =>
      obtain ⟨key, observer⟩ := first
      have hfirst := (s.reaches_invoke body observer).trans
        ((s.invoke body observer).reaches_observer key observer)
      exact hfirst.trans (ih _)

/-- The entry has the observers that the trace says, and the trace is as it should be. -/
structure Observed (observers : Int64 → Option Closure) (s : ObservedLoop Closure Q Env) :
    Prop where
  tracks : s.Tracks observers
  trace : ObservedTrace observers s.trace

omit [DelayedTaskQueue Q Closure] in
lemma quiet_of_tasksOf {part : List (LoopEvent Closure)} (h : tasksOf part = []) :
    ∀ event ∈ part, event.task?.isSome = false := by
  intro event hevent
  rw [List.filterMap_eq_nil_iff.mp h event hevent]
  rfl

omit [DelayedTaskQueue Q Closure] in
/-- Without a task and without an observer the loop stays in its round. -/
lemma Observed.of_reaches (hs : s.Observed observers) (h : s.Reaches s' []) :
    s'.Observed observers := by
  obtain ⟨part, htrace, htasks, hcalled⟩ := h.trace
  have hsame : ∀ part' : List (LoopEvent Closure),
      observersOf (part' ++ part) = observersOf part' := by
    intro part'
    rw [observersOf_append, hcalled, List.append_nil]
  refine ⟨h.tracks observers hs.tracks, ?_⟩
  rw [htrace]
  refine hs.trace.append (quiet_of_tasksOf htasks) (fun part' hnone => ?_)
    fun before _ part' hpart => ?_
  · rw [hsame]
    exact hnone
  · rw [hsame]
    exact hpart

/-- One round of the outer loop. -/
lemma observed_round (hs : s.Observed observers) (invocation : Closure) :
    let t := (s.invoke body invocation).record (.task invocation)
    (t.notify body t.entry.observersToNotify).Observed observers ∧
      tasksOf (t.notify body t.entry.observersToNotify).trace
        = tasksOf s.trace ++ [invocation] := by
  intro t
  have hdone := hs.of_reaches (s.reaches_invoke body invocation)
  have htracks : t.Tracks observers := by
    rw [Tracks, registeredAfter_record]
    exact hdone.tracks
  have hnotify := t.reaches_notify body t.entry.observersToNotify
  obtain ⟨part, htrace, htasks, hcalled⟩ := hnotify.trace
  refine ⟨⟨hnotify.tracks observers htracks, ?_⟩, ?_⟩
  · rw [htrace, show t.trace = (s.invoke body invocation).trace ++ [.task invocation] from rfl,
      List.append_assoc, List.singleton_append]
    refine Rounds.next hdone.trace rfl (quiet_of_tasksOf htasks) ?_
    rw [hcalled, TaskQueueEntry.observersToNotify_eq]
    exact hdone.tracks
  · rw [hnotify.tasksOf, ← (s.reaches_invoke body invocation).tasksOf]
    exact tasksOf_append ..

/-- The outer loop executes the batch in its order. -/
lemma observed_invokeAll (hs : s.Observed observers) (invocations : List Closure) :
    (s.invokeAll body invocations).Observed observers ∧
      tasksOf (s.invokeAll body invocations).trace = tasksOf s.trace ++ invocations := by
  induction invocations generalizing s with
  | nil => exact ⟨hs, (List.append_nil _).symm⟩
  | cons invocation invocations ih =>
      obtain ⟨hround, htask⟩ := observed_round body hs invocation
      obtain ⟨hrest, htasks⟩ := ih hround
      refine ⟨hrest, ?_⟩
      rw [invokeAll, htasks, htask, List.append_assoc, List.singleton_append]

lemma observed_flush (hs : s.Observed observers) (type : FlushType) (now : TimePoint) :
    (s.flushTasks body type now).Observed observers ∧
      tasksOf (s.flushTasks body type now).trace
        = tasksOf s.trace ++ (s.entry.getTasksToRunNow type now []).2 := by
  have hsame := TaskQueueEntry.flushLoop_task_observers type now
    (PriorityQueue.size s.entry.delayed_tasks) s.entry []
  have htaken : ObservedLoop.Observed observers
      { s with entry := (s.entry.getTasksToRunNow type now []).1 } := by
    refine ⟨?_, hs.trace⟩
    rw [Tracks, TaskQueueEntry.getTasksToRunNow, hsame]
    exact hs.tracks
  exact observed_invokeAll body htaken _

lemma observed_step (hs : s.Observed observers) (c : Step Closure) :
    (s.step body c).Observed observers := by
  cases c with
  | flushTasks type now => exact (observed_flush body hs type now).1
  | call c => exact hs.of_reaches (s.reaches_perform c)
  | disposeTasks => exact ⟨hs.tracks, hs.trace⟩

lemma observed_run (hs : s.Observed observers) (steps : List (Step Closure)) :
    (s.run body steps).Observed observers := by
  induction steps generalizing s with
  | nil => exact hs
  | cons c steps ih => exact ih (observed_step body hs c)

/-- **Observers see every task.**  Whatever tasks and observers do, and whatever the loop starts
with: after any run, each task in the trace is followed by exactly the observers that were
registered when it finished, each once and in ascending order of the keys; a flush executes the
batch that it gets, in the order of the batch; and an observer that stays registered has been called
as often as a task has been executed. -/
theorem observers_see_every_task {entry : TaskQueueEntry Closure Q}
    (hentry : Represents entry.task_observers observers) (order_ : Int32) (terminated_ : Bool)
    (env : Env) (steps : List (Step Closure)) :
    let s := run body ⟨entry, order_, terminated_, env, []⟩ steps
    ObservedTrace observers s.trace ∧
      (∀ type now, tasksOf (s.flushTasks body type now).trace
        = tasksOf s.trace ++ (s.entry.getTasksToRunNow type now []).2) ∧
      ∀ key callback, StaysRegistered observers s.trace key callback →
        (observersOf s.trace).filter (fun o => o.1 = key)
          = List.replicate (tasksOf s.trace).length (key, callback) := by
  intro s
  have hstart : (⟨entry, order_, terminated_, env, []⟩ : ObservedLoop Closure Q Env).Observed
      observers := ⟨hentry, Rounds.start (fun _ h => absurd h List.not_mem_nil) rfl⟩
  have hs := observed_run body hstart steps
  exact ⟨hs.trace, fun type now => (observed_flush body hs type now).2,
    fun key callback hstays => hs.trace.called hstays⟩

/-- A queue with one task and one observer: the flush executes the task and calls the observer. -/
theorem observer_called_once :
    let entry : TaskQueueEntry ℕ (SortedQueue (@DelayedTask.gt ℕ)) :=
      (TaskQueueEntry.new.registerTask 0 1 ⟨0⟩).addTaskObserver 7 8
    let s := run (fun _ _ => ([], ())) ⟨entry, 1, false, (), []⟩ [.flushTasks .kAll ⟨5⟩]
    (observersOf s.trace).filter (fun o => o.1 = 7) = [(7, 8)] := by
  intro entry s
  have hentry : Represents entry.task_observers
      (Function.update (fun _ => none) 7 (some 8)) := represents_set represents_nil 7 8
  refine (observers_see_every_task (fun _ _ => ([], ())) hentry 1 false ()
    [.flushTasks .kAll ⟨5⟩]).2.2 7 8 fun before invocation hinit => ?_
  obtain ⟨behind, htrace⟩ := hinit
  have htrace : before ++ [.task invocation] ++ behind = [.task 1, .observer 7 8] := htrace
  cases before with
  | nil => rfl
  | cons first before => cases before <;> simp at htrace

end ObservedLoop

end FFNetwork
