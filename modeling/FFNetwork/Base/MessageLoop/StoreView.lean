import FFNetwork.Base.MessageLoop.QueueHistory

/-!
# A history is what the store does

`QueueHistory` speaks of one queue alone.  Here the calls go to the whole store, each with the id
of the queue it is for, and may fail.  A queue of the store and a history that agree once agree
after every call: a call for the queue is the corresponding step of the history, a registration on
another queue moves the shared counter, and any other call is not noticed.

* `Views` — the queue behind an id is the one the history describes.
* `created_views` — `CreateTaskQueue` and `SetWakeable` start a history.
* **`run_views`** — calls on the store are steps of the history.
-/

namespace FFNetwork

/-- A call on the store, with the queue it is for. -/
inductive StoreCall
  | registerTask (queue_id : TaskQueueId) (target_time : TimePoint)
  | getTasksToRunNow (queue_id : TaskQueueId) (type : FlushType) (now : TimePoint)
  | disposeTasks (queue_id : TaskQueueId)

/-- The store, with the number of registrations so far, which names the closures, and with what
each queue has handed out. -/
structure StoreHistory (Q : Type) where
  store : MessageLoopTaskQueues ℕ Q
  registrations : ℕ
  invocations : Int32 → List ℕ

/-- What the queue behind `queue_id` sees of a call. -/
def StoreCall.seenBy (queue_id : TaskQueueId) : StoreCall → List QueueCall
  | .registerTask id target_time =>
      if id.toInt = queue_id.toInt then [.registerTask target_time] else [.registerElsewhere]
  | .getTasksToRunNow id type now =>
      if id.toInt = queue_id.toInt then [.getTasksToRunNow type now] else []
  | .disposeTasks id => if id.toInt = queue_id.toInt then [.disposeTasks] else []

namespace StoreHistory

variable {Q : Type} [DelayedTaskQueue Q ℕ]

/-- A call on the store, which may fail. -/
def step (s : StoreHistory Q) : StoreCall → Except Fault (StoreHistory Q)
  | .registerTask id target_time => do
      let store ← s.store.registerTask id s.registrations target_time
      return { s with store := store, registrations := s.registrations + 1 }
  | .getTasksToRunNow id type now => do
      let r ← s.store.getTasksToRunNow id type now (s.invocations id.toInt)
      return { s with
        store := r.1
        invocations := Function.update s.invocations id.toInt r.2 }
  | .disposeTasks id => do
      let store ← s.store.disposeTasks id
      return { s with store := store }

/-- The calls one after the other, up to the first that fails. -/
def run : StoreHistory Q → List StoreCall → Except Fault (StoreHistory Q)
  | s, [] => .ok s
  | s, c :: calls => do run (← s.step c) calls

/-- The queue behind `queue_id` is the one that `h` describes. -/
structure Views (s : StoreHistory Q) (queue_id : TaskQueueId) (h : QueueHistory Q) : Prop where
  locked : s.store.getMutex queue_id = .ok ()
  entry : s.store.entry queue_id = some h.entry
  order : s.store.order_ = Int32.ofNat h.registrations
  registrations : s.registrations = h.registrations
  invocations : s.invocations queue_id.toInt = h.invocations

/-- `CreateTaskQueue` followed by `SetWakeable`, as in the constructor of a loop. -/
theorem created_views (qs : MessageLoopTaskQueues ℕ Q) (n : ℕ)
    (horder : qs.order_ = Int32.ofNat n) :
    ∃ qs', qs.createTaskQueue.2.setWakeable qs.createTaskQueue.1 = .ok qs' ∧
      (⟨qs', n, fun _ => []⟩ : StoreHistory Q).Views qs.createTaskQueue.1
        (.created (some ⟨[]⟩) n) := by
  have hlock : qs.createTaskQueue.2.getMutex qs.createTaskQueue.1 = .ok () :=
    if_pos (Function.update_self ..)
  have hentry : qs.createTaskQueue.2.entry qs.createTaskQueue.1 = some .new :=
    Function.update_self ..
  exact ⟨_, MessageLoopTaskQueues.setWakeable_of_none hlock hentry rfl, hlock,
    MessageLoopTaskQueues.setEntry_entry_self _ rfl _, horder, rfl, rfl⟩

variable {s s' : StoreHistory Q} {queue_id : TaskQueueId} {h : QueueHistory Q}

omit [DelayedTaskQueue Q ℕ] in
lemma Views.entry_unique (v : s.Views queue_id h) {id : TaskQueueId} {e : TaskQueueEntry ℕ Q}
    (he : s.store.entry id = some e) (hid : id.toInt = queue_id.toInt) : e = h.entry := by
  rw [MessageLoopTaskQueues.entry, hid] at he
  exact Option.some.inj (he.symm.trans v.entry)

/-- One call on the store is at most one step of the history. -/
theorem step_views (v : s.Views queue_id h) (c : StoreCall) (hs : s.step c = .ok s') :
    s'.Views queue_id (h.run (c.seenBy queue_id)) := by
  obtain ⟨hlock, hentry, horder, hreg, hinv⟩ := id v
  cases c with
  | registerTask id target_time =>
      obtain ⟨store, hstore, hs⟩ := MessageLoopTaskQueues.bind_eq_ok.mp hs
      obtain ⟨_, e, he, rfl⟩ := MessageLoopTaskQueues.registerTask_eq_ok.mp hstore
      cases hs
      have hnext : s.store.order_ + 1 = Int32.ofNat (h.registrations + 1) := by
        rw [horder, Int32.ofNat_add]
        rfl
      by_cases hid : id.toInt = queue_id.toInt
      · rw [StoreCall.seenBy, if_pos hid]
        obtain rfl := v.entry_unique he hid
        refine ⟨hlock, ?_, hnext, congrArg (· + 1) hreg, hinv⟩
        rw [MessageLoopTaskQueues.setEntry_entry_self _ hid, horder, hreg]
        rfl
      · rw [StoreCall.seenBy, if_neg hid]
        refine ⟨hlock, ?_, hnext, congrArg (· + 1) hreg, hinv⟩
        rw [MessageLoopTaskQueues.setEntry_entry_other _ hid]
        exact hentry
  | getTasksToRunNow id type now =>
      obtain ⟨r, hr, hs⟩ := MessageLoopTaskQueues.bind_eq_ok.mp hs
      obtain ⟨_, e, he, rfl⟩ := MessageLoopTaskQueues.getTasksToRunNow_eq_ok.mp hr
      cases hs
      by_cases hid : id.toInt = queue_id.toInt
      · rw [StoreCall.seenBy, if_pos hid]
        obtain rfl := v.entry_unique he hid
        refine ⟨hlock, ?_, horder, hreg, ?_⟩
        · rw [MessageLoopTaskQueues.setEntry_entry_self _ hid, hid, hinv]
          rfl
        · rw [hid, hinv]
          exact Function.update_self ..
      · rw [StoreCall.seenBy, if_neg hid]
        refine ⟨hlock, ?_, horder, hreg, ?_⟩
        · rw [MessageLoopTaskQueues.setEntry_entry_other _ hid]
          exact hentry
        · exact (Function.update_of_ne (Ne.symm hid) ..).trans hinv
  | disposeTasks id =>
      obtain ⟨store, hstore, hs⟩ := MessageLoopTaskQueues.bind_eq_ok.mp hs
      obtain ⟨_, e, he, rfl⟩ := MessageLoopTaskQueues.disposeTasks_eq_ok.mp hstore
      cases hs
      by_cases hid : id.toInt = queue_id.toInt
      · rw [StoreCall.seenBy, if_pos hid]
        obtain rfl := v.entry_unique he hid
        exact ⟨hlock, MessageLoopTaskQueues.setEntry_entry_self _ hid _, horder, hreg, hinv⟩
      · rw [StoreCall.seenBy, if_neg hid]
        refine ⟨hlock, ?_, horder, hreg, hinv⟩
        rw [MessageLoopTaskQueues.setEntry_entry_other _ hid]
        exact hentry

/-- **The store runs histories.**  After any calls on the store that go through, the queue is the
one that its history describes after the calls it has seen. -/
theorem run_views (v : s.Views queue_id h) (calls : List StoreCall)
    (hs : s.run calls = .ok s') :
    s'.Views queue_id (h.run (calls.flatMap (StoreCall.seenBy queue_id))) := by
  induction calls generalizing s h with
  | nil => cases hs; exact v
  | cons c calls ih =>
      obtain ⟨t, ht, hs⟩ := MessageLoopTaskQueues.bind_eq_ok.mp hs
      rw [List.flatMap_cons, QueueHistory.run, List.foldl_append]
      exact ih (step_views v c ht) hs

end StoreHistory

end FFNetwork
