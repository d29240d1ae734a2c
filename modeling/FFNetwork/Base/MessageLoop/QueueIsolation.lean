import FFNetwork.Base.MessageLoop.TaskQueues
import FFNetwork.Lib.StepSystem

/-!
# One queue does not see another

All loops of a process share one store, and each has only its id to find its own queue.  The ids
are numbers of a 64-bit counter, but the two maps compare them as `int`.

A run here creates queues and makes any calls on them, in any order.  It remembers which ids
`CreateTaskQueue` has returned and which of them are not yet disposed.

* `frame_perform` — a call on one queue leaves every entry under another key alone.
* `Isolated` — what a step must do: new ids are told apart, by each other and from `_kUnmerged`,
  and the entries of the other queues stay as they are.
* **`everyStep_isolated_iff`** — the steps of a run are isolated exactly as long as each queue is
  created after fewer than `2 ^ 32 - 1` others.
-/

namespace FFNetwork

open StepSystem

/-! ## Keys -/

/-- `TaskQueueId::kUnmerged`, which is `ULONG_MAX`. -/
def TaskQueueId.kUnmerged : UInt64 := 18446744073709551615

/-- `_kUnmerged`. -/
def TaskQueueId.unmerged : TaskQueueId := ⟨TaskQueueId.kUnmerged⟩

/-- The id that the counter gives after `n` others. -/
def TaskQueueId.numbered (n : ℕ) : TaskQueueId := ⟨UInt64.ofNat n⟩

lemma TaskQueueId.numbered_toInt (n : ℕ) : (numbered n).toInt = Int32.ofNat n := by
  simp [numbered, toInt]

lemma TaskQueueId.unmerged_toInt : unmerged.toInt = (numbered (2 ^ 32 - 1)).toInt := by decide

/-- Below `2 ^ 32` the keys of different ids are different. -/
lemma TaskQueueId.numbered_toInt_inj {m n : ℕ} (hm : m < 2 ^ 32) (hn : n < 2 ^ 32) :
    (numbered m).toInt = (numbered n).toInt ↔ m = n := by
  rw [numbered_toInt, numbered_toInt]
  constructor
  · intro h
    have hmod : m % 2 ^ 32 = n % 2 ^ 32 := by
      simpa using congrArg (fun i => i.toUInt32.toNat) h
    rwa [Nat.mod_eq_of_lt hm, Nat.mod_eq_of_lt hn] at hmod
  · rintro rfl
    rfl

/-! ## Calls on one queue -/

/-- The methods of the store that are about one queue. -/
inductive QueueOp (Closure : Type)
  | dispose
  | disposeTasks
  | registerTask (task : Closure) (target_time : TimePoint)
  | hasPendingTask
  | getTasksToRunNow (type : FlushType) (now : TimePoint) (invocations : List Closure)
  | getNumPendingTasks
  | addTaskObserver (key : Int64) (callback : Closure)
  | removeTaskObserver (key : Int64)
  | getObserversToNotify
  | setWakeable

namespace MessageLoopTaskQueues

variable {Closure Q : Type} [DelayedTaskQueue Q Closure]

/-- The store after a call. -/
def perform (qs : MessageLoopTaskQueues Closure Q) (queue_id : TaskQueueId) :
    QueueOp Closure → Except Fault (MessageLoopTaskQueues Closure Q)
  | .dispose => qs.dispose queue_id
  | .disposeTasks => qs.disposeTasks queue_id
  | .registerTask task target_time => qs.registerTask queue_id task target_time
  | .hasPendingTask => do
      let _ ← qs.hasPendingTask queue_id
      return qs
  | .getTasksToRunNow type now invocations => do
      let r ← qs.getTasksToRunNow queue_id type now invocations
      return r.1
  | .getNumPendingTasks => do
      let _ ← qs.getNumPendingTasks queue_id
      return qs
  | .addTaskObserver key callback => qs.addTaskObserver queue_id key callback
  | .removeTaskObserver key => qs.removeTaskObserver queue_id key
  | .getObserversToNotify => do
      let _ ← qs.getObserversToNotify queue_id
      return qs
  | .setWakeable => qs.setWakeable queue_id

/-- What a call can do to the store: write one entry, erase it, or nothing.  Only `Dispose`
erases. -/
lemma perform_cases {qs qs' : MessageLoopTaskQueues Closure Q} {queue_id : TaskQueueId}
    {op : QueueOp Closure} (h : qs.perform queue_id op = .ok qs') :
    qs' = qs ∨ (∃ e order, qs' = { qs.setEntry queue_id e with order_ := order }) ∨
      (op = .dispose ∧ qs' =
        { qs with queue_entries_ := Function.update qs.queue_entries_ queue_id.toInt none }) := by
  cases op with
  | dispose =>
      obtain ⟨_, _, h⟩ := bind_eq_ok.mp h
      cases h
      exact Or.inr (Or.inr ⟨rfl, rfl⟩)
  | disposeTasks =>
      obtain ⟨_, e, _, rfl⟩ := disposeTasks_eq_ok.mp h
      exact Or.inr (Or.inl ⟨_, _, rfl⟩)
  | registerTask task target_time =>
      obtain ⟨_, e, _, rfl⟩ := registerTask_eq_ok.mp h
      exact Or.inr (Or.inl ⟨_, _, rfl⟩)
  | hasPendingTask =>
      obtain ⟨_, _, h⟩ := bind_eq_ok.mp h
      cases h
      exact Or.inl rfl
  | getTasksToRunNow type now invocations =>
      obtain ⟨r, hr, h⟩ := bind_eq_ok.mp h
      obtain ⟨_, e, _, rfl⟩ := getTasksToRunNow_eq_ok.mp hr
      cases h
      exact Or.inr (Or.inl ⟨_, _, rfl⟩)
  | getNumPendingTasks =>
      obtain ⟨_, _, h⟩ := bind_eq_ok.mp h
      cases h
      exact Or.inl rfl
  | addTaskObserver key callback =>
      obtain ⟨_, _, h⟩ := bind_eq_ok.mp h
      obtain ⟨_, _, h⟩ := bind_eq_ok.mp h
      cases h
      exact Or.inr (Or.inl ⟨_, _, rfl⟩)
  | removeTaskObserver key =>
      obtain ⟨_, _, h⟩ := bind_eq_ok.mp h
      obtain ⟨_, _, h⟩ := bind_eq_ok.mp h
      cases h
      exact Or.inr (Or.inl ⟨_, _, rfl⟩)
  | getObserversToNotify =>
      obtain ⟨_, _, h⟩ := bind_eq_ok.mp h
      cases h
      exact Or.inl rfl
  | setWakeable =>
      obtain ⟨_, _, h⟩ := bind_eq_ok.mp h
      obtain ⟨e, _, h⟩ := bind_eq_ok.mp h
      by_cases hset : e.wakeable.isSome = true
      · simp only [hset, if_true] at h
        cases h
      · simp only [hset] at h
        cases h
        exact Or.inr (Or.inl ⟨_, _, rfl⟩)

/-- **Frame.**  A call on one queue leaves every entry under another key alone. -/
theorem frame_perform {qs qs' : MessageLoopTaskQueues Closure Q} {queue_id : TaskQueueId}
    {op : QueueOp Closure} (h : qs.perform queue_id op = .ok qs') {q : TaskQueueId}
    (hq : q.toInt ≠ queue_id.toInt) : qs'.entry q = qs.entry q := by
  rcases perform_cases h with rfl | ⟨e, order, rfl⟩ | ⟨_, rfl⟩
  · rfl
  · exact setEntry_entry_other qs hq.symm e
  · exact Function.update_of_ne hq ..

lemma perform_counter {qs qs' : MessageLoopTaskQueues Closure Q} {queue_id : TaskQueueId}
    {op : QueueOp Closure} (h : qs.perform queue_id op = .ok qs') :
    qs'.task_queue_id_counter_ = qs.task_queue_id_counter_ := by
  rcases perform_cases h with rfl | ⟨e, order, rfl⟩ | ⟨_, rfl⟩ <;> rfl

/-- Only `Dispose` takes an entry away. -/
lemma perform_isSome {qs qs' : MessageLoopTaskQueues Closure Q} {queue_id : TaskQueueId}
    {op : QueueOp Closure} (h : qs.perform queue_id op = .ok qs') (hop : op ≠ .dispose)
    {q : TaskQueueId} (hq : (qs.entry q).isSome = true) : (qs'.entry q).isSome = true := by
  by_cases hkey : q.toInt = queue_id.toInt
  · rcases perform_cases h with rfl | ⟨e, order, rfl⟩ | ⟨hdispose, _⟩
    · exact hq
    · rw [show entry { qs.setEntry queue_id e with order_ := order } q = some e from
        setEntry_entry_self qs hkey.symm e]
      rfl
    · exact absurd hdispose hop
  · rw [frame_perform h hkey]
    exact hq

end MessageLoopTaskQueues

/-! ## Runs -/

/-- An operation on the store. -/
inductive StoreOp (Closure : Type)
  | createTaskQueue
  | on (queue_id : TaskQueueId) (op : QueueOp Closure)

/-- The queue an operation is about; a new one has no id before. -/
def StoreOp.target {Closure : Type} : StoreOp Closure → Option TaskQueueId
  | .createTaskQueue => none
  | .on queue_id _ => some queue_id

/-- The operation is `CreateTaskQueue`. -/
def StoreOp.isCreate {Closure : Type} : StoreOp Closure → Bool
  | .createTaskQueue => true
  | .on _ _ => false

/-- The store, with the ids that `CreateTaskQueue` has returned, in order, and those among them
that have not been disposed. -/
structure SharedStore (Closure Q : Type) where
  store : MessageLoopTaskQueues Closure Q
  created : List TaskQueueId
  live : List TaskQueueId

namespace SharedStore

variable {Closure Q : Type} [DelayedTaskQueue Q Closure]

/-- The store before the first queue. -/
def new : SharedStore Closure Q := ⟨.new, [], []⟩

/-- The ids that callers have are those that were returned to them.  A call that throws
`out_of_range` has changed nothing; after the other faults there is no next step. -/
def step (s : SharedStore Closure Q) : StoreOp Closure → Option (SharedStore Closure Q)
  | .createTaskQueue =>
      let r := s.store.createTaskQueue
      some ⟨r.2, s.created ++ [r.1], s.live ++ [r.1]⟩
  | .on queue_id op =>
      if s.created.contains queue_id then
        match s.store.perform queue_id op, op with
        | .ok store, .dispose => some ⟨store, s.created, s.live.filter (· ≠ queue_id)⟩
        | .ok store, _ => some ⟨store, s.created, s.live⟩
        | .error .outOfRange, _ => some s
        | .error .nullDereference, _ => none
        | .error .checkFailed, _ => none
      else none

/-- The ids are different keys, none of them is the key of `_kUnmerged`, and the live queues that
the operation is not about keep their entries. -/
structure Isolated (s : SharedStore Closure Q) (op : StoreOp Closure) (t : SharedStore Closure Q) :
    Prop where
  distinct : (t.created.map TaskQueueId.toInt).Nodup
  unmerged : ∀ id ∈ t.created, id.toInt ≠ TaskQueueId.unmerged.toInt
  others : ∀ id ∈ s.live, op.target ≠ some id →
    t.store.entry id = s.store.entry id ∧ (t.store.entry id).isSome = true

/-- The state as long as the ids have room: they are the numbers so far, and the live ones have
their entries. -/
structure Roomy (s : SharedStore Closure Q) : Prop where
  counter : s.store.task_queue_id_counter_ = UInt64.ofNat s.created.length
  created : s.created = (List.range s.created.length).map TaskQueueId.numbered
  few : s.created.length < 2 ^ 32
  live : ∀ id ∈ s.live, id ∈ s.created ∧ (s.store.entry id).isSome = true

/-- A queue is created after fewer than `2 ^ 32 - 1` others. -/
def HasRoom (s : SharedStore Closure Q) (op : StoreOp Closure) (_ : SharedStore Closure Q) : Prop :=
  op.isCreate = true → s.created.length < 2 ^ 32 - 1

omit [DelayedTaskQueue Q Closure] in
lemma new_roomy : (new : SharedStore Closure Q).Roomy :=
  ⟨rfl, rfl, by simp [new], by simp [new]⟩

/-! ## One step -/

/-- What a call on one queue does to the run's state: it goes through and changes the store, or it
throws and changes nothing. -/
lemma step_on {s t : SharedStore Closure Q} {queue_id : TaskQueueId} {op : QueueOp Closure}
    (h : s.step (.on queue_id op) = some t) :
    queue_id ∈ s.created ∧ t.created = s.created ∧
      (t = s ∨ (s.store.perform queue_id op = .ok t.store ∧
        (op = .dispose ∧ t.live = s.live.filter (· ≠ queue_id) ∨
          op ≠ .dispose ∧ t.live = s.live))) := by
  simp only [step] at h
  split at h
  case isFalse => cases h
  case isTrue hmem =>
    refine ⟨by simpa using hmem, ?_⟩
    cases hstore : s.store.perform queue_id op with
    | ok store =>
        rw [hstore] at h
        cases op <;> cases h <;> simp
    | error fault =>
        rw [hstore] at h
        cases fault <;> cases h
        exact ⟨rfl, Or.inl rfl⟩

omit [DelayedTaskQueue Q Closure] in
lemma Roomy.exists_of_mem {s : SharedStore Closure Q} (hs : s.Roomy) {id : TaskQueueId}
    (hid : id ∈ s.created) : ∃ n < s.created.length, id = TaskQueueId.numbered n := by
  rw [hs.created, List.mem_map] at hid
  obtain ⟨n, hn, rfl⟩ := hid
  exact ⟨n, List.mem_range.mp hn, rfl⟩

omit [DelayedTaskQueue Q Closure] in
/-- Ids of the run with one key are one id. -/
lemma Roomy.toInt_inj {s : SharedStore Closure Q} (hs : s.Roomy) {id id' : TaskQueueId}
    (hid : id ∈ s.created) (hid' : id' ∈ s.created) (h : id.toInt = id'.toInt) : id = id' := by
  obtain ⟨m, hm, rfl⟩ := hs.exists_of_mem hid
  obtain ⟨n, hn, rfl⟩ := hs.exists_of_mem hid'
  rw [TaskQueueId.numbered_toInt_inj (hm.trans hs.few) (hn.trans hs.few)] at h
  rw [h]

omit [DelayedTaskQueue Q Closure] in
lemma Roomy.distinct {s : SharedStore Closure Q} (hs : s.Roomy) :
    (s.created.map TaskQueueId.toInt).Nodup := by
  refine List.Nodup.map_on (fun id hid id' hid' h => hs.toInt_inj hid hid' h) ?_
  rw [hs.created]
  refine List.nodup_range.map_on fun m hm n hn h => ?_
  rw [List.mem_range] at hm hn
  exact (TaskQueueId.numbered_toInt_inj (hm.trans hs.few) (hn.trans hs.few)).mp
    (congrArg TaskQueueId.toInt h)

omit [DelayedTaskQueue Q Closure] in
/-- The key of `_kUnmerged` is the one that the last of `2 ^ 32` ids gets. -/
lemma Roomy.unmerged {s : SharedStore Closure Q} (hs : s.Roomy)
    (hfew : s.created.length ≤ 2 ^ 32 - 1) :
    ∀ id ∈ s.created, id.toInt ≠ TaskQueueId.unmerged.toInt := by
  intro id hid h
  obtain ⟨n, hn, rfl⟩ := hs.exists_of_mem hid
  rw [TaskQueueId.unmerged_toInt,
    TaskQueueId.numbered_toInt_inj (hn.trans hs.few) (by decide)] at h
  omega

lemma createTaskQueue_id {s : SharedStore Closure Q} (hs : s.Roomy) :
    s.store.createTaskQueue.1 = TaskQueueId.numbered s.created.length :=
  congrArg TaskQueueId.mk hs.counter

/-- Creating a queue under a number that has room. -/
lemma step_create {s : SharedStore Closure Q} (hs : s.Roomy)
    (hroom : s.created.length < 2 ^ 32 - 1) {t : SharedStore Closure Q}
    (h : s.step .createTaskQueue = some t) : t.Roomy ∧ s.Isolated .createTaskQueue t := by
  have hlength : t.created.length = s.created.length + 1 := by
    cases h
    simp
  have hcreated : t.created = s.created ++ [TaskQueueId.numbered s.created.length] := by
    cases h
    simp [createTaskQueue_id hs]
  have hlive : t.live = s.live ++ [TaskQueueId.numbered s.created.length] := by
    cases h
    simp [createTaskQueue_id hs]
  -- an old id has another key, and the new one gets an entry of its own
  have hold : ∀ id ∈ s.created, t.store.entry id = s.store.entry id := by
    intro id hid
    obtain ⟨n, hn, rfl⟩ := hs.exists_of_mem hid
    have hkey : (TaskQueueId.numbered n).toInt ≠ s.store.createTaskQueue.1.toInt := by
      rw [createTaskQueue_id hs, ne_eq, TaskQueueId.numbered_toInt_inj (by omega) (by omega)]
      omega
    cases h
    exact Function.update_of_ne hkey ..
  have hnew : (t.store.entry (TaskQueueId.numbered s.created.length)).isSome = true := by
    rw [← createTaskQueue_id hs]
    cases h
    rw [show s.store.createTaskQueue.2.entry s.store.createTaskQueue.1 = some .new from
      Function.update_self ..]
    rfl
  have ht : t.Roomy := by
    refine ⟨?_, ?_, by omega, ?_⟩
    · rw [hlength, UInt64.ofNat_add, ← hs.counter]
      cases h
      rfl
    · rw [hlength, List.range_succ, List.map_append, ← hs.created, hcreated]
      rfl
    · intro id hid
      rw [hlive, List.mem_append, List.mem_singleton] at hid
      rw [hcreated, List.mem_append, List.mem_singleton]
      rcases hid with hid | rfl
      · rw [hold id (hs.live id hid).1]
        exact ⟨Or.inl (hs.live id hid).1, (hs.live id hid).2⟩
      · exact ⟨Or.inr rfl, hnew⟩
  refine ⟨ht, ht.distinct, ht.unmerged (by omega), fun id hid _ => ?_⟩
  rw [hold id (hs.live id hid).1]
  exact ⟨rfl, (hs.live id hid).2⟩

/-- A call on one queue, as long as the ids have room. -/
lemma step_on_isolated {s t : SharedStore Closure Q} (hs : s.Roomy)
    (hfew : s.created.length ≤ 2 ^ 32 - 1) {queue_id : TaskQueueId} {op : QueueOp Closure}
    (h : s.step (.on queue_id op) = some t) : t.Roomy ∧ s.Isolated (.on queue_id op) t := by
  obtain ⟨hmem, hcreated, rfl | ⟨hstore, hlive⟩⟩ := step_on h
  · exact ⟨hs, hs.distinct, hs.unmerged hfew, fun id hid _ => ⟨rfl, (hs.live id hid).2⟩⟩
  · have hframe : ∀ id ∈ s.live, id ≠ queue_id → t.store.entry id = s.store.entry id := by
      intro id hid hne
      refine MessageLoopTaskQueues.frame_perform hstore fun hkey => hne ?_
      exact hs.toInt_inj (hs.live id hid).1 hmem hkey
    have ht : t.Roomy := by
      refine ⟨?_, ?_, ?_, ?_⟩
      · rw [hcreated, MessageLoopTaskQueues.perform_counter hstore, hs.counter]
      · rw [hcreated]
        exact hs.created
      · rw [hcreated]
        exact hs.few
      · intro id hid
        rw [hcreated]
        rcases hlive with ⟨_, hlive⟩ | ⟨hop, hlive⟩
        · rw [hlive, List.mem_filter, decide_eq_true_iff] at hid
          rw [hframe id hid.1 hid.2]
          exact hs.live id hid.1
        · rw [hlive] at hid
          exact ⟨(hs.live id hid).1,
            MessageLoopTaskQueues.perform_isSome hstore hop (hs.live id hid).2⟩
    refine ⟨ht, ht.distinct, ht.unmerged (by rwa [hcreated]), fun id hid hne => ?_⟩
    rw [hframe id hid fun heq => hne (congrArg some heq.symm)]
    exact ⟨rfl, (hs.live id hid).2⟩

/-- The id that takes the last room has the key of `_kUnmerged`. -/
lemma hasRoom_of_isolated {s t : SharedStore Closure Q} (hs : s.Roomy) {op : StoreOp Closure}
    (h : s.step op = some t) (hiso : s.Isolated op t) : s.HasRoom op t := by
  intro hop
  cases op with
  | on queue_id op => cases hop
  | createTaskQueue =>
      have hmem : TaskQueueId.numbered s.created.length ∈ t.created := by
        cases h
        simp [createTaskQueue_id hs]
      have hkey := hiso.unmerged _ hmem
      rw [TaskQueueId.unmerged_toInt, ne_eq,
        TaskQueueId.numbered_toInt_inj hs.few (by decide)] at hkey
      have hfew := hs.few
      omega

/-! ## Whole runs -/

lemma length_created {s t : SharedStore Closure Q} {op : StoreOp Closure}
    (h : s.step op = some t) :
    t.created.length = s.created.length + if op.isCreate = true then 1 else 0 := by
  cases op with
  | createTaskQueue =>
      cases h
      simp [StoreOp.isCreate]
  | on queue_id op =>
      rw [(step_on h).2.1]
      rfl

/-- **The queues are isolated as long as the ids have room.** -/
theorem everyStep_isolated_iff (ops : List (StoreOp Closure)) :
    EveryStep step Isolated (new : SharedStore Closure Q) ops ↔
      EveryStep step HasRoom (new : SharedStore Closure Q) ops := by
  refine everyStep_iff (I := fun s => s.Roomy ∧ s.created.length ≤ 2 ^ 32 - 1) ?_ ?_
    ⟨new_roomy, by simp [new]⟩
  · rintro s op t ⟨hs, hfew⟩ h hroom
    cases op with
    | createTaskQueue =>
        obtain ⟨ht, hiso⟩ := step_create hs (hroom rfl) h
        have hlength := length_created h
        have hlt := hroom rfl
        rw [StoreOp.isCreate, if_pos rfl] at hlength
        exact ⟨⟨ht, by omega⟩, hiso⟩
    | on queue_id op =>
        obtain ⟨ht, hiso⟩ := step_on_isolated hs hfew h
        exact ⟨⟨ht, by rwa [(step_on h).2.1]⟩, hiso⟩
  · rintro s op t ⟨hs, _⟩ h hiso
    exact hasRoom_of_isolated hs h hiso

/-- The ids have room throughout a run that creates few enough queues. -/
lemma everyStep_hasRoom_iff {ops : List (StoreOp Closure)} {s u : SharedStore Closure Q}
    (hs : s.created.length ≤ 2 ^ 32 - 1) (hu : run step s ops = some u) :
    EveryStep step HasRoom s ops ↔
      s.created.length + ops.countP StoreOp.isCreate ≤ 2 ^ 32 - 1 := by
  induction ops generalizing s with
  | nil => simpa using hs
  | cons op ops ih =>
      obtain ⟨t, ht, hu⟩ := run_cons_eq_some.mp hu
      have hlength := length_created ht
      rw [everyStep_cons, List.countP_cons]
      constructor
      · intro h
        obtain ⟨hroom, hrest⟩ := h t ht
        have hle : t.created.length ≤ 2 ^ 32 - 1 := by
          rw [hlength]
          split
          · next hop => exact hroom hop
          · exact hs
        have hcount := (ih hle hu).mp hrest
        rw [hlength] at hcount
        omega
      · intro hcount t' ht'
        obtain rfl := Option.some.inj (ht.symm.trans ht')
        refine ⟨fun hop => ?_, (ih (by omega) hu).mpr (by omega)⟩
        rw [if_pos hop] at hcount
        omega

/-- **Isolation, by the number of queues.**  Every step of a run of the process is isolated exactly
when the run creates at most `2 ^ 32 - 1` queues. -/
theorem isolated_iff_countP {ops : List (StoreOp Closure)} {u : SharedStore Closure Q}
    (hu : run step new ops = some u) :
    EveryStep step Isolated (new : SharedStore Closure Q) ops ↔
      ops.countP StoreOp.isCreate ≤ 2 ^ 32 - 1 := by
  rw [everyStep_isolated_iff, everyStep_hasRoom_iff (by simp [new]) hu]
  simp [new]

/-- Two queues, a task on the first, the second disposed. -/
theorem isolated_two :
    EveryStep step Isolated (new : SharedStore ℕ (SortedQueue (@DelayedTask.gt ℕ)))
      [.createTaskQueue, .createTaskQueue, .on (TaskQueueId.numbered 0) (.registerTask 7 ⟨5⟩),
        .on (TaskQueueId.numbered 1) .dispose] := by
  obtain ⟨u, hu⟩ := Option.isSome_iff_exists.mp
    (rfl : (run step (new : SharedStore ℕ (SortedQueue (@DelayedTask.gt ℕ)))
      [.createTaskQueue, .createTaskQueue, .on (TaskQueueId.numbered 0) (.registerTask 7 ⟨5⟩),
        .on (TaskQueueId.numbered 1) .dispose]).isSome = true)
  exact (isolated_iff_countP hu).mpr (by decide)

lemma run_replicate (n : ℕ) (s : SharedStore Closure Q) :
    ∃ u, run step s (List.replicate n .createTaskQueue) = some u := by
  induction n generalizing s with
  | zero => exact ⟨s, rfl⟩
  | succ n ih => exact ih _

/-- With `2 ^ 32` queues the last id compares equal to `_kUnmerged`. -/
theorem not_isolated_replicate :
    ¬ ∀ ops : List (StoreOp ℕ), EveryStep step Isolated
      (new : SharedStore ℕ (SortedQueue (@DelayedTask.gt ℕ))) ops := by
  intro hall
  obtain ⟨u, hu⟩ := run_replicate (2 ^ 32)
    (new : SharedStore ℕ (SortedQueue (@DelayedTask.gt ℕ)))
  have hroom := (everyStep_isolated_iff _).mp (hall (List.replicate (2 ^ 32) .createTaskQueue))
  rw [everyStep_hasRoom_iff (by simp [new]) hu, List.countP_replicate] at hroom
  simp [new, StoreOp.isCreate] at hroom

end SharedStore

end FFNetwork
