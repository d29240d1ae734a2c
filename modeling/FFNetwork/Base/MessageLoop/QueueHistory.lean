import FFNetwork.Base.MessageLoop.TaskQueues
import FFNetwork.Lib.StepSystem

/-!
# The history of one queue

What one queue of the store goes through: its own `RegisterTask`, `GetTasksToRunNow` and
`DisposeTasks` calls, and the registrations on other queues, which it notices only in the shared
counter `order_`.  Closures have no identity in the source; here a closure is named by the number
of its registration, counted over all queues from the start of the process.  The history also
keeps what the queue itself forgets: which tasks were registered on it, handed out, and discarded.

* `Accounted` — the invariant of every history; `accounted_run`.
* **`tasks_conserved`** — every task registered is handed out, discarded or pending, and no two of
  these; a flush hands out exactly what is due.

That the store does run such histories is shown in `StoreView`.
-/

namespace FFNetwork

open PriorityQueue

/-- A call on the store as one queue sees it. -/
inductive QueueCall
  | registerTask (target_time : TimePoint)
  | registerElsewhere
  | getTasksToRunNow (type : FlushType) (now : TimePoint)
  | disposeTasks
deriving Repr

/-- One queue, with the closures registered on it, handed out and discarded; a closure is named by
the number of its registration. -/
structure QueueHistory (Q : Type) where
  entry : TaskQueueEntry ℕ Q
  /-- The number of `RegisterTask` calls of the process so far. -/
  registrations : ℕ
  registered : List ℕ
  invocations : List ℕ
  discarded : Multiset ℕ

namespace QueueHistory

variable {Q : Type} [DelayedTaskQueue Q ℕ]

/-- A queue just created, with or without a `Wakeable`, after `n` registrations elsewhere. -/
def created (wakeable : Option Wakeable) (n : ℕ) : QueueHistory Q :=
  ⟨{ TaskQueueEntry.new with wakeable := wakeable }, n, [], [], 0⟩

/-- The closures that are pending. -/
def pendingTasks (h : QueueHistory Q) : Multiset ℕ := h.entry.pending.map DelayedTask.task_

/-- A call of the process on this queue, or a registration on another one. -/
def step (h : QueueHistory Q) : QueueCall → QueueHistory Q
  | .registerTask target_time =>
      { h with
        entry := h.entry.registerTask (Int32.ofNat h.registrations) h.registrations target_time
        registrations := h.registrations + 1
        registered := h.registered ++ [h.registrations] }
  | .registerElsewhere => { h with registrations := h.registrations + 1 }
  | .getTasksToRunNow type now =>
      let r := h.entry.getTasksToRunNow type now h.invocations
      { h with entry := r.1, invocations := r.2 }
  | .disposeTasks =>
      { h with
        entry := h.entry.disposeTasks
        discarded := h.discarded + h.pendingTasks }

/-- The calls one after the other. -/
def run (h : QueueHistory Q) (calls : List QueueCall) : QueueHistory Q := calls.foldl step h

/-! ## Nothing is lost, nothing is doubled -/

/-- The invariant of a history. -/
structure Accounted (h : QueueHistory Q) : Prop where
  conserved : (↑h.registered : Multiset ℕ) = ↑h.invocations + h.discarded + h.pendingTasks
  numbered : ∀ i ∈ h.registered, i < h.registrations
  nodup : h.registered.Nodup
  ordered : ∀ t ∈ h.entry.pending, t.order_ = DelayedTask.orderOf t.task_

lemma accounted_created (wakeable : Option Wakeable) (n : ℕ) :
    (created wakeable n : QueueHistory Q).Accounted where
  conserved := by
    show (0 : Multiset ℕ) = 0 + 0 + Multiset.map _ (TaskQueueEntry.new : TaskQueueEntry ℕ Q).pending
    rw [TaskQueueEntry.new_pending]
    rfl
  numbered := by simp [created]
  nodup := List.nodup_nil
  ordered t ht := by
    have ht : t ∈ (TaskQueueEntry.new : TaskQueueEntry ℕ Q).pending := ht
    rw [TaskQueueEntry.new_pending] at ht
    exact absurd ht (Multiset.notMem_zero t)

/-- A pending task was registered. -/
lemma Accounted.registered_of_pending {h : QueueHistory Q} (acc : h.Accounted)
    {t : DelayedTask ℕ} (ht : t ∈ h.entry.pending) : t.task_ ∈ h.registered := by
  rw [← Multiset.mem_coe, acc.conserved]
  exact Multiset.mem_add.mpr (Or.inr (Multiset.mem_map_of_mem _ ht))

/-- The pending tasks have pairwise different numbers. -/
lemma Accounted.pending_nodup {h : QueueHistory Q} (acc : h.Accounted) : h.pendingTasks.Nodup := by
  have hnodup := Multiset.coe_nodup.mpr acc.nodup
  rw [acc.conserved] at hnodup
  exact (Multiset.nodup_add.mp hnodup).2.1

theorem accounted_step {h : QueueHistory Q} (acc : h.Accounted) (c : QueueCall) :
    (h.step c).Accounted := by
  cases c with
  | registerTask target_time =>
      have hfresh : h.registrations ∉ h.registered := fun hmem =>
        absurd (acc.numbered _ hmem) (lt_irrefl _)
      refine ⟨?_, ?_, ?_, ?_⟩
      · simp only [step, pendingTasks, TaskQueueEntry.registerTask_pending, Multiset.map_cons]
        rw [← Multiset.coe_add, acc.conserved, Multiset.coe_singleton, Multiset.add_comm,
          Multiset.singleton_add, ← Multiset.add_cons]
        rfl
      · intro i hi
        rcases List.mem_append.mp hi with hi | hi
        · exact Nat.lt_succ_of_lt (acc.numbered i hi)
        · rw [List.mem_singleton.mp hi]; exact Nat.lt_succ_self _
      · exact acc.nodup.append (List.nodup_singleton _) (by simpa using hfresh)
      · intro t ht
        simp only [step, TaskQueueEntry.registerTask_pending, Multiset.mem_cons] at ht
        rcases ht with rfl | ht
        · rfl
        · exact acc.ordered t ht
  | registerElsewhere =>
      exact ⟨acc.conserved, fun i hi => Nat.lt_succ_of_lt (acc.numbered i hi), acc.nodup,
        acc.ordered⟩
  | getTasksToRunNow type now =>
      refine ⟨?_, acc.numbered, acc.nodup, fun t ht =>
        acc.ordered t (TaskQueueEntry.mem_of_mem_getTasksToRunNow ht)⟩
      have hmoved := h.entry.getTasksToRunNow_conserves type now h.invocations
      simp only [step, pendingTasks]
      rw [acc.conserved, add_right_comm, pendingTasks, ← hmoved, add_right_comm]
  | disposeTasks =>
      refine ⟨?_, acc.numbered, acc.nodup, fun t ht => ?_⟩
      · simp only [step, pendingTasks, TaskQueueEntry.disposeTasks_pending, Multiset.map_zero]
        rw [acc.conserved, Multiset.add_zero, Multiset.add_assoc]
        rfl
      · simp only [step, TaskQueueEntry.disposeTasks_pending] at ht
        exact absurd ht (Multiset.notMem_zero t)

theorem accounted_run {h : QueueHistory Q} (acc : h.Accounted) (calls : List QueueCall) :
    (h.run calls).Accounted := by
  induction calls generalizing h with
  | nil => exact acc
  | cons c calls ih => exact ih (accounted_step acc c)

/-- **Task conservation and due-set exactness.**  After any calls on a fresh queue, with any target
times and clock readings: the tasks registered, no two the same, are those handed out, those
discarded and those pending together; the two queries report the pending ones; and of the next
flush, into any `invocations`, `kAll` appends exactly the due tasks and leaves exactly the others,
while `kSingle` appends one due task with least target time and counter value, or changes nothing
if none is due. -/
theorem tasks_conserved (wakeable : Option Wakeable) (n : ℕ) (calls : List QueueCall)
    (now : TimePoint) (invocations : List ℕ) :
    let h := (created wakeable n : QueueHistory Q).run calls
    let all := h.entry.getTasksToRunNow .kAll now invocations
    let single := h.entry.getTasksToRunNow .kSingle now invocations
    (h.registered.Nodup ∧
      (↑h.registered : Multiset ℕ) = ↑h.invocations + h.discarded + h.pendingTasks) ∧
    (h.entry.getNumPendingTasks = Multiset.card h.pendingTasks ∧
      (h.entry.hasPendingTasksUnlocked = true ↔ h.pendingTasks ≠ 0)) ∧
    (∃ popped : List (DelayedTask ℕ),
      all.2 = invocations ++ popped.map DelayedTask.task_ ∧
      (↑popped : Multiset (DelayedTask ℕ))
        = h.entry.pending.filter (fun t => t.target_time_ ≤ now) ∧
      all.1.pending = h.entry.pending.filter (fun t => now < t.target_time_)) ∧
    ((∃ t ∈ h.entry.pending, t.target_time_ ≤ now ∧
        (∀ b ∈ h.entry.pending, t.target_time_ < b.target_time_ ∨
          (t.target_time_ = b.target_time_ ∧ t.order_ ≤ b.order_)) ∧
        single.2 = invocations ++ [t.task_] ∧
        h.entry.pending = t ::ₘ single.1.pending) ∨
      ((∀ t ∈ h.entry.pending, now < t.target_time_) ∧ single = (h.entry, invocations))) := by
  intro h all single
  have acc : h.Accounted := accounted_run (accounted_created wakeable n) calls
  refine ⟨⟨acc.nodup, acc.conserved⟩, ⟨?_, ?_⟩, ?_, ?_⟩
  · rw [pendingTasks, Multiset.card_map, TaskQueueEntry.getNumPendingTasks_eq]
  · rw [TaskQueueEntry.hasPendingTasksUnlocked_iff, pendingTasks, ne_eq, ne_eq,
      Multiset.map_eq_zero]
  · obtain ⟨popped, hinv, hpopped, hpending, _⟩ := h.entry.getTasksToRunNow_kAll now invocations
    exact ⟨popped, hinv, hpopped, hpending⟩
  · rcases h.entry.getTasksToRunNow_kSingle now invocations with
      ⟨t, ht, hdue, hfirst, hinv, hpending, _⟩ | hnone
    · exact Or.inl ⟨t, ht, hdue, fun b hb => DelayedTask.gt_eq_false_iff.mp (hfirst b hb), hinv,
        hpending⟩
    · exact Or.inr hnone

end QueueHistory

end FFNetwork
