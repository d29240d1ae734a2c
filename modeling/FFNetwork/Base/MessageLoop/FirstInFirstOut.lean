import FFNetwork.Base.MessageLoop.LoopImpl
import Mathlib.Data.Multiset.Sort

/-!
# When a loop is a first-in-first-out queue

The tasks of a loop come out by target time.  As long as whoever registers a task brings a target
time that is no earlier than those of the pending tasks, that is the order of registration; and as
long as no slice ends with a task pending, all of them come out.

* `NotOvertaken` — the calls on a queue that keep it so.
* `FirstInFirstOut` — the invariant; `firstInFirstOut_step`.
* **`LoopImpl.first_in_first_out`** — what a loop has executed, and what is in the batch under way,
  are the first of the registered tasks.
-/

namespace FFNetwork

open PriorityQueue StepSystem

namespace QueueHistory

variable {Q : Type} [DelayedTaskQueue Q ℕ] {h : QueueHistory Q}

/-- Nothing goes past a pending task: what is registered comes after it, and `DisposeTasks` finds
none. -/
def NotOvertaken (h : QueueHistory Q) : QueueCall → Prop
  | .registerTask target_time => ∀ x ∈ h.entry.pending,
      DelayedTask.gt ⟨DelayedTask.orderOf h.registrations, h.registrations, target_time⟩ x = true
  | .disposeTasks => h.pendingTasks = 0
  | _ => True

instance (h : QueueHistory Q) : ∀ c, Decidable (h.NotOvertaken c)
  | .registerTask target_time => inferInstanceAs (Decidable (∀ x ∈ h.entry.pending,
      DelayedTask.gt ⟨DelayedTask.orderOf h.registrations, h.registrations, target_time⟩ x = true))
  | .disposeTasks => inferInstanceAs (Decidable (h.pendingTasks = 0))
  | .registerElsewhere | .getTasksToRunNow _ _ => inferInstanceAs (Decidable True)

/-- The tasks come out in the order of their registration. -/
structure FirstInFirstOut (h : QueueHistory Q) : Prop where
  accounted : h.Accounted
  kept : h.discarded = 0
  registered : h.registered.Pairwise (· < ·)
  invocations : h.invocations.Pairwise (· < ·)
  pending : ∀ x ∈ h.entry.pending, ∀ y ∈ h.entry.pending, x.task_ < y.task_ → y.gt x = true
  ahead : ∀ i ∈ h.invocations, ∀ x ∈ h.entry.pending, i < x.task_

lemma firstInFirstOut_created (wakeable : Option Wakeable) (n : ℕ) :
    (created wakeable n : QueueHistory Q).FirstInFirstOut where
  accounted := accounted_created wakeable n
  kept := rfl
  registered := List.Pairwise.nil
  invocations := List.Pairwise.nil
  pending x hx := by
    rw [show (created wakeable n : QueueHistory Q).entry.pending = 0 from
      TaskQueueEntry.new_pending] at hx
    exact absurd hx (Multiset.notMem_zero x)
  ahead _ hi := nomatch hi

/-- Of two pending tasks the one that does not come after the other was registered first. -/
lemma FirstInFirstOut.lt_of_gt_eq_false (hs : h.FirstInFirstOut) {x y : DelayedTask ℕ}
    (hx : x ∈ h.entry.pending) (hy : y ∈ h.entry.pending) (hne : x.task_ ≠ y.task_)
    (hgt : x.gt y = false) : x.task_ < y.task_ := by
  rcases lt_or_gt_of_ne hne with hlt | hlt
  · exact hlt
  · rw [hs.pending y hy x hx hlt] at hgt
    cases hgt

/-- A flush takes the tasks that were registered first, in that order. -/
lemma FirstInFirstOut.flush (hs : h.FirstInFirstOut) (type : FlushType) (now : TimePoint) :
    (h.step (.getTasksToRunNow type now)).FirstInFirstOut := by
  rcases h.entry.getTasksToRunNow_popped respects_comp type now h.invocations with
    ⟨popped, hinv, hpending, hsorted, hleft⟩
  have hnodup := hs.accounted.pending_nodup
  rw [pendingTasks, hpending, Multiset.map_add, Multiset.nodup_add, Multiset.map_coe,
    Multiset.coe_nodup, List.Nodup, List.pairwise_map] at hnodup
  rcases hnodup with ⟨hpopped, _, hdisjoint⟩
  have hmem : ∀ x ∈ popped, x ∈ h.entry.pending := fun x hx => by
    rw [hpending]
    exact Multiset.mem_add.mpr (Or.inl (Multiset.mem_coe.mpr hx))
  have hrest : ∀ x ∈ (h.entry.getTasksToRunNow type now h.invocations).1.pending,
      x ∈ h.entry.pending := fun x hx => TaskQueueEntry.mem_of_mem_getTasksToRunNow hx
  refine ⟨accounted_step hs.accounted _, hs.kept, hs.registered, ?_,
    fun x hx y hy => hs.pending x (hrest x hx) y (hrest y hy), fun i hi x hx => ?_⟩
  · show (h.entry.getTasksToRunNow type now h.invocations).2.Pairwise (· < ·)
    rw [hinv, List.pairwise_append, List.pairwise_map]
    refine ⟨hs.invocations, ?_, fun i hi j hj => ?_⟩
    · refine (hsorted.and hpopped).imp_of_mem fun hx hy hxy => ?_
      exact hs.lt_of_gt_eq_false (hmem _ hx) (hmem _ hy) hxy.2 hxy.1
    · rcases List.mem_map.mp hj with ⟨x, hx, rfl⟩
      exact hs.ahead i hi x (hmem x hx)
  · have hi : i ∈ (h.entry.getTasksToRunNow type now h.invocations).2 := hi
    rw [hinv] at hi
    rcases List.mem_append.mp hi with hi | hi
    · exact hs.ahead i hi x (hrest x hx)
    · rcases List.mem_map.mp hi with ⟨y, hy, rfl⟩
      refine hs.lt_of_gt_eq_false (hmem y hy) (hrest x hx) (fun heq => ?_) (hleft y hy x hx)
      exact Multiset.disjoint_left.mp hdisjoint (Multiset.mem_coe.mpr (List.mem_map_of_mem hy))
        (heq ▸ Multiset.mem_map_of_mem _ hx)

/-- A task that is not overtaking is the last one. -/
lemma FirstInFirstOut.registerTask (hs : h.FirstInFirstOut) {target_time : TimePoint}
    (hlast : h.NotOvertaken (.registerTask target_time)) :
    (h.step (.registerTask target_time)).FirstInFirstOut := by
  have hpending : (h.step (.registerTask target_time)).entry.pending
      = ⟨DelayedTask.orderOf h.registrations, h.registrations, target_time⟩ ::ₘ h.entry.pending :=
    TaskQueueEntry.registerTask_pending ..
  have hold : ∀ x ∈ h.entry.pending, x.task_ < h.registrations := fun x hx =>
    hs.accounted.numbered _ (hs.accounted.registered_of_pending hx)
  refine ⟨accounted_step hs.accounted _, hs.kept, ?_, hs.invocations, fun x hx y hy hlt => ?_,
    fun i hi x hx => ?_⟩
  · refine List.pairwise_append.mpr ⟨hs.registered, List.pairwise_singleton _ _, ?_⟩
    intro i hi j hj
    rw [List.mem_singleton.mp hj]
    exact hs.accounted.numbered i hi
  · rw [hpending, Multiset.mem_cons] at hx hy
    rcases hx with rfl | hx <;> rcases hy with rfl | hy
    · exact absurd hlt (lt_irrefl _)
    · exact absurd hlt (hold y hy).not_gt
    · exact hlast x hx
    · exact hs.pending x hx y hy hlt
  · rw [hpending, Multiset.mem_cons] at hx
    rcases hx with rfl | hx
    · refine hs.accounted.numbered i ?_
      rw [← Multiset.mem_coe, hs.accounted.conserved]
      have hi : i ∈ h.invocations := hi
      simp [hi]
    · exact hs.ahead i hi x hx

theorem firstInFirstOut_step (hs : h.FirstInFirstOut) {c : QueueCall} (hkept : h.NotOvertaken c) :
    (h.step c).FirstInFirstOut := by
  cases c with
  | registerTask target_time => exact hs.registerTask hkept
  | registerElsewhere =>
      exact ⟨accounted_step hs.accounted _, hs.kept, hs.registered, hs.invocations, hs.pending,
        hs.ahead⟩
  | getTasksToRunNow type now => exact hs.flush type now
  | disposeTasks =>
      have hnone : ∀ x, x ∉ (h.step .disposeTasks).entry.pending := fun x => by
        rw [show (h.step .disposeTasks).entry.pending = 0 from
          TaskQueueEntry.disposeTasks_pending _]
        exact Multiset.notMem_zero x
      have hkept : h.pendingTasks = 0 := hkept
      refine ⟨accounted_step hs.accounted _, ?_, hs.registered, hs.invocations,
        fun x hx => absurd hx (hnone x), fun _ _ x hx => absurd hx (hnone x)⟩
      show h.discarded + h.pendingTasks = 0
      rw [hs.kept, hkept, add_zero]

/-- The tasks handed out are the first of the registered ones. -/
lemma FirstInFirstOut.invocations_first (hs : h.FirstInFirstOut) :
    h.invocations <+: h.registered := by
  refine ⟨h.pendingTasks.sort (· ≤ ·), ?_⟩
  have hsorted : (h.invocations ++ h.pendingTasks.sort (· ≤ ·)).Pairwise (· ≤ ·) := by
    refine List.pairwise_append.mpr ⟨hs.invocations.imp le_of_lt, ?_, fun i hi j hj => ?_⟩
    · exact Multiset.pairwise_sort ..
    · rw [Multiset.mem_sort] at hj
      rcases Multiset.mem_map.mp hj with ⟨x, hx, rfl⟩
      exact (hs.ahead i hi x hx).le
  refine List.Perm.eq_of_pairwise' hsorted (hs.registered.imp le_of_lt) ?_
  rw [← Multiset.coe_eq_coe, hs.accounted.conserved, hs.kept, add_zero, ← Multiset.coe_add,
    Multiset.sort_eq]

end QueueHistory

namespace LoopImpl

variable {Q : Type} [DelayedTaskQueue Q ℕ] {s t : LoopImpl Q} {a : LoopAction}

/-- The call on the queue that a step makes. -/
def queueCall : LoopAction → Option QueueCall
  | .onEventFired now | .runExpiredTasksNow now => some (.getTasksToRunNow .kAll now)
  | .registerTask target_time => some (.registerTask target_time)
  | .registerElsewhere => some .registerElsewhere
  | .disposeTasks => some .disposeTasks
  | _ => none

/-- What the step does to the queue lets no task overtake a pending one. -/
def NotOvertaken (s : LoopImpl Q) (a : LoopAction) : Prop :=
  ∀ c, queueCall a = some c → s.queue.NotOvertaken c

instance (s : LoopImpl Q) (a : LoopAction) : Decidable (s.NotOvertaken a) :=
  decidable_of_iff (∀ c ∈ queueCall a, s.queue.NotOvertaken c) Iff.rfl

lemma registered_of_step (ht : s.step a = some t)
    (hregister : ∀ target_time, a ≠ .registerTask target_time) :
    t.queue.registered = s.queue.registered := by
  cases moves_of_step ht with
  | registerTask _ => exact absurd rfl (hregister _)
  | _ => rfl

/-- The numbers of the registrations only grow. -/
lemma Balanced.ascending_step (bal : s.Balanced) (hs : s.queue.registered.Pairwise (· < ·))
    (ht : s.step a = some t) : t.queue.registered.Pairwise (· < ·) := by
  cases moves_of_step ht with
  | registerTask hposting =>
      refine List.pairwise_append.mpr ⟨hs, List.pairwise_singleton _ _, ?_⟩
      intro i hi j hj
      rw [List.mem_singleton.mp hj]
      exact bal.accounted.numbered i hi
  | _ => exact hs

lemma posting_of_step (ht : s.step a = some t)
    (hregister : ∀ target_time, a ≠ .registerTask target_time) :
    s.posting ⊆ t.posting := by
  cases moves_of_step ht with
  | registerTask _ => exact absurd rfl (hregister _)
  | postTask _ => exact List.subset_cons_self ..
  | _ => exact List.Subset.refl _

lemma executed_of_step (ht : s.step a = some t) (hinvoke : a ≠ .invoke) :
    t.executed = s.executed := by
  cases moves_of_step ht with
  | invoke _ | invokeLast _ => exact absurd rfl hinvoke
  | _ => rfl

theorem firstInFirstOut_step (hs : s.queue.FirstInFirstOut) (ht : s.step a = some t)
    (hkept : s.NotOvertaken a) : t.queue.FirstInFirstOut := by
  cases moves_of_step ht with
  | onEventFired _ | runExpiredTasksNow _ | disposeTasks _ | registerTask _ | registerElsewhere =>
      exact QueueHistory.firstInFirstOut_step hs (hkept _ rfl)
  | _ => exact hs

/-- **First in, first out.**  If no task that is registered overtakes a pending one, and every
`DisposeTasks` finds the queue empty, then what the loop has executed and what is in the batch under
way are the first of the registered tasks, in the order of their registration. -/
theorem first_in_first_out {n : ℕ} {acts : List LoopAction}
    (hkept : EveryStep step (fun s a _ => s.NotOvertaken a) (create n : LoopImpl Q) acts)
    (hs : run step (create n) acts = some s) :
    s.executed ++ s.control.batch <+: s.queue.registered := by
  have bal : s.Balanced := run_invariant (I := Balanced) (fun _ _ _ bal ht => balanced_step bal ht)
    (balanced_create n) hs
  have hfirst : s.queue.FirstInFirstOut :=
    run_invariant_of (I := fun s : LoopImpl Q => s.queue.FirstInFirstOut)
      (fun _ _ _ hs ht hkept => firstInFirstOut_step hs ht hkept)
      (QueueHistory.firstInFirstOut_created _ n) hkept hs
  rw [← bal.invocations]
  exact hfirst.invocations_first

end LoopImpl

end FFNetwork
