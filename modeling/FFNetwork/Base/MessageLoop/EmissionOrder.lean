import FFNetwork.Base.MessageLoop.TieBreaking

/-!
# The order in which tasks come out

Tasks of one queue come out by target time, and among equal target times by the value the shared
counter had when they were registered.  The counter is a 32-bit `atomic_int`: its values grow from
0 to `2 ^ 31 - 1`, go on at `-2 ^ 31`, which as a `size_t` is larger still, and after `-1` start
again at 0.  So registration order is kept within one block of `2 ^ 32` registrations of the
process and broken across the end of a block.

* `HandedOutInOrder` — in this continuation `a` comes out before `b`, unless `a` is discarded.
* `comesFirst_step` — a task in front of another stays in front until it comes out or is
  discarded.
* **`emission_order_iff`** — for which pairs every queue with the laws of `std::priority_queue`
  keeps the order in every continuation.
-/

namespace FFNetwork

open PriorityQueue

/-- In a list without a greater element before a smaller one, `a` is found before `b`. -/
lemma idxOf_lt_of_sorted {r : DelayedTask ℕ → DelayedTask ℕ → Bool}
    {popped : List (DelayedTask ℕ)} {a b : DelayedTask ℕ}
    (hsorted : popped.Pairwise fun x y => r x y = false) (ha : a ∈ popped)
    (hgt : r b a = true) (hne : a.task_ ≠ b.task_)
    (hinj : ∀ x ∈ popped, x.task_ = b.task_ → x = b) :
    (popped.map DelayedTask.task_).idxOf a.task_
      < (popped.map DelayedTask.task_).idxOf b.task_ := by
  obtain ⟨l₁, l₂, rfl⟩ := List.append_of_mem ha
  have hfront : b.task_ ∉ l₁.map DelayedTask.task_ := by
    intro hmem
    obtain ⟨x, hx, hxb⟩ := List.mem_map.mp hmem
    obtain rfl := hinj x (List.mem_append_left _ hx) hxb
    have := (List.pairwise_append.mp hsorted).2.2 x hx a (List.mem_cons_self ..)
    rw [hgt] at this
    exact Bool.noConfusion this
  rw [List.map_append, List.map_cons, List.idxOf_append_of_notMem hfront,
    List.idxOf_cons_ne _ hne]
  by_cases hal : a.task_ ∈ l₁.map DelayedTask.task_
  · rw [List.idxOf_append_of_mem hal]
    have := List.idxOf_lt_length_of_mem hal
    omega
  · rw [List.idxOf_append_of_notMem hal, List.idxOf_cons_self]
    omega

namespace QueueHistory

variable {Q : Type} [DelayedTaskQueue Q ℕ] {r : DelayedTask ℕ → DelayedTask ℕ → Bool}

/-- In this continuation `a` comes out before `b`, provided `b` comes out and `a` is not
discarded. -/
def HandedOutInOrder (h : QueueHistory Q) (more : List QueueCall) (a b : ℕ) : Prop :=
  b ∈ (h.run more).invocations → a ∉ (h.run more).discarded →
    (h.run more).invocations.idxOf a < (h.run more).invocations.idxOf b

/-- `a` is in front of `b`, or has been discarded, or has come out while `b` had not. -/
def ComesFirst (h : QueueHistory Q) (a b : DelayedTask ℕ) : Prop :=
  (a ∈ h.entry.pending ∧ b ∈ h.entry.pending) ∨ a.task_ ∈ h.discarded ∨
    h.invocations.idxOf a.task_ < h.invocations.idxOf b.task_

lemma idxOf_lt_append {a b : ℕ} {l : List ℕ} (h : l.idxOf a < l.idxOf b) (m : List ℕ) :
    (l ++ m).idxOf a < (l ++ m).idxOf b := by
  have hlen : l.idxOf b ≤ l.length := List.idxOf_le_length
  have ha : a ∈ l := List.idxOf_lt_length_iff.mp (lt_of_lt_of_le h hlen)
  rw [List.idxOf_append_of_mem ha]
  by_cases hb : b ∈ l
  · rwa [List.idxOf_append_of_mem hb]
  · rw [List.idxOf_append_of_notMem hb]
    have := List.idxOf_lt_length_of_mem ha
    omega

lemma Accounted.pending_injective {h : QueueHistory Q} (acc : h.Accounted) {x y : DelayedTask ℕ}
    (hx : x ∈ h.entry.pending) (hy : y ∈ h.entry.pending) (hxy : x.task_ = y.task_) : x = y :=
  Multiset.inj_on_of_nodup_map acc.pending_nodup x hx y hy hxy

/-- A pending task has not come out yet. -/
lemma Accounted.not_invoked_of_pending {h : QueueHistory Q} (acc : h.Accounted)
    {t : DelayedTask ℕ} (ht : t ∈ h.entry.pending) :
    t.task_ ∉ h.invocations ∧ t.task_ ∉ h.discarded := by
  have hnodup := Multiset.coe_nodup.mpr acc.nodup
  rw [acc.conserved] at hnodup
  have hdisj := (Multiset.nodup_add.mp hnodup).2.2
  have hmem : t.task_ ∈ h.pendingTasks := Multiset.mem_map_of_mem _ ht
  constructor
  · intro hi
    exact Multiset.disjoint_left.mp hdisj (Multiset.mem_add.mpr (Or.inl (Multiset.mem_coe.mpr hi)))
      hmem
  · intro hd
    exact Multiset.disjoint_left.mp hdisj (Multiset.mem_add.mpr (Or.inr hd)) hmem

/-- One flush, with two pending tasks of which `b` is the greater: `a` comes out first, or both
stay. -/
lemma flush_comesFirst [StrictWeakOrder r] (hr : Respects Q r) {h : QueueHistory Q}
    (acc : h.Accounted) {a b : DelayedTask ℕ} (ha : a ∈ h.entry.pending)
    (hb : b ∈ h.entry.pending) (hgt : r b a = true)
    (type : FlushType) (now : TimePoint) :
    let h' := h.step (.getTasksToRunNow type now)
    (a ∈ h'.entry.pending ∧ b ∈ h'.entry.pending) ∨
      h'.invocations.idxOf a.task_ < h'.invocations.idxOf b.task_ := by
  intro h'
  obtain ⟨popped, hinv, hpending, hsorted, hrest⟩ :=
    h.entry.getTasksToRunNow_popped hr type now h.invocations
  have hsub : ∀ x ∈ popped, x ∈ h.entry.pending := fun x hx => by
    rw [hpending]; exact Multiset.mem_add.mpr (Or.inl (Multiset.mem_coe.mpr hx))
  have hwhere : ∀ x ∈ h.entry.pending, x ∈ popped ∨ x ∈ h'.entry.pending := fun x hx => by
    rw [hpending] at hx
    exact (Multiset.mem_add.mp hx).imp Multiset.mem_coe.mp id
  have hne : a.task_ ≠ b.task_ := by
    intro heq
    obtain rfl := acc.pending_injective ha hb heq
    have hirr : r a a = false := SortedQueue.irrefl a
    rw [hgt] at hirr
    exact Bool.noConfusion hirr
  rcases hwhere a ha with hapop | haleft
  · right
    show (h.entry.getTasksToRunNow type now h.invocations).2.idxOf a.task_
      < (h.entry.getTasksToRunNow type now h.invocations).2.idxOf b.task_
    rw [hinv, List.idxOf_append_of_notMem (acc.not_invoked_of_pending ha).1,
      List.idxOf_append_of_notMem (acc.not_invoked_of_pending hb).1]
    have := idxOf_lt_of_sorted hsorted hapop hgt hne
      fun x hx hxb => acc.pending_injective (hsub x hx) hb hxb
    omega
  · rcases hwhere b hb with hbpop | hbleft
    · have := hrest b hbpop a haleft
      rw [hgt] at this
      exact Bool.noConfusion this
    · exact Or.inl ⟨haleft, hbleft⟩

lemma comesFirst_step {h : QueueHistory Q} (acc : h.Accounted) {a b : DelayedTask ℕ}
    (hgt : b.gt a = true) (hfirst : h.ComesFirst a b) (c : QueueCall) :
    (h.step c).ComesFirst a b := by
  cases c with
  | registerTask target_time =>
      refine hfirst.imp (fun ⟨ha, hb⟩ => ?_) id
      simp only [step, TaskQueueEntry.registerTask_pending]
      exact ⟨Multiset.mem_cons_of_mem ha, Multiset.mem_cons_of_mem hb⟩
  | registerElsewhere => exact hfirst
  | getTasksToRunNow type now =>
      rcases hfirst with ⟨ha, hb⟩ | hdisc | hidx
      · exact (flush_comesFirst respects_comp acc ha hb hgt type now).imp id Or.inr
      · exact Or.inr (Or.inl hdisc)
      · obtain ⟨popped, hinv, _⟩ :=
          h.entry.getTasksToRunNow_popped respects_comp type now h.invocations
        right; right
        show (h.entry.getTasksToRunNow type now h.invocations).2.idxOf a.task_
          < (h.entry.getTasksToRunNow type now h.invocations).2.idxOf b.task_
        rw [hinv]
        exact idxOf_lt_append hidx _
  | disposeTasks =>
      rcases hfirst with ⟨ha, _⟩ | hdisc | hidx
      · exact Or.inr (Or.inl (Multiset.mem_add.mpr (Or.inr (Multiset.mem_map_of_mem _ ha))))
      · exact Or.inr (Or.inl (Multiset.mem_add.mpr (Or.inl hdisc)))
      · exact Or.inr (Or.inr hidx)

lemma comesFirst_run {h : QueueHistory Q} (acc : h.Accounted) {a b : DelayedTask ℕ}
    (hgt : b.gt a = true) (hfirst : h.ComesFirst a b) (more : List QueueCall) :
    (h.run more).ComesFirst a b := by
  induction more generalizing h with
  | nil => exact hfirst
  | cons c more ih => exact ih (accounted_step acc c) (comesFirst_step acc hgt hfirst c)

/-- Of two pending tasks the smaller comes out first in every continuation. -/
lemma handedOutInOrder_of_gt {h : QueueHistory Q} (acc : h.Accounted) {a b : DelayedTask ℕ}
    (ha : a ∈ h.entry.pending) (hb : b ∈ h.entry.pending) (hgt : b.gt a = true)
    (more : List QueueCall) : h.HandedOutInOrder more a.task_ b.task_ := by
  intro hbout hadisc
  have acc' := accounted_run acc more
  rcases comesFirst_run acc hgt (Or.inl ⟨ha, hb⟩) more with ⟨_, hb'⟩ | hdisc | hidx
  · exact absurd hbout (acc'.not_invoked_of_pending hb').1
  · exact absurd hdisc hadisc
  · exact hidx

/-- `operator>` on two pending tasks, through their registration numbers. -/
lemma Accounted.gt_iff {h : QueueHistory Q} (acc : h.Accounted) {a b : DelayedTask ℕ}
    (ha : a ∈ h.entry.pending) (hb : b ∈ h.entry.pending) :
    b.gt a = true ↔ a.target_time_ < b.target_time_ ∨
      (a.target_time_ = b.target_time_ ∧ a.task_ % 2 ^ 32 < b.task_ % 2 ^ 32) := by
  rw [DelayedTask.gt_iff, acc.ordered a ha, acc.ordered b hb, DelayedTask.orderOf_lt_iff]

/-- If `a` and `b` are pending after these calls, `a` comes out before `b` in every continuation. -/
def KeepsOrder (Q : Type) [DelayedTaskQueue Q ℕ] (wakeable : Option Wakeable) (n : ℕ)
    (calls : List QueueCall) (a b : DelayedTask ℕ) : Prop :=
  let h := (created wakeable n : QueueHistory Q).run calls
  a ∈ h.entry.pending → b ∈ h.entry.pending → ∀ more, h.HandedOutInOrder more a.task_ b.task_

/-- A full flush as late as possible hands out all that is pending, the smaller of two tasks
first. -/
lemma flushAll_inOrder [StrictWeakOrder r] (hr : Respects Q r) {h : QueueHistory Q}
    (acc : h.Accounted) {a b : DelayedTask ℕ} (ha : a ∈ h.entry.pending)
    (hb : b ∈ h.entry.pending) (hgt : r b a = true) :
    let h' := h.step (.getTasksToRunNow .kAll TimePoint.max)
    h'.invocations.idxOf a.task_ < h'.invocations.idxOf b.task_ := by
  intro h'
  have hempty : h'.entry.pending = 0 := by
    obtain ⟨_, _, _, hpending, _⟩ := h.entry.getTasksToRunNow_kAll TimePoint.max h.invocations
    show (h.entry.getTasksToRunNow .kAll TimePoint.max h.invocations).1.pending = 0
    rw [hpending, Multiset.filter_eq_nil]
    exact fun t _ => not_lt.mpr t.target_time_.le_max
  refine (flush_comesFirst hr acc ha hb hgt .kAll TimePoint.max).resolve_left fun hstay => ?_
  have hmem : a ∈ h'.entry.pending := hstay.1
  rw [hempty] at hmem
  exact absurd hmem (Multiset.notMem_zero a)

/-- With numbers that are not in order modulo `2 ^ 32`, a queue that keeps `a` to the end hands out
`b` first. -/
lemma not_keepsOrder_lastQueue {wakeable : Option Wakeable} {n : ℕ} {calls : List QueueCall}
    {a b : DelayedTask ℕ}
    (ha : a ∈ ((created wakeable n : QueueHistory Q).run calls).entry.pending)
    (hb : b ∈ ((created wakeable n : QueueHistory Q).run calls).entry.pending)
    (htarget : a.target_time_ = b.target_time_) (hab : a.task_ < b.task_)
    (hmod : b.task_ % 2 ^ 32 ≤ a.task_ % 2 ^ 32) :
    ¬ KeepsOrder (LastQueue a.task_ b.task_) wakeable n calls a b := by
  intro hkeeps
  have acc := accounted_run (accounted_created (Q := LastQueue a.task_ b.task_) wakeable n) calls
  have al := alike_run (Q := Q) wakeable n hab calls
  have hinorder := hkeeps (al.last ha) (al.both ha hb) [.getTasksToRunNow .kAll TimePoint.max]
  have hgt : thenBy DelayedTask.gt (DelayedTask.lastRank a.task_ b.task_) a b = true := by
    rw [← Bool.not_eq_false, thenBy_eq_false_iff, not_and_or, not_or, not_le]
    right
    constructor
    · rw [acc.gt_iff (al.last ha) (al.both ha hb), htarget, not_or, not_and, not_lt]
      exact ⟨le_rfl, fun _ => not_lt.mpr hmod⟩
    · rw [DelayedTask.lastRank, DelayedTask.lastRank, if_pos rfl, if_neg (ne_of_gt hab),
        if_pos rfl]
      decide
  have hidx := flushAll_inOrder RankedQueue.respects_thenBy acc (al.both ha hb) (al.last ha) hgt
  refine absurd (hinorder ?_ (acc.not_invoked_of_pending (al.last ha)).2) (not_lt.mpr hidx.le)
  exact List.idxOf_lt_length_iff.mp (lt_of_lt_of_le hidx List.idxOf_le_length)

/-- **The order of emission.**  Let `a` and `b` be pending in one queue, `a` with the smaller target
time, or with the same one and registered earlier.  Then `a` comes out before `b` in every
continuation, whatever the queue does with equivalent tasks, if and only if the target times differ
or the registration numbers are in order modulo `2 ^ 32`. -/
theorem emission_order_iff (wakeable : Option Wakeable) (n : ℕ) (calls : List QueueCall)
    (a b : DelayedTask ℕ)
    (ha : a ∈ ((created wakeable n : QueueHistory Q).run calls).entry.pending)
    (hb : b ∈ ((created wakeable n : QueueHistory Q).run calls).entry.pending)
    (hfirst : a.target_time_ < b.target_time_ ∨
      (a.target_time_ = b.target_time_ ∧ a.task_ < b.task_)) :
    (∀ (Q' : Type) [DelayedTaskQueue Q' ℕ], KeepsOrder Q' wakeable n calls a b) ↔
      a.target_time_ < b.target_time_ ∨ a.task_ % 2 ^ 32 < b.task_ % 2 ^ 32 := by
  constructor
  · intro hall
    by_contra hnot
    rw [not_or, not_lt, not_lt] at hnot
    obtain ⟨htarget, hab⟩ := hfirst.resolve_left (not_lt.mpr hnot.1)
    exact not_keepsOrder_lastQueue ha hb htarget hab hnot.2 (hall _)
  · intro hcond Q' _ ha' hb' more
    have acc := accounted_run (accounted_created (Q := Q') wakeable n) calls
    refine handedOutInOrder_of_gt acc ha' hb' ((acc.gt_iff ha' hb').mpr ?_) more
    rcases hfirst with hlt | ⟨heq, _⟩
    · exact Or.inl hlt
    · exact hcond.imp id fun hmod => ⟨heq, hmod⟩

/-- The first two registrations of a process, for the same time: they come out in order. -/
theorem emission_order_first_two :
    ((created none 0 : QueueHistory (SortedQueue (@DelayedTask.gt ℕ))).run
      [.registerTask ⟨0⟩, .registerTask ⟨0⟩]).HandedOutInOrder [.getTasksToRunNow .kAll ⟨0⟩] 0 1 :=
  (emission_order_iff (Q := SortedQueue (@DelayedTask.gt ℕ)) none 0
    [.registerTask ⟨0⟩, .registerTask ⟨0⟩]
    ⟨DelayedTask.orderOf 0, 0, ⟨0⟩⟩ ⟨DelayedTask.orderOf 1, 1, ⟨0⟩⟩
    (List.mem_cons_self ..) (List.mem_cons_of_mem _ (List.mem_cons_self ..))
    (Or.inr ⟨rfl, by decide⟩)).mpr (Or.inr (by decide)) (SortedQueue (@DelayedTask.gt ℕ))
    (List.mem_cons_self ..) (List.mem_cons_of_mem _ (List.mem_cons_self ..)) _

/-- Registrations number `2 ^ 32 - 1` and `2 ^ 32`, for the same time: the counter stands at -1 and
at 0, and the later one comes out first. -/
theorem emission_order_broken_at_wrap :
    ¬ ∀ (n : ℕ) (calls : List QueueCall) (a b : DelayedTask ℕ),
      a.target_time_ < b.target_time_ ∨
        (a.target_time_ = b.target_time_ ∧ a.task_ < b.task_) →
      KeepsOrder (SortedQueue (@DelayedTask.gt ℕ)) none n calls a b := by
  intro hall
  let a : DelayedTask ℕ := ⟨DelayedTask.orderOf (2 ^ 32 - 1), 2 ^ 32 - 1, ⟨0⟩⟩
  let b : DelayedTask ℕ := ⟨DelayedTask.orderOf (2 ^ 32), 2 ^ 32, ⟨0⟩⟩
  have hidx := hall (2 ^ 32 - 1) [.registerTask ⟨0⟩, .registerTask ⟨0⟩] a b
    (Or.inr ⟨rfl, by decide⟩) (List.mem_cons_of_mem _ (List.mem_cons_self ..))
    (List.mem_cons_self ..) [.getTasksToRunNow .kAll ⟨0⟩]
    (List.mem_cons_self ..) (List.not_mem_nil)
  exact absurd (show ([2 ^ 32, 2 ^ 32 - 1] : List ℕ).idxOf (2 ^ 32 - 1)
    < ([2 ^ 32, 2 ^ 32 - 1] : List ℕ).idxOf (2 ^ 32) from hidx) (by decide)

end QueueHistory

end FFNetwork
