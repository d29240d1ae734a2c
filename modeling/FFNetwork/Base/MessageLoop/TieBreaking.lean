import FFNetwork.Base.MessageLoop.QueueHistory

/-!
# What the laws of the queue leave open

Which of two equivalent tasks is at the top is up to the queue.  Here the same calls are made on any
queue and on one that, among equivalent tasks, keeps two given ones to the end.  The two always have
the same keys pending, so they make the same flushes stop at the same places; and as long as the
first still has the two tasks, so has the second.

* `LastQueue` — a correct queue that takes `a` last among equivalent tasks, and `b` before it.
* `Alike` — the relation between what is pending in the two; `alike_step`.
* **`alike_run`** — over any calls, what the one queue still holds, the other holds too.
-/

namespace FFNetwork

open PriorityQueue

/-! ## Keys -/

namespace DelayedTask

variable {Closure : Type} {s t u : DelayedTask Closure}

/-- What the comparator sees of a task. -/
def key (t : DelayedTask Closure) : TimePoint × UInt64 := (t.target_time_, t.order_)

lemma gt_congr_right (h : t.key = u.key) : s.gt t = s.gt u := by
  obtain ⟨htarget, horder⟩ := Prod.ext_iff.mp h
  have htarget : t.target_time_ = u.target_time_ := htarget
  have horder : t.order_ = u.order_ := horder
  rw [gt, gt, htarget, horder]

lemma key_eq_of_equivalent (h : s.gt t = false) (h' : t.gt s = false) : s.key = t.key := by
  rw [gt_eq_false_iff] at h h'
  rcases h with h | ⟨htarget, hle⟩
  · rcases h' with h' | ⟨heq, _⟩
    · exact absurd h (lt_asymm h')
    · exact absurd heq.symm (ne_of_lt h)
  · rcases h' with h' | ⟨_, hle'⟩
    · exact absurd htarget.symm (ne_of_lt h')
    · exact Prod.ext htarget (UInt64.le_antisymm hle hle')

/-- Among equivalent tasks `a` is to come out last, and `b` right before it. -/
def lastRank (a b : ℕ) (t : DelayedTask ℕ) : ℕ :=
  if t.task_ = a then 2 else if t.task_ = b then 1 else 0

end DelayedTask

/-- A queue with the laws of `std::priority_queue` that keeps `a` and `b` to the end. -/
abbrev LastQueue (a b : ℕ) := RankedQueue (@DelayedTask.gt ℕ) (DelayedTask.lastRank a b)

namespace QueueHistory

variable {Q Q' : Type} [DelayedTaskQueue Q ℕ] [DelayedTaskQueue Q' ℕ]

/-- Queues with the same keys have tasks of the same key at the top. -/
lemma key_top?_eq {q : Q} {q' : Q'}
    (hkeys : (elems q').map DelayedTask.key = (elems q).map DelayedTask.key)
    {t t' : DelayedTask ℕ} (ht : top? q = some t) (ht' : top? q' = some t') : t'.key = t.key := by
  have hmem : t.key ∈ (elems q').map DelayedTask.key := by
    rw [hkeys]
    exact Multiset.mem_map_of_mem _ (mem_of_top? ht)
  have hmem' : t'.key ∈ (elems q).map DelayedTask.key := by
    rw [← hkeys]
    exact Multiset.mem_map_of_mem _ (mem_of_top? ht')
  obtain ⟨x, hx, hxt⟩ := Multiset.mem_map.mp hmem
  obtain ⟨y, hy, hyt⟩ := Multiset.mem_map.mp hmem'
  refine DelayedTask.key_eq_of_equivalent ?_ ?_
  · rw [← DelayedTask.gt_congr_right hxt]
    exact top?_first q' t' ht' x hx
  · rw [← DelayedTask.gt_congr_right hyt]
    exact top?_first q t ht y hy

/-- Take `t` out of one of two multisets with the same keys.  What both still have together leaves
room in the other one for a further task with the key of `t`. -/
lemma exists_other {kept left whole : Multiset (DelayedTask ℕ)} {t : DelayedTask ℕ}
    (hkeys : whole.map DelayedTask.key = (t ::ₘ left).map DelayedTask.key)
    (hnodup : (whole.map DelayedTask.task_).Nodup) (hleft : kept ≤ left) (hwhole : kept ≤ whole) :
    ∃ x ∈ whole, x.key = t.key ∧ ∀ y ∈ kept, x.task_ ≠ y.task_ := by
  obtain ⟨others, rfl⟩ := Multiset.le_iff_exists_add.mp hleft
  obtain ⟨rest, rfl⟩ := Multiset.le_iff_exists_add.mp hwhole
  rw [Multiset.map_add, Multiset.map_cons, Multiset.map_add, ← Multiset.add_cons] at hkeys
  have hmem : t.key ∈ rest.map DelayedTask.key := by
    rw [add_left_cancel hkeys]
    exact Multiset.mem_cons_self _ _
  obtain ⟨x, hx, hxt⟩ := Multiset.mem_map.mp hmem
  rw [Multiset.map_add] at hnodup
  refine ⟨x, Multiset.mem_add.mpr (Or.inr hx), hxt, fun y hy heq => ?_⟩
  exact Multiset.disjoint_left.mp (Multiset.nodup_add.mp hnodup).2.2
    (Multiset.mem_map_of_mem _ hy) (heq ▸ Multiset.mem_map_of_mem _ hx)

/-! ## The pending tasks of the two -/

/-- The second queue has the keys of the first, and the tasks `a` and `b` if the first has them. -/
structure Alike (a b : DelayedTask ℕ) (P P' : Multiset (DelayedTask ℕ)) : Prop where
  keys : P'.map DelayedTask.key = P.map DelayedTask.key
  last : a ∈ P → a ∈ P'
  both : a ∈ P → b ∈ P → b ∈ P'

variable {a b : DelayedTask ℕ} {q : Q} {q' : LastQueue a.task_ b.task_} {t t' : DelayedTask ℕ}

/-- Tasks that both queues have, the first also without its top, are not at the top of the second
if the ranks keep them behind all others. -/
lemma notMem_of_top? (hkeys : (elems q').map DelayedTask.key = (elems q).map DelayedTask.key)
    (hnodup : ((elems q').map DelayedTask.task_).Nodup) (ht : top? q = some t)
    (ht' : top? q' = some t') {kept : Multiset (DelayedTask ℕ)} (hkept : kept ≤ elems (pop q))
    (hkept' : kept ≤ elems q')
    (hrank : ∀ y ∈ kept, ∀ x, (∀ z ∈ kept, x.task_ ≠ z.task_) →
      DelayedTask.lastRank a.task_ b.task_ x < DelayedTask.lastRank a.task_ b.task_ y) :
    t' ∉ kept := by
  intro hmem
  have hcons := hkeys
  rw [top?_some q t ht] at hcons
  obtain ⟨x, hx, hxt, hother⟩ := exists_other hcons hnodup hkept hkept'
  have hfirst := RankedQueue.respects_thenBy q' t' ht' x hx
  rw [thenBy_eq_false_iff] at hfirst
  have hequiv : x.gt t' = false := by
    rw [DelayedTask.gt_congr_right ((key_top?_eq hkeys ht ht').trans hxt.symm)]
    exact SortedQueue.irrefl x
  rcases hfirst.2 with hgt | hle
  · rw [hequiv] at hgt
    cases hgt
  · exact absurd (hrank t' hmem x hother) (not_lt.mpr hle)

/-- Popping both keeps them alike: the second has a further task to pop when the first keeps `a`, or
both tasks. -/
lemma Alike.pop (al : Alike a b (elems q) (elems q')) (hne : a.task_ ≠ b.task_)
    (hnodup : ((elems q').map DelayedTask.task_).Nodup) (ht : top? q = some t)
    (ht' : top? q' = some t') : Alike a b (elems (pop q)) (elems (pop q')) := by
  have hpopped := top?_some q' t' ht'
  refine ⟨?_, fun ha => ?_, fun ha hb => ?_⟩
  · have hkeys := al.keys
    rw [top?_some q t ht, hpopped, Multiset.map_cons, Multiset.map_cons,
      key_top?_eq al.keys ht ht', Multiset.cons_inj_right] at hkeys
    exact hkeys
  · have ha' := al.last (mem_of_mem_pop ht ha)
    have htop : t' ∉ ({a} : Multiset (DelayedTask ℕ)) := by
      refine notMem_of_top? al.keys hnodup ht ht' (Multiset.singleton_le.mpr ha)
        (Multiset.singleton_le.mpr ha') fun y hy x hx => ?_
      obtain rfl := Multiset.mem_singleton.mp hy
      have hxa := hx y (Multiset.mem_singleton_self y)
      simp only [DelayedTask.lastRank, hxa, if_false, if_true]
      split <;> decide
    rw [hpopped] at ha'
    exact (Multiset.mem_cons.mp ha').resolve_left fun heq =>
      htop (Multiset.mem_singleton.mpr heq.symm)
  · have hb' := al.both (mem_of_mem_pop ht ha) (mem_of_mem_pop ht hb)
    have ha' := al.last (mem_of_mem_pop ht ha)
    have hab : a ∉ ({b} : Multiset (DelayedTask ℕ)) := fun h =>
      hne (congrArg DelayedTask.task_ (Multiset.mem_singleton.mp h))
    have htop : t' ∉ a ::ₘ ({b} : Multiset (DelayedTask ℕ)) := by
      refine notMem_of_top? al.keys hnodup ht ht'
        ((Multiset.cons_le_of_notMem hab).mpr ⟨ha, Multiset.singleton_le.mpr hb⟩)
        ((Multiset.cons_le_of_notMem hab).mpr ⟨ha', Multiset.singleton_le.mpr hb'⟩)
        fun y hy x hx => ?_
      have hxa := hx a (Multiset.mem_cons_self _ _)
      have hxb := hx b (Multiset.mem_cons_of_mem (Multiset.mem_singleton_self b))
      have hx0 : DelayedTask.lastRank a.task_ b.task_ x = 0 := by
        rw [DelayedTask.lastRank, if_neg hxa, if_neg hxb]
      rw [hx0, DelayedTask.lastRank]
      rcases Multiset.mem_cons.mp hy with rfl | hy
      · rw [if_pos rfl]
        decide
      · obtain rfl := Multiset.mem_singleton.mp hy
        rw [if_neg hne.symm, if_pos rfl]
        decide
    rw [hpopped] at hb'
    exact (Multiset.mem_cons.mp hb').resolve_left fun heq =>
      htop (Multiset.mem_cons_of_mem (Multiset.mem_singleton.mpr heq.symm))

/-- What comes out at `now` at the latest is told by the keys. -/
lemma Alike.filter {P P' : Multiset (DelayedTask ℕ)} (al : Alike a b P P') (now : TimePoint) :
    Alike a b (P.filter fun t => now < t.target_time_)
      (P'.filter fun t => now < t.target_time_) := by
  have hlate : ∀ P : Multiset (DelayedTask ℕ),
      (P.filter fun t => now < t.target_time_).map DelayedTask.key
        = (P.map DelayedTask.key).filter fun k => now < k.1 := fun P => by
    rw [Multiset.filter_map]
    rfl
  refine ⟨by rw [hlate, hlate, al.keys], fun ha => ?_, fun ha hb => ?_⟩
  · rw [Multiset.mem_filter] at ha ⊢
    exact ⟨al.last ha.1, ha.2⟩
  · rw [Multiset.mem_filter] at ha hb ⊢
    exact ⟨al.both ha.1 hb.1, hb.2⟩

/-! ## The two histories -/

variable {h : QueueHistory Q} {h' : QueueHistory (LastQueue a.task_ b.task_)}

lemma alike_flush (acc' : h'.Accounted) (hne : a.task_ ≠ b.task_)
    (al : Alike a b h.entry.pending h'.entry.pending) (type : FlushType) (now : TimePoint) :
    Alike a b (h.step (.getTasksToRunNow type now)).entry.pending
      (h'.step (.getTasksToRunNow type now)).entry.pending := by
  simp only [step]
  cases type with
  | kAll =>
      obtain ⟨_, _, _, hleft, _⟩ := h.entry.getTasksToRunNow_kAll now h.invocations
      obtain ⟨_, _, _, hleft', _⟩ := h'.entry.getTasksToRunNow_kAll now h'.invocations
      rw [hleft, hleft']
      exact al.filter now
  | kSingle =>
      have hempty : h.entry.pending = 0 ↔ h'.entry.pending = 0 := by
        rw [← Multiset.map_eq_zero (f := DelayedTask.key), ← al.keys, Multiset.map_eq_zero]
      rw [TaskQueueEntry.getTasksToRunNow_kSingle_eq, TaskQueueEntry.getTasksToRunNow_kSingle_eq]
      cases ht : top? h.entry.delayed_tasks with
      | none =>
          rw [top?_eq_none.mpr (hempty.mp (top?_none _ ht))]
          exact al
      | some t =>
          cases ht' : top? h'.entry.delayed_tasks with
          | none =>
              rw [top?_eq_none.mpr (hempty.mpr (top?_none _ ht'))] at ht
              cases ht
          | some t' =>
              have htarget : t'.target_time_ = t.target_time_ :=
                congrArg Prod.fst (key_top?_eq al.keys ht ht')
              simp only [htarget]
              split
              · exact al
              · exact Alike.pop al hne acc'.pending_nodup ht ht'

lemma alike_step (acc : h.Accounted) (acc' : h'.Accounted) (hab : a.task_ < b.task_)
    (hreg : h'.registrations = h.registrations)
    (al : Alike a b h.entry.pending h'.entry.pending) (c : QueueCall) :
    (h'.step c).registrations = (h.step c).registrations ∧
      Alike a b (h.step c).entry.pending (h'.step c).entry.pending := by
  cases c with
  | registerTask target_time =>
      refine ⟨congrArg (· + 1) hreg, ?_⟩
      simp only [step, TaskQueueEntry.registerTask_pending, hreg]
      refine ⟨by rw [Multiset.map_cons, Multiset.map_cons, al.keys], fun ha => ?_, fun ha hb => ?_⟩
      · exact Multiset.mem_cons.mpr ((Multiset.mem_cons.mp ha).imp id al.last)
      · rcases Multiset.mem_cons.mp hb with rfl | hb
        · exact Multiset.mem_cons_self _ _
        · rcases Multiset.mem_cons.mp ha with rfl | ha
          · -- `b` would have been registered before `a`
            exact absurd (acc.numbered _ (acc.registered_of_pending hb)) (lt_asymm hab)
          · exact Multiset.mem_cons_of_mem (al.both ha hb)
  | registerElsewhere => exact ⟨congrArg (· + 1) hreg, al⟩
  | getTasksToRunNow type now => exact ⟨hreg, alike_flush acc' (ne_of_lt hab) al type now⟩
  | disposeTasks =>
      refine ⟨hreg, ?_⟩
      simp only [step, TaskQueueEntry.disposeTasks_pending]
      exact ⟨rfl, id, fun _ => id⟩

lemma alike_run_from (acc : h.Accounted) (acc' : h'.Accounted) (hab : a.task_ < b.task_)
    (hreg : h'.registrations = h.registrations)
    (al : Alike a b h.entry.pending h'.entry.pending) (calls : List QueueCall) :
    Alike a b (h.run calls).entry.pending (h'.run calls).entry.pending := by
  induction calls generalizing h h' with
  | nil => exact al
  | cons c calls ih =>
      obtain ⟨hreg', al'⟩ := alike_step acc acc' hab hreg al c
      exact ih (accounted_step acc c) (accounted_step acc' c) hreg' al'

/-- **What the one queue still holds, the other holds too.**  If `a` was registered before `b` and
both are pending in some queue, then both are pending in the one that keeps them to the end. -/
theorem alike_run (wakeable : Option Wakeable) (n : ℕ) (hab : a.task_ < b.task_)
    (calls : List QueueCall) :
    let h := (created wakeable n : QueueHistory Q).run calls
    let h' := (created wakeable n : QueueHistory (LastQueue a.task_ b.task_)).run calls
    Alike a b h.entry.pending h'.entry.pending := by
  refine alike_run_from (accounted_created (Q := Q) wakeable n) (accounted_created wakeable n) hab
    rfl ?_ calls
  show Alike a b (TaskQueueEntry.new : TaskQueueEntry ℕ Q).pending
    (TaskQueueEntry.new : TaskQueueEntry ℕ (LastQueue a.task_ b.task_)).pending
  rw [TaskQueueEntry.new_pending, TaskQueueEntry.new_pending]
  exact ⟨rfl, id, fun _ => id⟩

end QueueHistory

end FFNetwork
