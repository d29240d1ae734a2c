import FFNetwork.Base.MessageLoop.QueueHistory

/-!
# The wake-up time and the earliest pending task

The store tells a loop when to wake up by calling `WakeUp` on its `Wakeable`: after every
registration, and in a full flush after every task popped.  A single flush leaves the loop of
`GetTasksToRunNow` before the re-arming and makes no call.

* `WakeUpMatches` — the last `WakeUp` call was for the earliest pending task.
* `registerTask_matches`, `flushLoop_matches` — registrations and full flushes establish or keep
  it.
* `singleFlush_matches_iff` — a single flush keeps it only when the task it pops was the last one,
  or another task has the same target time.
* **`wakeUp_matches_iff`** — so over a whole history the wake-up time matches throughout exactly
  when every single flush is of that kind.
-/

namespace FFNetwork

open PriorityQueue StepSystem

namespace TaskQueueEntry

variable {Closure Q : Type} [DelayedTaskQueue Q Closure]

/-- `time` is the least target time of the pending tasks. -/
def IsEarliest (e : TaskQueueEntry Closure Q) (time : TimePoint) : Prop :=
  (∃ t ∈ e.pending, t.target_time_ = time) ∧ ∀ t ∈ e.pending, time ≤ t.target_time_

/-- While a task is pending, the last `WakeUp` call was for the earliest target time. -/
def WakeUpMatches (e : TaskQueueEntry Closure Q) : Prop :=
  ∃ w, e.wakeable = some w ∧
    (e.pending ≠ 0 → ∃ time, w.calls.head? = some time ∧ e.IsEarliest time)

/-- A single flush at `now` can do without the re-arming: if a task is due, it is the only one
pending, or the earliest target time belongs to two tasks. -/
def SingleFlushHarmless (e : TaskQueueEntry Closure Q) (now : TimePoint) : Prop :=
  ∀ time, e.IsEarliest time → time ≤ now →
    Multiset.card e.pending = 1 ∨
      2 ≤ Multiset.card (e.pending.filter fun t => t.target_time_ = time)

lemma IsEarliest.unique {e : TaskQueueEntry Closure Q} {time time' : TimePoint}
    (h : e.IsEarliest time) (h' : e.IsEarliest time') : time = time' := by
  obtain ⟨⟨t, ht, rfl⟩, hle⟩ := h
  obtain ⟨⟨t', ht', rfl⟩, hle'⟩ := h'
  exact le_antisymm (hle t' ht') (hle' t ht)

lemma isEarliest_of_first {e : TaskQueueEntry Closure Q} {t : DelayedTask Closure}
    (ht : t ∈ e.pending) (hfirst : ∀ b ∈ e.pending, t.gt b = false) :
    e.IsEarliest t.target_time_ :=
  ⟨⟨t, ht, rfl⟩, fun b hb => DelayedTask.target_le_of_gt_eq_false (hfirst b hb)⟩

lemma isEarliest_of_nextWakeTime {e : TaskQueueEntry Closure Q} {time : TimePoint}
    (h : e.getNextWakeTimeUnlocked = some time) : e.IsEarliest time := by
  obtain ⟨t, htop, rfl⟩ := Option.map_eq_some_iff.mp h
  exact isEarliest_of_first (mem_of_top? htop) (top?_first _ t htop)

lemma pending_of_nextWakeTime_none {e : TaskQueueEntry Closure Q}
    (h : e.getNextWakeTimeUnlocked = none) : e.pending = 0 :=
  top?_none _ (Option.map_eq_none_iff.mp h)

/-! ## The calls that re-arm -/

lemma wakeUpUnlocked_matches {e : TaskQueueEntry Closure Q} {time : TimePoint}
    (hw : e.wakeable.isSome) (h : e.pending ≠ 0 → e.IsEarliest time) :
    (e.wakeUpUnlocked time).WakeUpMatches := by
  obtain ⟨w, hw⟩ := Option.isSome_iff_exists.mp hw
  refine ⟨w.wakeUp time, ?_, fun hne => ⟨time, rfl, h hne⟩⟩
  rw [wakeUpUnlocked, hw]
  rfl

lemma rearmUnlocked_matches {e : TaskQueueEntry Closure Q} (hw : e.wakeable.isSome) :
    e.rearmUnlocked.WakeUpMatches := by
  rw [rearmUnlocked]
  split
  · next hnone =>
      exact wakeUpUnlocked_matches hw fun hne => absurd (pending_of_nextWakeTime_none hnone) hne
  · next time htime => exact wakeUpUnlocked_matches hw fun _ => isEarliest_of_nextWakeTime htime

lemma WakeUpMatches.wakeable_isSome {e : TaskQueueEntry Closure Q} (h : e.WakeUpMatches) :
    e.wakeable.isSome := by
  obtain ⟨w, hw, _⟩ := h
  rw [hw]; rfl

lemma registerTask_matches {e : TaskQueueEntry Closure Q} (hw : e.wakeable.isSome)
    (order : Int32) (task : Closure) (target_time : TimePoint) :
    (e.registerTask order task target_time).WakeUpMatches := by
  have hpending := e.registerTask_pending order task target_time
  rw [registerTask] at hpending ⊢
  split
  · next hnone =>
      simp only [hnone, pending_of_nextWakeTime_none hnone] at hpending
      exact absurd hpending.symm Multiset.cons_ne_zero
  · next time htime => exact wakeUpUnlocked_matches hw fun _ => isEarliest_of_nextWakeTime htime

/-- Every exit of the full flush leaves the wake-up time matching: before the first pop nothing has
changed, and each pop that follows ends with a re-arming. -/
lemma flushLoop_matches (now : TimePoint) (n : ℕ) {e : TaskQueueEntry Closure Q}
    (invocations : List Closure) (h : e.WakeUpMatches) :
    (flushLoop .kAll now n e invocations).1.WakeUpMatches := by
  induction n generalizing e invocations with
  | zero => exact h
  | succ n ih =>
      rw [flushLoop]
      split
      · exact h
      · split
        · exact h
        · exact ih _ (rearmUnlocked_matches h.wakeable_isSome)

lemma disposeTasks_matches {e : TaskQueueEntry Closure Q} (hw : e.wakeable.isSome) :
    e.disposeTasks.WakeUpMatches := by
  obtain ⟨w, hw⟩ := Option.isSome_iff_exists.mp hw
  exact ⟨w, hw, fun hne => absurd e.disposeTasks_pending hne⟩

/-! ## The call that does not -/

/-- The task at the top shares its target time with another one. -/
lemma filter_target_card {t : DelayedTask Closure} {rest : Multiset (DelayedTask Closure)} :
    2 ≤ Multiset.card ((t ::ₘ rest).filter fun b => b.target_time_ = t.target_time_) ↔
      ∃ b ∈ rest, b.target_time_ = t.target_time_ := by
  have hcard : Multiset.card ((t ::ₘ rest).filter fun b => b.target_time_ = t.target_time_)
      = Multiset.card (rest.filter fun b => b.target_time_ = t.target_time_) + 1 := by
    rw [Multiset.filter_cons_of_pos (p := fun b => b.target_time_ = t.target_time_) rest rfl,
      Multiset.card_cons]
  have hpos := Multiset.card_pos_iff_exists_mem
    (s := rest.filter fun b => b.target_time_ = t.target_time_)
  simp only [Multiset.mem_filter] at hpos
  rw [hcard, ← hpos]
  omega

/-- Without its first task the entry needs another one for the time of the last call, which was for
the task that is gone. -/
lemma wakeUpMatches_without_iff {e e' : TaskQueueEntry Closure Q} {t : DelayedTask Closure}
    (h : e.WakeUpMatches) (hfirst : ∀ b ∈ e.pending, t.gt b = false)
    (hpending : e.pending = t ::ₘ e'.pending) (hwake : e'.wakeable = e.wakeable) :
    e'.WakeUpMatches ↔ (e'.pending ≠ 0 → ∃ b ∈ e'.pending, b.target_time_ = t.target_time_) := by
  have ht : t ∈ e.pending := by
    rw [hpending]
    exact Multiset.mem_cons_self t _
  have hearliest := isEarliest_of_first ht hfirst
  obtain ⟨w, hw, hcalls⟩ := h
  obtain ⟨time, hhead, htime⟩ := hcalls (by rw [hpending]; exact Multiset.cons_ne_zero)
  obtain rfl := hearliest.unique htime
  constructor
  · rintro ⟨w', hw', hcalls'⟩ hne
    rw [hwake, hw, Option.some.injEq] at hw'
    subst hw'
    obtain ⟨time, hhead', hearliest'⟩ := hcalls' hne
    rw [hhead, Option.some.injEq] at hhead'
    exact hhead' ▸ hearliest'.1
  · refine fun hex => ⟨w, hwake.trans hw, fun hne => ⟨_, hhead, hex hne, fun b hb => ?_⟩⟩
    exact hearliest.2 b (by rw [hpending]; exact Multiset.mem_cons_of_mem hb)

/-- With a due task at the top, the condition asks the same. -/
lemma singleFlushHarmless_iff {e : TaskQueueEntry Closure Q} {t : DelayedTask Closure}
    {rest : Multiset (DelayedTask Closure)} {now : TimePoint}
    (hfirst : ∀ b ∈ e.pending, t.gt b = false) (hpending : e.pending = t ::ₘ rest)
    (hdue : t.target_time_ ≤ now) :
    e.SingleFlushHarmless now ↔ (rest ≠ 0 → ∃ b ∈ rest, b.target_time_ = t.target_time_) := by
  have ht : t ∈ e.pending := by
    rw [hpending]
    exact Multiset.mem_cons_self t _
  have hearliest := isEarliest_of_first ht hfirst
  have hcard : Multiset.card e.pending = 1 ↔ rest = 0 := by
    rw [hpending, Multiset.card_cons, Nat.add_eq_right, Multiset.card_eq_zero]
  constructor
  · intro hharm hne
    rcases hharm _ hearliest hdue with hone | htwo
    · exact absurd (hcard.mp hone) hne
    · rw [hpending] at htwo
      exact filter_target_card.mp htwo
  · intro hex time htime _
    obtain rfl := hearliest.unique htime
    by_cases hzero : rest = 0
    · exact Or.inl (hcard.mpr hzero)
    · right
      rw [hpending]
      exact filter_target_card.mpr (hex hzero)

/-- A single flush keeps the wake-up time matching exactly when it can do without re-arming. -/
theorem singleFlush_matches_iff {e : TaskQueueEntry Closure Q} (h : e.WakeUpMatches)
    (now : TimePoint) (invocations : List Closure) :
    (e.getTasksToRunNow .kSingle now invocations).1.WakeUpMatches ↔ e.SingleFlushHarmless now := by
  rcases e.getTasksToRunNow_kSingle now invocations with
    ⟨t, ht, hdue, hfirst, _, hpending, hwake⟩ | ⟨hnone, heq⟩
  · rw [wakeUpMatches_without_iff h hfirst hpending hwake,
      singleFlushHarmless_iff hfirst hpending hdue]
  · rw [heq]
    refine ⟨fun _ time htime hle => ?_, fun _ => h⟩
    obtain ⟨t, ht, rfl⟩ := htime.1
    exact absurd hle (not_le.mpr (hnone t ht))

end TaskQueueEntry

/-! ## Over a whole history -/

namespace QueueHistory

variable {Q : Type} [DelayedTaskQueue Q ℕ]

/-- A history never refuses a call. -/
def transition (h : QueueHistory Q) (c : QueueCall) : Option (QueueHistory Q) := some (h.step c)

/-- The call re-arms the wake-up, or can do without. -/
def KeepsWakeUp (h : QueueHistory Q) : QueueCall → Prop
  | .getTasksToRunNow .kSingle now => h.entry.SingleFlushHarmless now
  | _ => True

lemma step_matches_iff {h : QueueHistory Q} (hmatch : h.entry.WakeUpMatches) (c : QueueCall) :
    (h.step c).entry.WakeUpMatches ↔ h.KeepsWakeUp c := by
  cases c with
  | registerTask target_time =>
      exact iff_of_true (TaskQueueEntry.registerTask_matches hmatch.wakeable_isSome _ _ _) trivial
  | registerElsewhere => exact iff_of_true hmatch trivial
  | getTasksToRunNow type now =>
      cases type with
      | kSingle => exact TaskQueueEntry.singleFlush_matches_iff hmatch now h.invocations
      | kAll => exact iff_of_true (TaskQueueEntry.flushLoop_matches now _ _ hmatch) trivial
  | disposeTasks =>
      exact iff_of_true (TaskQueueEntry.disposeTasks_matches hmatch.wakeable_isSome) trivial

lemma created_matches (n : ℕ) :
    (created (some ⟨[]⟩) n : QueueHistory Q).entry.WakeUpMatches :=
  ⟨⟨[]⟩, rfl, fun hne => absurd (@TaskQueueEntry.new_pending ℕ Q _) hne⟩

/-- **When the wake-up time matches.**  For a queue whose `Wakeable` is set right after its
creation and any calls on it: the last `WakeUp` argument is the earliest pending target time after
every call exactly when every single flush that finds a due task finds it alone, or finds a second
task with the same earliest target time. -/
theorem wakeUp_matches_iff (n : ℕ) (calls : List QueueCall) :
    EveryStep transition (fun _ _ h' => h'.entry.WakeUpMatches)
        (created (some ⟨[]⟩) n : QueueHistory Q) calls ↔
      EveryStep transition (fun h c _ => h.KeepsWakeUp c)
        (created (some ⟨[]⟩) n : QueueHistory Q) calls := by
  refine everyStep_iff (I := fun h => h.entry.WakeUpMatches) ?_ ?_ (created_matches n)
  · rintro h c _ hmatch ⟨rfl⟩ hkeeps
    exact ⟨(step_matches_iff hmatch c).mpr hkeeps, (step_matches_iff hmatch c).mpr hkeeps⟩
  · rintro h c _ hmatch ⟨rfl⟩ hmatch'
    exact (step_matches_iff hmatch c).mp hmatch'

/-- Two tasks are registered for times 0 and 5, and a single flush at time 0 takes the first: the
one `WakeUp` call that counts is still the one for time 0. -/
theorem wakeUp_missed_after_single_flush :
    ¬ ∀ (n : ℕ) (calls : List QueueCall),
      EveryStep transition (fun _ _ h' => h'.entry.WakeUpMatches)
        (created (some ⟨[]⟩) n : QueueHistory (SortedQueue (@DelayedTask.gt ℕ))) calls := by
  intro hall
  let calls : List QueueCall := [.registerTask ⟨0⟩, .registerTask ⟨5⟩]
  let flush : QueueCall := .getTasksToRunNow .kSingle ⟨0⟩
  let left : Multiset (DelayedTask ℕ) := {⟨DelayedTask.orderOf 1, 1, ⟨5⟩⟩}
  obtain ⟨w, hw, hcalls⟩ := (hall 0 (calls ++ [flush])).at rfl rfl
  have hw : some (⟨[⟨0⟩, ⟨0⟩]⟩ : Wakeable) = some w := hw
  obtain ⟨time, htime, ⟨t, ht, hearliest⟩, _⟩ := hcalls fun h0 =>
    Multiset.singleton_ne_zero _ (show left = 0 from h0)
  obtain rfl := Multiset.mem_singleton.mp (show t ∈ left from ht)
  cases hw
  exact absurd (hearliest.trans (Option.some.inj htime).symm) (by decide)

end QueueHistory

end FFNetwork
