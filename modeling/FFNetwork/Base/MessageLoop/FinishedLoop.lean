import FFNetwork.Base.MessageLoop.LoopImpl

/-!
# A loop that has finished

`DoRun` sets `terminated_`, runs what is due and throws away the rest, and `PostTask` registers
nothing on a loop that it has found terminated.  Its test and its `RegisterTask` are two steps, so
a post that has passed the test before can still register after.

* `FinishedLoop.step` — a loop that is run by `DoRun`, with any number of posters.
* **`finished_stays_empty_iff`** — when the queue of a finished loop stays empty.
-/

namespace FFNetwork

open PriorityQueue StepSystem

/-- A loop, and whether a `DoRun` call has returned. -/
structure FinishedLoop (Q : Type) where
  loop : LoopImpl Q
  doRunReturned : Bool

namespace FinishedLoop

variable {Q : Type} [DelayedTaskQueue Q ℕ] {s t : FinishedLoop Q} {a : LoopAction}

/-- A new loop, after `n` registrations elsewhere. -/
def create (n : ℕ) : FinishedLoop Q := ⟨.create n, false⟩

/-- `DoRun` returns behind `DisposeTasks`, or at once when the loop is terminated. -/
def returnsIn (s : FinishedLoop Q) : LoopAction → Bool
  | .doRun => s.loop.terminated_
  | .disposeTasks => true
  | _ => false

/-- The steps of a loop that is only ever run by `DoRun`. -/
def step (s : FinishedLoop Q) : LoopAction → Option (FinishedLoop Q)
  | .doRunForTime => none
  | a => (s.loop.step a).map fun loop => ⟨loop, s.doRunReturned || s.returnsIn a⟩

lemma step_eq_some (ht : s.step a = some t) :
    a ≠ .doRunForTime ∧ s.loop.step a = some t.loop ∧
      t.doRunReturned = (s.doRunReturned || s.returnsIn a) := by
  cases a with
  | doRunForTime => cases ht
  | _ =>
      simp only [step, Option.map_eq_some_iff] at ht
      rcases ht with ⟨loop, hloop, rfl⟩
      exact ⟨by simp, hloop, rfl⟩

/-- The queue is empty, and stays empty in every later state. -/
def StaysEmpty (s : FinishedLoop Q) : Prop :=
  s.loop.queue.pendingTasks = 0 ∧
    ∀ more, EveryStep step (fun _ _ t => t.loop.queue.pendingTasks = 0) s more

/-- No `PostTask` call is between its test and its `RegisterTask` when `DoRun` disposes of the
tasks.  A `DoRun` that returns at once finds no such call either, and no task. -/
def FinishesAlone (s : FinishedLoop Q) : LoopAction → Prop
  | .disposeTasks => s.loop.posting = []
  | .doRun => s.loop.terminated_ = true →
      s.loop.posting = [] ∧ s.loop.queue.pendingTasks = 0
  | _ => True

/-! ## A quiet loop stays quiet -/

/-- Nothing is left that could register a task. -/
structure Quiet (s : FinishedLoop Q) : Prop where
  terminated : s.loop.terminated_ = true
  outside : s.loop.control = .outside
  alone : s.loop.posting = []
  empty : s.loop.queue.pendingTasks = 0

lemma quiet_step (s : FinishedLoop Q) (a : LoopAction) (t : FinishedLoop Q) (hq : s.Quiet)
    (ht : s.step a = some t) : t.Quiet := by
  rcases step_eq_some ht with ⟨_, hloop, _⟩
  rcases t with ⟨loop, returned⟩
  have hout := hq.outside
  cases LoopImpl.moves_of_step hloop with
  | doRunTerminated _ _ => exact ⟨hq.terminated, hout, hq.alone, hq.empty⟩
  | doRunForTimeTerminated _ _ => exact ⟨hq.terminated, hout, hq.alone, hq.empty⟩
  | doRun _ hterm => simp [hq.terminated] at hterm
  | doRunForTime _ hterm => simp [hq.terminated] at hterm
  | onEventFired hwait => simp [hout] at hwait
  | invoke hserving => simp [hout] at hserving
  | invokeLast hfinishing => simp [hout] at hfinishing
  | flushed hserving => simp [hout] at hserving
  | runReturns hwait => simp [hout] at hwait
  | runForTimeReturns hwait => simp [hout] at hwait
  | runExpiredTasksNow hreturned => simp [hout] at hreturned
  | disposeTasks hfinishing => simp [hout] at hfinishing
  | doTerminate => exact ⟨rfl, hout, hq.alone, hq.empty⟩
  | postTaskTerminated _ => exact ⟨hq.terminated, hout, hq.alone, hq.empty⟩
  | postTask hterm => simp [hq.terminated] at hterm
  | registerTask hposting => simp [hq.alone] at hposting
  | registerElsewhere => exact ⟨hq.terminated, hout, hq.alone, hq.empty⟩

lemma Quiet.staysEmpty (hq : s.Quiet) : s.StaysEmpty := by
  refine ⟨hq.empty, fun more => ?_⟩
  refine EveryStep.of_keep (I := Quiet) ?_ hq (everyStep_true s more)
  intro s a t hq ht _
  have hq' := quiet_step s a t hq ht
  exact ⟨hq', hq'.empty⟩

/-! ## Reaching the end -/

/-- `DoRun` has set `terminated_` when it comes to its last steps, and a loop whose `DoRun` has
returned is quiet. -/
structure Finishing (s : FinishedLoop Q) : Prop where
  terminated : (s.loop.control = .returned ∨ ∃ batch, s.loop.control = .finishing batch) →
    s.loop.terminated_ = true
  notForTime : s.loop.control ≠ .waiting .doRunForTime ∧
    ∀ batch, s.loop.control ≠ .serving .doRunForTime batch
  quiet : s.doRunReturned = true → s.Quiet

lemma finishing_create (n : ℕ) : (create n : FinishedLoop Q).Finishing where
  terminated hlast := by simp [create, LoopImpl.create] at hlast
  notForTime := by simp [create, LoopImpl.create]
  quiet hreturned := by simp [create] at hreturned

lemma Quiet.finishing (hq : s.Quiet) : s.Finishing where
  terminated _ := hq.terminated
  notForTime := by simp [hq.outside]
  quiet _ := hq

theorem finishing_step (hf : s.Finishing) (ht : s.step a = some t) (halone : s.FinishesAlone a) :
    t.Finishing := by
  by_cases hreturned : s.doRunReturned = true
  · exact (quiet_step s a t (hf.quiet hreturned) ht).finishing
  · rcases step_eq_some ht with ⟨hslice, hloop, hreturns⟩
    rw [Bool.not_eq_true] at hreturned
    rw [hreturned, Bool.false_or] at hreturns
    rcases t with ⟨loop, returned⟩
    simp only at hloop hreturns
    subst hreturns
    have hterm := hf.terminated
    have hnot := LoopImpl.notForTime_step hf.notForTime hslice hloop
    cases LoopImpl.moves_of_step hloop with
    | doRunTerminated hout hterminated =>
        rcases halone hterminated with ⟨hposting, hempty⟩
        exact Quiet.finishing ⟨hterminated, hout, hposting, hempty⟩
    | doRunForTimeTerminated => exact absurd rfl hslice
    | doRunForTime => exact absurd rfl hslice
    | doRun hout hterminated => exact ⟨by simp, hnot, by simp [returnsIn, hterminated]⟩
    | onEventFired _ => exact ⟨by simp, hnot, by simp [returnsIn]⟩
    | invoke _ => exact ⟨by simp, hnot, by simp [returnsIn]⟩
    | invokeLast hfinishing =>
        exact ⟨fun _ => hterm (Or.inr ⟨_, hfinishing⟩), hnot, by simp [returnsIn]⟩
    | flushed _ => exact ⟨by simp, hnot, by simp [returnsIn]⟩
    | runReturns _ => exact ⟨fun _ => rfl, hnot, by simp [returnsIn]⟩
    | runForTimeReturns hwait => exact absurd hwait hf.notForTime.1
    | runExpiredTasksNow hlast =>
        exact ⟨fun _ => hterm (Or.inl hlast), hnot, by simp [returnsIn]⟩
    | disposeTasks hfinishing =>
        refine Quiet.finishing ⟨hterm (Or.inr ⟨_, hfinishing⟩), rfl, halone, ?_⟩
        simp [QueueHistory.pendingTasks, QueueHistory.step]
    | doTerminate => exact ⟨fun _ => rfl, hnot, by simp [returnsIn]⟩
    | postTaskTerminated _ => exact ⟨hterm, hnot, by simp [returnsIn]⟩
    | postTask _ => exact ⟨hterm, hnot, by simp [returnsIn]⟩
    | registerTask _ => exact ⟨hterm, hnot, by simp [returnsIn]⟩
    | registerElsewhere => exact ⟨hterm, hnot, by simp [returnsIn]⟩

/-- A call between its two steps can still register its task. -/
lemma StaysEmpty.posting (hstays : s.StaysEmpty) : s.loop.posting = [] := by
  cases hposting : s.loop.posting with
  | nil => rfl
  | cons target_time posting =>
      have hstep : s.step (.registerTask target_time) = some ⟨{ s.loop with
          queue := s.loop.queue.step (.registerTask target_time)
          posting := s.loop.posting.erase target_time }, s.doRunReturned || false⟩ := by
        simp [step, LoopImpl.step, hposting, returnsIn]
      have hempty := (hstays.2 [.registerTask target_time] _ hstep).1
      simp [QueueHistory.pendingTasks, QueueHistory.step] at hempty

lemma finishesAlone_of_staysEmpty (ht : s.step a = some t)
    (hstays : t.doRunReturned = true → t.StaysEmpty) : s.FinishesAlone a := by
  rcases step_eq_some ht with ⟨_, hloop, hreturns⟩
  rcases t with ⟨loop, returned⟩
  simp only at hloop hreturns
  cases LoopImpl.moves_of_step hloop with
  | disposeTasks hfinishing =>
      have hempty := hstays (by simp [hreturns, returnsIn])
      exact hempty.posting
  | doRunTerminated hout hterminated =>
      intro _
      have hempty := hstays (by simp [hreturns, returnsIn, hterminated])
      exact ⟨hempty.posting, hempty.1⟩
  | doRun hout hterminated =>
      intro hterminated'
      simp [hterminated] at hterminated'
  | _ => trivial

/-- **When the queue of a finished loop stays empty.**  In every interleaving of one or more `DoRun`
calls with posts and terminations from any thread: once a `DoRun` has returned the queue is empty
and stays empty, if and only if no `PostTask` call is between its test and its `RegisterTask` when
`DoRun` disposes of the tasks, and a `DoRun` that finds the loop terminated finds neither such a
call nor a task. -/
theorem finished_stays_empty_iff (n : ℕ) (acts : List LoopAction) :
    EveryStep step (fun _ _ t => t.doRunReturned = true → t.StaysEmpty)
        (create n : FinishedLoop Q) acts ↔
      EveryStep step (fun s a _ => s.FinishesAlone a) (create n : FinishedLoop Q) acts := by
  refine everyStep_iff (I := Finishing) ?_ ?_ (finishing_create n)
  · intro s a t hf ht halone
    have hf' := finishing_step hf ht halone
    exact ⟨hf', fun hreturned => (hf'.quiet hreturned).staysEmpty⟩
  · intro s a t _ ht hstays
    exact finishesAlone_of_staysEmpty ht hstays

/-- A post passes its test before the loop finishes, and registers its task after. -/
theorem late_registration :
    ¬ ∀ (n : ℕ) (acts : List LoopAction),
      EveryStep step (fun _ _ t => t.doRunReturned = true → t.loop.queue.pendingTasks = 0)
        (create n : FinishedLoop (SortedQueue (@DelayedTask.gt ℕ))) acts := by
  intro hall
  let acts : List LoopAction := [.doRun, .postTask ⟨0⟩, .runReturns, .runExpiredTasksNow ⟨1⟩,
    .disposeTasks]
  have hempty := (hall 0 (acts ++ [.registerTask ⟨0⟩])).at rfl rfl rfl
  exact absurd hempty (by decide)

end FinishedLoop

end FFNetwork
