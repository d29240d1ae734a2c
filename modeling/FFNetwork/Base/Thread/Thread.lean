import FFNetwork.Base.MessageLoop.Shutdown

/-!
# `Thread`

A thread that has been started without a function of its own runs its loop.  Its owner hands
closures to the loop with `TaskRunner::PostTask`, and ends the thread with `Join`, which posts a
closure that calls `Terminate` and waits for the thread to return from `Run`.

A call of the owner is three steps: the task runner reads the clock, `PostTask` tests
`terminated_`, and `RegisterTask`.  Other threads and the tasks post as they like; nobody but the
closure of `Join` calls `Terminate`.

* `ThreadHistory.step` — the thread, its owner and the other posters, in time.
* **`orderly_shutdown`** — what `DoRun` has executed when it returns, and what has run when `Join`
  returns.
-/

namespace FFNetwork

open PriorityQueue StepSystem

/-- What the owner hands to the loop: a closure of its own, or the one that calls `Terminate`. -/
inductive OwnerCall where
  | closure
  | terminate

/-- Where the owner is: outside, in a `PostTask` call with this target time and behind its test or
before, in `thread_->join()`, or back. -/
inductive ThreadOwner where
  | outside
  | inCall (call : OwnerCall) (target_time : TimePoint) (tested : Bool)
  | joining
  | joined

/-- The target time of the owner's call that has passed its test. -/
def ThreadOwner.posting : ThreadOwner → List TimePoint
  | .inCall _ target_time true => [target_time]
  | _ => []

/-- The owner has not posted the closure of `Join` yet. -/
def ThreadOwner.calling : ThreadOwner → Bool
  | .outside | .inCall _ _ _ => true
  | _ => false

/-- The thread's loop, its owner, the closures that the owner has registered, how many of them
`PostTask` has dropped, and the number of the closure of `Join`. -/
structure ThreadHistory (Q : Type) where
  history : DoRunHistory Q
  owner : ThreadOwner
  handed : List ℕ
  dropped : ℕ
  terminate : Option ℕ

/-- The steps of the loop thread, of the posters and of the owner. -/
inductive ThreadAction where
  /-- A step of the loop thread, or of a poster other than the owner. -/
  | loop (a : TimedAction)
  /-- `TaskRunner::PostTask` reads the clock. -/
  | call (call : OwnerCall) (now : TimePoint)
  /-- `MessageLoopImpl::PostTask` tests `terminated_`. -/
  | test (now : TimePoint)
  | register (now : TimePoint)
  /-- `thread_->join()` returns. -/
  | joinReturns

namespace ThreadHistory

variable {Q : Type} [DelayedTaskQueue Q ℕ] {s t : ThreadHistory Q} {a : ThreadAction}

/-- `Thread::Start` has returned, after `n` registrations elsewhere. -/
def start (n : ℕ) (clock : TimePoint) : ThreadHistory Q := ⟨.create n clock, .outside, [], 0, none⟩

/-- The next task is the closure of `Join`. -/
def invokesTerminate (s : ThreadHistory Q) : Bool :=
  match s.terminate, s.history.loop.control.batch with
  | some j, i :: _ => i = j
  | _, _ => false

/-- A step of the loop thread or of another poster.  `Run` returns when it has been terminated. -/
def loopStep (s : ThreadHistory Q) (a : TimedAction) : Option (DoRunHistory Q) :=
  match a.action with
  | .doTerminate => none
  | .runReturns => if s.history.loop.terminated_ then s.history.step a else none
  | .registerTask target_time =>
      if (s.history.loop.posting.diff s.owner.posting).contains target_time then s.history.step a
      else none
  | .invoke =>
      if s.invokesTerminate then
        (s.history.step a).bind fun history => history.step ⟨.doTerminate, a.now⟩
      else s.history.step a
  | _ => s.history.step a

/-- `PostTask` has found the loop terminated. -/
def drop (s : ThreadHistory Q) : OwnerCall → ThreadHistory Q
  | .closure => { s with owner := .outside, dropped := s.dropped + 1 }
  | .terminate => { s with owner := .joining }

/-- The step function; the owner takes the parts of a call one at a time. -/
def step (s : ThreadHistory Q) : ThreadAction → Option (ThreadHistory Q)
  | .loop a => (s.loopStep a).map fun history => { s with history := history }
  | .call call now =>
      match s.owner with
      | .outside =>
          if s.history.clock ≤ now then
            some { s with history := s.history.tick now, owner := .inCall call now false }
          else none
      | _ => none
  | .test now =>
      match s.owner with
      | .inCall call target_time false =>
          if s.history.loop.terminated_ then some (s.drop call)
          else
            (s.history.step ⟨.postTask target_time, now⟩).map fun history =>
              { s with history := history, owner := .inCall call target_time true }
      | _ => none
  | .register now =>
      match s.owner with
      | .inCall call target_time true =>
          (s.history.step ⟨.registerTask target_time, now⟩).map fun history =>
            match call with
            | .closure =>
                { s with
                  history := history
                  owner := .outside
                  handed := s.handed ++ [s.history.loop.queue.registrations] }
            | .terminate =>
                { s with
                  history := history
                  owner := .joining
                  terminate := some s.history.loop.queue.registrations }
      | _ => none
  | .joinReturns =>
      match s.owner with
      | .joining =>
          if s.history.loop.control = .outside ∧ s.history.finalFlush.isSome then
            some { s with owner := .joined }
          else none
      | _ => none

/-- What a step can do. -/
inductive Moves (s : ThreadHistory Q) : ThreadAction → ThreadHistory Q → Prop
  | loop {a : TimedAction} {history : DoRunHistory Q} (hstep : s.history.step a = some history)
      (hterminate : a.action ≠ .doTerminate)
      (hreturns : a.action = .runReturns → s.history.loop.terminated_ = true) :
      s.Moves (.loop a) { s with history := history }
  | invokeTerminate {a : TimedAction} {history history' : DoRunHistory Q} {j : ℕ}
      (hstep : s.history.step a = some history) (haction : a.action = .invoke)
      (hj : s.terminate = some j) (hexecuted : j ∈ history.loop.executed)
      (hstep' : history.step ⟨.doTerminate, a.now⟩ = some history') :
      s.Moves (.loop a) { s with history := history' }
  | call {call : OwnerCall} {now : TimePoint} (howner : s.owner = .outside)
      (hclock : s.history.clock ≤ now) :
      s.Moves (.call call now)
        { s with history := s.history.tick now, owner := .inCall call now false }
  | testTerminated {call : OwnerCall} {target_time now : TimePoint}
      (howner : s.owner = .inCall call target_time false)
      (hterm : s.history.loop.terminated_ = true) : s.Moves (.test now) (s.drop call)
  | test {call : OwnerCall} {target_time now : TimePoint} {history : DoRunHistory Q}
      (howner : s.owner = .inCall call target_time false)
      (hstep : s.history.step ⟨.postTask target_time, now⟩ = some history) :
      s.Moves (.test now)
        { s with history := history, owner := .inCall call target_time true }
  | registerClosure {target_time now : TimePoint} {history : DoRunHistory Q}
      (howner : s.owner = .inCall .closure target_time true)
      (hstep : s.history.step ⟨.registerTask target_time, now⟩ = some history) :
      s.Moves (.register now)
        { s with
          history := history
          owner := .outside
          handed := s.handed ++ [s.history.loop.queue.registrations] }
  | registerTerminate {target_time now : TimePoint} {history : DoRunHistory Q}
      (howner : s.owner = .inCall .terminate target_time true)
      (hstep : s.history.step ⟨.registerTask target_time, now⟩ = some history) :
      s.Moves (.register now)
        { s with
          history := history
          owner := .joining
          terminate := some s.history.loop.queue.registrations }
  | joinReturns (howner : s.owner = .joining) (hout : s.history.loop.control = .outside)
      (hflush : s.history.finalFlush.isSome = true) :
      s.Moves .joinReturns { s with owner := .joined }

lemma executed_of_invoke {h h' : DoRunHistory Q} {now : TimePoint} {i : ℕ} {batch : List ℕ}
    (hbatch : h.loop.control.batch = i :: batch) (hstep : h.step ⟨.invoke, now⟩ = some h') :
    i ∈ h'.loop.executed := by
  rcases DoRunHistory.step_eq_some hstep with ⟨_, _, _, hloop, _⟩
  generalize h'.loop = loop at hloop ⊢
  cases LoopImpl.moves_of_step hloop with
  | invoke hserving =>
      simp only [hserving, LoopControl.batch, List.cons.injEq] at hbatch
      simp [hbatch.1]
  | invokeLast hfinishing =>
      simp only [hfinishing, LoopControl.batch, List.cons.injEq] at hbatch
      simp [hbatch.1]

lemma moves_of_loopStep {a : TimedAction} {history : DoRunHistory Q}
    (ht : s.loopStep a = some history) : s.Moves (.loop a) { s with history := history } := by
  rcases a with ⟨action, now⟩
  cases action with
  | doTerminate => cases ht
  | runReturns =>
      simp only [loopStep, Option.ite_none_right_eq_some] at ht
      exact .loop ht.2 (by simp) fun _ => ht.1
  | registerTask target_time =>
      simp only [loopStep, Option.ite_none_right_eq_some] at ht
      exact .loop ht.2 (by simp) (by simp)
  | invoke =>
      simp only [loopStep] at ht
      split at ht
      · next hinvokes =>
          rcases Option.bind_eq_some_iff.mp ht with ⟨history', hstep, hstep'⟩
          simp only [invokesTerminate] at hinvokes
          split at hinvokes
          · next j i batch hj hbatch =>
              have hij : i = j := by simpa using hinvokes
              exact .invokeTerminate hstep rfl hj (hij ▸ executed_of_invoke hbatch hstep) hstep'
          · cases hinvokes
      · exact .loop ht (by simp) (by simp)
  | _ => exact .loop ht (by simp) (by simp)

lemma moves_of_step (ht : s.step a = some t) : s.Moves a t := by
  cases a with
  | loop a =>
      rcases Option.map_eq_some_iff.mp ht with ⟨history, hstep, rfl⟩
      exact moves_of_loopStep hstep
  | call call now =>
      simp only [step] at ht
      split at ht
      · simp only [Option.ite_none_right_eq_some, Option.some.injEq] at ht
        rcases ht with ⟨hclock, rfl⟩
        exact .call ‹_› hclock
      · cases ht
  | test now =>
      simp only [step] at ht
      split at ht
      · split at ht
        · cases ht
          exact .testTerminated ‹_› ‹_›
        · rcases Option.map_eq_some_iff.mp ht with ⟨history, hstep, rfl⟩
          exact .test ‹_› hstep
      · cases ht
  | register now =>
      simp only [step] at ht
      split at ht
      · next call target_time howner =>
          rcases Option.map_eq_some_iff.mp ht with ⟨history, hstep, rfl⟩
          cases call with
          | closure => exact .registerClosure howner hstep
          | terminate => exact .registerTerminate howner hstep
      · cases ht
  | joinReturns =>
      simp only [step] at ht
      split at ht
      · simp only [Option.ite_none_right_eq_some, Option.some.injEq] at ht
        rcases ht with ⟨⟨hout, hflush⟩, rfl⟩
        exact .joinReturns ‹_› hout hflush
      · cases ht

/-! ## The closures are registered before the one of `Join` -/

/-- Nobody terminates the loop before the closure of `Join` has, which is registered behind all
closures of the owner and is due no earlier. -/
structure InOrder (s : ThreadHistory Q) : Prop where
  onTime : s.history.OnTime
  ending : s.history.Ending
  terminated : s.history.loop.terminated_ = true →
    ∃ j, s.terminate = some j ∧ j ∈ s.history.loop.executed
  calling : s.owner.calling = true → s.terminate = none
  dropped : s.dropped = 0
  handed : ∀ i ∈ s.handed,
    i ∈ s.history.loop.queue.registered ∧ s.history.target i ≤ s.history.clock
  inCall : ∀ call target_time tested, s.owner = .inCall call target_time tested →
    target_time ≤ s.history.clock ∧ ∀ i ∈ s.handed, s.history.target i ≤ target_time
  terminate : ∀ j, s.terminate = some j → j ∈ s.history.loop.queue.registered ∧
    ∀ i ∈ s.handed, s.history.target i ≤ s.history.target j
  flushed : ∀ now registered, s.history.finalFlush = some (now, registered) →
    ∀ i ∈ s.handed, i ∈ registered

lemma inOrder_start (n : ℕ) (clock : TimePoint) : (start n clock : ThreadHistory Q).InOrder where
  onTime := DoRunHistory.onTime_create n clock
  ending := DoRunHistory.ending_create n clock
  terminated hterm := by simp [start, DoRunHistory.create, LoopImpl.create] at hterm
  calling _ := rfl
  dropped := rfl
  handed i hi := by simp [start] at hi
  inCall _ _ _ howner := by cases howner
  terminate j hj := by cases hj
  flushed _ _ hflush := by cases hflush

/-- As long as the owner is not joining, the loop is not terminated. -/
lemma InOrder.running (hs : s.InOrder) (hcalling : s.owner.calling = true) :
    s.history.loop.terminated_ = false ∧ s.history.finalFlush = none := by
  have hterm : s.history.loop.terminated_ ≠ true := by
    intro hterm
    rcases hs.terminated hterm with ⟨j, hj, _⟩
    rw [hs.calling hcalling] at hj
    cases hj
  refine ⟨Bool.eq_false_iff.mpr hterm, ?_⟩
  cases hflush : s.history.finalFlush with
  | none => rfl
  | some flush => exact absurd (hs.ending.after flush.1 flush.2 hflush).terminated hterm

/-- A step of the history keeps the order, if the loop is terminated by the closure of `Join`
only. -/
lemma InOrder.loop (hs : s.InOrder) {history : DoRunHistory Q} (hext : s.history.Extends history)
    (onTime : history.OnTime) (ending : history.Ending)
    (terminated : history.loop.terminated_ = true →
      ∃ j, s.terminate = some j ∧ j ∈ history.loop.executed)
    (flushed : ∀ now registered, history.finalFlush = some (now, registered) →
      ∀ i ∈ s.handed, i ∈ registered) :
    InOrder { s with history := history } where
  onTime := onTime
  ending := ending
  terminated := terminated
  calling := hs.calling
  dropped := hs.dropped
  handed i hi := by
    rcases hs.handed i hi with ⟨hreg, hdue⟩
    refine ⟨hext.registered i hreg, ?_⟩
    rw [hext.target i hreg]
    exact le_trans hdue hext.clock
  inCall call target_time tested howner := by
    rcases hs.inCall call target_time tested howner with ⟨hclock, htarget⟩
    refine ⟨le_trans hclock hext.clock, fun i hi => ?_⟩
    rw [hext.target i (hs.handed i hi).1]
    exact htarget i hi
  terminate j hj := by
    rcases hs.terminate j hj with ⟨hreg, htarget⟩
    refine ⟨hext.registered j hreg, fun i hi => ?_⟩
    rw [hext.target i (hs.handed i hi).1, hext.target j hreg]
    exact htarget i hi
  flushed := flushed

/-- A final flush sees the closures of the owner. -/
lemma InOrder.flushed_step (hs : s.InOrder) {a : TimedAction} {history : DoRunHistory Q}
    (hstep : s.history.step a = some history) (now : TimePoint) (registered : List ℕ)
    (hflush : history.finalFlush = some (now, registered)) : ∀ i ∈ s.handed, i ∈ registered := by
  rcases DoRunHistory.finalFlush_step hstep with hsame | ⟨_, now', hnew⟩
  · exact hs.flushed now registered (hsame ▸ hflush)
  · rw [hflush, Option.some.injEq, Prod.mk.injEq] at hnew
    rw [hnew.2]
    exact fun i hi => (hs.handed i hi).1

/-- A step of the loop thread or of a poster other than the closure of `Join`. -/
lemma InOrder.loopStep (hs : s.InOrder) {a : TimedAction} {history : DoRunHistory Q}
    (hstep : s.history.step a = some history) (hterminate : a.action ≠ .doTerminate)
    (hreturns : a.action = .runReturns → s.history.loop.terminated_ = true) :
    InOrder { s with history := history } := by
  have hext := DoRunHistory.extends_step hs.onTime hstep
  refine hs.loop hext (DoRunHistory.onTime_step hs.onTime hstep)
    (DoRunHistory.ending_step hs.onTime hs.ending hstep) ?_ (hs.flushed_step hstep)
  intro hterm
  have hbefore : s.history.loop.terminated_ = true := by
    by_cases hreturn : a.action = .runReturns
    · exact hreturns hreturn
    · exact DoRunHistory.terminated_step hstep hterminate hreturn ▸ hterm
  rcases hs.terminated hbefore with ⟨j, hj, hexecuted⟩
  exact ⟨j, hj, hext.executed j hexecuted⟩

/-- What a registration by the owner adds. -/
lemma registerTask_step {h h' : DoRunHistory Q} {target_time now : TimePoint}
    (hstep : h.step ⟨.registerTask target_time, now⟩ = some h') :
    h'.loop.queue.registered = h.loop.queue.registered ++ [h.loop.queue.registrations] ∧
      h'.target h.loop.queue.registrations = target_time := by
  rcases DoRunHistory.step_eq_some hstep with ⟨_, _, _, hloop, hrecord⟩
  generalize h'.loop = loop at hloop hrecord
  subst hrecord
  cases LoopImpl.moves_of_step hloop with
  | registerTask _ => exact ⟨rfl, by simp [DoRunHistory.record]⟩

theorem inOrder_step (s : ThreadHistory Q) (a : ThreadAction) (t : ThreadHistory Q)
    (hs : s.InOrder) (ht : s.step a = some t) : t.InOrder := by
  cases moves_of_step ht with
  | loop hstep hterminate hreturns => exact hs.loopStep hstep hterminate hreturns
  | @invokeTerminate a history history' j hstep haction hj hexecuted hstep' =>
      have hs' := hs.loopStep hstep (by simp [haction]) (by simp [haction])
      have hext := DoRunHistory.extends_step hs'.onTime hstep'
      exact hs'.loop hext (DoRunHistory.onTime_step hs'.onTime hstep')
        (DoRunHistory.ending_step hs'.onTime hs'.ending hstep')
        (fun _ => ⟨j, hj, hext.executed j hexecuted⟩) (hs'.flushed_step hstep')
  | call howner hclock =>
      refine ⟨hs.onTime.tick hclock, hs.ending.tick _, hs.terminated, ?_, hs.dropped, ?_, ?_,
        hs.terminate, hs.flushed⟩
      · exact fun _ => hs.calling (by rw [howner]; rfl)
      · exact fun i hi => ⟨(hs.handed i hi).1, le_trans (hs.handed i hi).2 hclock⟩
      · rintro call target_time tested ⟨⟩
        exact ⟨le_refl _, fun i hi => le_trans (hs.handed i hi).2 hclock⟩
  | testTerminated howner hterm =>
      have hrunning := (hs.running (by rw [howner]; rfl)).1
      rw [hrunning] at hterm
      cases hterm
  | test howner hstep =>
      have hs' := hs.loopStep hstep (by simp) (by simp)
      refine ⟨hs'.onTime, hs'.ending, hs'.terminated, ?_, hs'.dropped, hs'.handed, ?_,
        hs'.terminate, hs'.flushed⟩
      · exact fun _ => hs.calling (by rw [howner]; rfl)
      · rintro call target_time tested ⟨⟩
        exact hs'.inCall _ _ _ howner
  | @registerClosure target_time now history howner hstep =>
      have hcalling : s.owner.calling = true := by rw [howner]; rfl
      have hs' := hs.loopStep hstep (by simp) (by simp)
      have hrunning := hs'.running hcalling
      rcases registerTask_step hstep with ⟨hregistered, htarget⟩
      have hcall := hs'.inCall _ _ _ howner
      refine ⟨hs'.onTime, hs'.ending, hs'.terminated, fun _ => hs.calling hcalling, hs'.dropped,
        ?_, ?_, ?_, ?_⟩
      · intro i hi
        rcases List.mem_append.mp hi with hi | hi
        · exact hs'.handed i hi
        · rw [List.mem_singleton] at hi
          subst hi
          simp only [hregistered, htarget]
          exact ⟨by simp, hcall.1⟩
      · intro _ _ _ howner'
        cases howner'
      · intro j hj
        rw [hs.calling hcalling] at hj
        cases hj
      · intro now registered hflush
        rw [hrunning.2] at hflush
        cases hflush
  | @registerTerminate target_time now history howner hstep =>
      have hcalling : s.owner.calling = true := by rw [howner]; rfl
      have hs' := hs.loopStep hstep (by simp) (by simp)
      have hrunning := hs'.running hcalling
      rcases registerTask_step hstep with ⟨hregistered, htarget⟩
      have hcall := hs'.inCall _ _ _ howner
      refine ⟨hs'.onTime, hs'.ending, ?_, ?_, hs'.dropped, hs'.handed, ?_, ?_, hs'.flushed⟩
      · intro hterm
        rw [hrunning.1] at hterm
        cases hterm
      · intro hjoining
        cases hjoining
      · intro _ _ _ howner'
        cases howner'
      · rintro j ⟨⟩
        simp only [hregistered, htarget]
        exact ⟨by simp, hcall.2⟩
  | joinReturns howner hout hflush =>
      refine ⟨hs.onTime, hs.ending, hs.terminated, ?_, hs.dropped, hs.handed, ?_, hs.terminate,
        hs.flushed⟩
      · intro hjoined
        cases hjoined
      · intro _ _ _ howner'
        cases howner'

/-! ## What has run when `Join` returns -/

/-- The closure of `Join` has run, so it was due at the final flush, and with it every closure of
the owner. -/
lemma InOrder.due (hs : s.InOrder) {now : TimePoint} {registered : List ℕ}
    (hflush : s.history.finalFlush = some (now, registered)) {i : ℕ} (hi : i ∈ s.handed) :
    i ∈ registered ∧ s.history.target i ≤ now := by
  have hf := hs.ending.after now registered hflush
  rcases hs.terminated hf.terminated with ⟨j, hj, hexecuted⟩
  have hdue := hf.due j (hs.onTime.handedOut_of_executed hexecuted)
  exact ⟨hs.flushed now registered hflush i hi, le_trans ((hs.terminate j hj).2 i hi) hdue⟩

lemma InOrder.joinReturns (hs : s.InOrder) (ht : s.step .joinReturns = some t) :
    s.dropped = 0 ∧ ∀ i ∈ s.handed, s.history.loop.executed.count i = 1 := by
  cases moves_of_step ht with
  | joinReturns _ hout hsome =>
      rcases Option.isSome_iff_exists.mp hsome with ⟨⟨now, registered⟩, hflush⟩
      have horderly := hs.onTime.orderly hs.ending hout hflush
      refine ⟨hs.dropped, fun i hi => ?_⟩
      rcases hs.due hflush hi with ⟨hregistered, hdue⟩
      exact horderly.once i hregistered hdue

/-- When `DoRun` has returned, all that was registered before the final flush and due at it has been
executed once, nothing before its time, and nothing due later than the final flush.  So when `Join`
returns, `PostTask` has dropped no closure of the owner, and each has run once. -/
theorem orderly_shutdown :
    (∀ (n : ℕ) (clock : TimePoint) (acts : List TimedAction) (s : DoRunHistory Q)
        (now : TimePoint) (registered : List ℕ),
      run DoRunHistory.step (DoRunHistory.create n clock) acts = some s →
        s.loop.control = .outside → s.finalFlush = some (now, registered) →
          s.Orderly now registered) ∧
      ∀ (n : ℕ) (clock : TimePoint) (acts : List ThreadAction) (s t : ThreadHistory Q),
        run step (start n clock) acts = some s → s.step .joinReturns = some t →
          s.dropped = 0 ∧ ∀ i ∈ s.handed, s.history.loop.executed.count i = 1 := by
  constructor
  · intro n clock acts s now registered hrun hout hflush
    rcases DoRunHistory.invariant_run hrun with ⟨honTime, hending⟩
    exact honTime.orderly hending hout hflush
  · intro n clock acts s t hrun ht
    have hs : s.InOrder := run_invariant inOrder_step (inOrder_start n clock) hrun
    exact hs.joinReturns ht

/-- A task posted at 3 is left to the final flush at 5. -/
def postedTask : List TimedAction :=
  [⟨.doRun, ⟨0⟩⟩, ⟨.postTask ⟨3⟩, ⟨3⟩⟩, ⟨.registerTask ⟨3⟩, ⟨3⟩⟩, ⟨.doTerminate, ⟨4⟩⟩,
    ⟨.runReturns, ⟨4⟩⟩, ⟨.runExpiredTasksNow ⟨5⟩, ⟨5⟩⟩, ⟨.invoke, ⟨6⟩⟩, ⟨.disposeTasks, ⟨7⟩⟩]

/-- A closure posted at 3 runs in the batch at 5, the closure of `Join` in the one at 8. -/
def postedClosure : List ThreadAction :=
  [.loop ⟨.doRun, ⟨0⟩⟩, .call .closure ⟨3⟩, .test ⟨3⟩, .register ⟨4⟩,
    .loop ⟨.onEventFired ⟨5⟩, ⟨5⟩⟩, .loop ⟨.invoke, ⟨5⟩⟩, .loop ⟨.flushed, ⟨6⟩⟩,
    .call .terminate ⟨7⟩, .test ⟨7⟩, .register ⟨7⟩, .loop ⟨.onEventFired ⟨8⟩, ⟨8⟩⟩,
    .loop ⟨.invoke, ⟨8⟩⟩, .loop ⟨.flushed, ⟨8⟩⟩, .loop ⟨.runReturns, ⟨8⟩⟩,
    .loop ⟨.runExpiredTasksNow ⟨9⟩, ⟨9⟩⟩, .loop ⟨.disposeTasks, ⟨9⟩⟩]

theorem closure_runs_before_join :
    (∃ s : DoRunHistory (SortedQueue (@DelayedTask.gt ℕ)),
      run DoRunHistory.step (DoRunHistory.create 0 ⟨0⟩) postedTask = some s ∧
        s.Orderly ⟨5⟩ [0]) ∧
      ∃ s t : ThreadHistory (SortedQueue (@DelayedTask.gt ℕ)),
        run step (start 0 ⟨0⟩) postedClosure = some s ∧ s.step .joinReturns = some t ∧
          s.handed = [0] ∧ s.dropped = 0 ∧
            ∀ i ∈ s.handed, s.history.loop.executed.count i = 1 := by
  constructor
  · have hrun : (run DoRunHistory.step
        (DoRunHistory.create 0 ⟨0⟩ : DoRunHistory (SortedQueue (@DelayedTask.gt ℕ)))
        postedTask).map (fun s => (s.loop.control, s.finalFlush)) =
          some (.outside, some (⟨5⟩, [0])) := rfl
    rcases Option.map_eq_some_iff.mp hrun with ⟨s, hs, hend⟩
    rw [Prod.mk.injEq] at hend
    exact ⟨s, hs, orderly_shutdown.1 0 ⟨0⟩ postedTask s ⟨5⟩ [0] hs hend.1 hend.2⟩
  · have hrun : (run step (start 0 ⟨0⟩ : ThreadHistory (SortedQueue (@DelayedTask.gt ℕ)))
        postedClosure).map (fun s => ((s.step .joinReturns).isSome, s.handed)) =
          some (true, [0]) := rfl
    rcases Option.map_eq_some_iff.mp hrun with ⟨s, hs, hend⟩
    rw [Prod.mk.injEq] at hend
    rcases Option.isSome_iff_exists.mp hend.1 with ⟨t, ht⟩
    exact ⟨s, t, hs, ht, hend.2, orderly_shutdown.2 0 ⟨0⟩ postedClosure s t hs ht⟩

end ThreadHistory

end FFNetwork
