import FFNetwork.Lib.CondVar
import FFNetwork.Lib.Potential

/-!
# `Thread::Start`

`source/base/thread/thread.cpp`: `Start` waits on its own stack for the new thread, which hands over
the task runner of its loop through a reference and signals an event that is on that stack, too.
`Signal` notifies while it holds the event's mutex, so when `Wait` returns the new thread has only
unlocked behind it.

* `ThreadStart.step` — `Start` and the new thread, step by step.
* `Sound` — what holds between the mutex, the flag, the runner and the two threads; `sound_step`.
* **`start_hands_over`** — the new thread never touches the stack of a `Start` that has returned,
  which has the task runner of the new thread's loop.
* **`start_returns`** — the two threads never block each other, and take a bounded number of steps.
-/

namespace FFNetwork

open StepSystem

/-! ## The two threads -/

/-- The threads that lock the event's mutex. -/
inductive StartParty where
  | starter
  | thread
  deriving DecidableEq

/-- Where `Start` is: before it locks in `ev.Wait()`, at the test of `signaled_`, in `cv_.wait`,
behind a test that has ended the loop, behind `Wait`, or back. -/
inductive StarterProgress where
  | started
  | testing
  | waiting
  | leaving
  | waited
  | returned
  deriving DecidableEq

/-- What the new thread does in the end. -/
inductive ThreadBody (Closure : Type) where
  | threadFunc (thread_func : Closure)
  | loopRun

/-- Where the new thread is: before `EnsureInitializedForCurrentThread`, behind it with the task
runner of its loop, behind the assignment of `task_runner`, in `ev.Signal()`, or in its body. -/
inductive ThreadProgress (Runner Closure : Type) where
  | created
  | initialized (runner : Runner)
  | runnerSet (runner : Runner)
  | locked (runner : Runner)
  | signaled (runner : Runner)
  | notified (runner : Runner)
  | unlocked (runner : Runner)
  | running (runner : Runner) (body : ThreadBody Closure)

section Progress

variable {Runner Closure : Type}

/-- `Start` holds the mutex. -/
def StarterProgress.holds : StarterProgress → Bool
  | .testing | .leaving => true
  | _ => false

/-- `Start` has seen the flag. -/
def StarterProgress.seen : StarterProgress → Bool
  | .leaving | .waited | .returned => true
  | _ => false

/-- The new thread holds the mutex. -/
def ThreadProgress.holds : ThreadProgress Runner Closure → Bool
  | .locked _ | .signaled _ | .notified _ => true
  | _ => false

/-- The task runner of the thread's loop, once it has been assigned to `task_runner`. -/
def ThreadProgress.assigned : ThreadProgress Runner Closure → Option Runner
  | .created | .initialized _ => none
  | .runnerSet r | .locked r | .signaled r | .notified r | .unlocked r | .running r _ => some r

/-- The new thread has set `signaled_`. -/
def ThreadProgress.raised : ThreadProgress Runner Closure → Bool
  | .signaled _ | .notified _ | .unlocked _ | .running _ _ => true
  | _ => false

/-- The new thread is behind `notify_one`. -/
def ThreadProgress.hasNotified : ThreadProgress Runner Closure → Bool
  | .notified _ | .unlocked _ | .running _ _ => true
  | _ => false

/-- The new thread is done with the stack of `Start`. -/
def ThreadProgress.done : ThreadProgress Runner Closure → Bool
  | .unlocked _ | .running _ _ => true
  | _ => false

end Progress

/-- The event, the locals and the member of a `Start` call with this `thread_func`, and where its
two threads are. -/
structure ThreadStart (Runner Closure : Type) where
  mutex_ : Option StartParty
  cv_ : CondVar Unit
  signaled_ : Bool
  task_runner : Option Runner
  task_runner_ : Option Runner
  thread_func : Option Closure
  starter : StarterProgress
  thread : ThreadProgress Runner Closure

/-- A step of `Start`, of the new thread, or a wake-up without a reason. -/
inductive StartAction (Runner : Type) where
  | lock
  | test
  | spuriousWake
  | relock
  | leave
  | takeRunner
  | ensureInitialized (runner : Runner)
  | setRunner
  | signalLocks
  | signalSets
  | signalNotifies
  | signalUnlocks
  | runBody

/-- Nobody has taken the step. -/
def StartAction.spurious {Runner : Type} : StartAction Runner → Bool
  | .spuriousWake => true
  | _ => false

/-- The step of the new thread uses the stack of `Start`. -/
def StartAction.UsesFrame {Runner : Type} : StartAction Runner → Prop
  | .setRunner | .signalLocks | .signalSets | .signalNotifies | .signalUnlocks => True
  | _ => False

namespace ThreadStart

variable {Runner Closure : Type} {s t : ThreadStart Runner Closure}

/-- `Start` has created the thread. -/
def start (thread_func : Option Closure) : ThreadStart Runner Closure :=
  ⟨none, .empty, false, none, none, thread_func, .started, .created⟩

/-- `thread_func` if there is one, and else the loop. -/
def body : Option Closure → ThreadBody Closure
  | some thread_func => .threadFunc thread_func
  | none => .loopRun

/-- `notify_one` with nobody but `Start` inside. -/
def notify (cv_ : CondVar Unit) : Option (CondVar Unit) :=
  cv_.notifyOne (if () ∈ cv_.blocked then some () else none)

/-- The state after one more step.  A thread waits for a mutex that is locked. -/
def step (s : ThreadStart Runner Closure) : StartAction Runner → Option (ThreadStart Runner Closure)
  | .lock =>
      match s.starter, s.mutex_ with
      | .started, none => some { s with mutex_ := some .starter, starter := .testing }
      | _, _ => none
  | .test =>
      match s.starter with
      | .testing =>
          if s.signaled_ then some { s with signaled_ := false, starter := .leaving }
          else some { s with mutex_ := none, cv_ := s.cv_.wait (), starter := .waiting }
      | _ => none
  | .spuriousWake =>
      match s.starter with
      | .waiting => (s.cv_.wake ()).map fun cv_ => { s with cv_ := cv_ }
      | _ => none
  | .relock =>
      match s.starter, s.mutex_ with
      | .waiting, none =>
          (s.cv_.resume ()).map fun cv_ =>
            { s with mutex_ := some .starter, cv_ := cv_, starter := .testing }
      | _, _ => none
  | .leave =>
      match s.starter with
      | .leaving => some { s with mutex_ := none, starter := .waited }
      | _ => none
  | .takeRunner =>
      match s.starter with
      | .waited => some { s with task_runner_ := s.task_runner, starter := .returned }
      | _ => none
  | .ensureInitialized runner =>
      match s.thread with
      | .created => some { s with thread := .initialized runner }
      | _ => none
  | .setRunner =>
      match s.thread with
      | .initialized runner =>
          some { s with task_runner := some runner, thread := .runnerSet runner }
      | _ => none
  | .signalLocks =>
      match s.thread, s.mutex_ with
      | .runnerSet runner, none => some { s with mutex_ := some .thread, thread := .locked runner }
      | _, _ => none
  | .signalSets =>
      match s.thread with
      | .locked runner => some { s with signaled_ := true, thread := .signaled runner }
      | _ => none
  | .signalNotifies =>
      match s.thread with
      | .signaled runner =>
          (notify s.cv_).map fun cv_ => { s with cv_ := cv_, thread := .notified runner }
      | _ => none
  | .signalUnlocks =>
      match s.thread with
      | .notified runner => some { s with mutex_ := none, thread := .unlocked runner }
      | _ => none
  | .runBody =>
      match s.thread with
      | .unlocked runner => some { s with thread := .running runner (body s.thread_func) }
      | _ => none

/-! ## What a step can do -/

/-- What a step can do. -/
inductive Moves (s : ThreadStart Runner Closure) :
    StartAction Runner → ThreadStart Runner Closure → Prop
  | lock (hstarter : s.starter = .started) (hmutex : s.mutex_ = none) :
      s.Moves .lock { s with mutex_ := some .starter, starter := .testing }
  | testSignaled (hstarter : s.starter = .testing) (hsignaled : s.signaled_ = true) :
      s.Moves .test { s with signaled_ := false, starter := .leaving }
  | testWaits (hstarter : s.starter = .testing) (hsignaled : s.signaled_ = false) :
      s.Moves .test { s with mutex_ := none, cv_ := s.cv_.wait (), starter := .waiting }
  | spuriousWake {cv_ : CondVar Unit} (hstarter : s.starter = .waiting)
      (hwake : s.cv_.wake () = some cv_) : s.Moves .spuriousWake { s with cv_ := cv_ }
  | relock {cv_ : CondVar Unit} (hstarter : s.starter = .waiting) (hmutex : s.mutex_ = none)
      (hresume : s.cv_.resume () = some cv_) :
      s.Moves .relock { s with mutex_ := some .starter, cv_ := cv_, starter := .testing }
  | leave (hstarter : s.starter = .leaving) :
      s.Moves .leave { s with mutex_ := none, starter := .waited }
  | takeRunner (hstarter : s.starter = .waited) :
      s.Moves .takeRunner { s with task_runner_ := s.task_runner, starter := .returned }
  | ensureInitialized {runner : Runner} (hthread : s.thread = .created) :
      s.Moves (.ensureInitialized runner) { s with thread := .initialized runner }
  | setRunner {runner : Runner} (hthread : s.thread = .initialized runner) :
      s.Moves .setRunner { s with task_runner := some runner, thread := .runnerSet runner }
  | signalLocks {runner : Runner} (hthread : s.thread = .runnerSet runner)
      (hmutex : s.mutex_ = none) :
      s.Moves .signalLocks { s with mutex_ := some .thread, thread := .locked runner }
  | signalSets {runner : Runner} (hthread : s.thread = .locked runner) :
      s.Moves .signalSets { s with signaled_ := true, thread := .signaled runner }
  | signalNotifies {runner : Runner} {cv_ : CondVar Unit} (hthread : s.thread = .signaled runner)
      (hnotify : notify s.cv_ = some cv_) :
      s.Moves .signalNotifies { s with cv_ := cv_, thread := .notified runner }
  | signalUnlocks {runner : Runner} (hthread : s.thread = .notified runner) :
      s.Moves .signalUnlocks { s with mutex_ := none, thread := .unlocked runner }
  | runBody {runner : Runner} (hthread : s.thread = .unlocked runner) :
      s.Moves .runBody { s with thread := .running runner (body s.thread_func) }

lemma moves_of_step {a : StartAction Runner} (ht : s.step a = some t) : s.Moves a t := by
  cases a with
  | lock =>
      simp only [step] at ht
      split at ht <;> cases ht
      exact .lock ‹_› ‹_›
  | test =>
      simp only [step] at ht
      split at ht
      · next hstarter =>
          split at ht <;> cases ht
          · exact .testSignaled hstarter ‹_›
          · exact .testWaits hstarter (Bool.eq_false_iff.mpr ‹_›)
      · cases ht
  | spuriousWake =>
      simp only [step] at ht
      split at ht
      · rcases Option.map_eq_some_iff.mp ht with ⟨cv_, hwake, rfl⟩
        exact .spuriousWake ‹_› hwake
      · cases ht
  | relock =>
      simp only [step] at ht
      split at ht
      · rcases Option.map_eq_some_iff.mp ht with ⟨cv_, hresume, rfl⟩
        exact .relock ‹_› ‹_› hresume
      · cases ht
  | signalNotifies =>
      simp only [step] at ht
      split at ht
      · rcases Option.map_eq_some_iff.mp ht with ⟨cv_, hnotify, rfl⟩
        exact .signalNotifies ‹_› hnotify
      · cases ht
  | leave => simp only [step] at ht; split at ht <;> cases ht; exact .leave ‹_›
  | takeRunner => simp only [step] at ht; split at ht <;> cases ht; exact .takeRunner ‹_›
  | ensureInitialized runner =>
      simp only [step] at ht
      split at ht <;> cases ht
      exact .ensureInitialized ‹_›
  | setRunner => simp only [step] at ht; split at ht <;> cases ht; exact .setRunner ‹_›
  | signalLocks => simp only [step] at ht; split at ht <;> cases ht; exact .signalLocks ‹_› ‹_›
  | signalSets => simp only [step] at ht; split at ht <;> cases ht; exact .signalSets ‹_›
  | signalUnlocks => simp only [step] at ht; split at ht <;> cases ht; exact .signalUnlocks ‹_›
  | runBody => simp only [step] at ht; split at ht <;> cases ht; exact .runBody ‹_›

/-! ## Who holds the mutex, and what the flag means -/

/-- What holds between the mutex, the flag, the task runner and the two threads. -/
structure Sound (s : ThreadStart Runner Closure) : Prop where
  starterHolds : s.mutex_ = some .starter ↔ s.starter.holds = true
  threadHolds : s.mutex_ = some .thread ↔ s.thread.holds = true
  runner : s.task_runner = s.thread.assigned
  raised : s.starter.seen = false → s.signaled_ = s.thread.raised
  done : s.starter.seen = true → s.thread.done = true
  inside : s.starter = .waiting → () ∈ s.cv_.blocked ∨ () ∈ s.cv_.woken
  woken : s.starter = .waiting → s.thread.hasNotified = true → () ∈ s.cv_.woken
  returned : s.starter = .returned → s.task_runner_ = s.thread.assigned
  running : ∀ runner body', s.thread = .running runner body' → body' = body s.thread_func

lemma sound_start (thread_func : Option Closure) :
    (start thread_func : ThreadStart Runner Closure).Sound := by
  constructor <;> simp [start, StarterProgress.holds, StarterProgress.seen, ThreadProgress.holds,
    ThreadProgress.raised, ThreadProgress.assigned]

/-- A thread that has raised the flag and does not hold the mutex is done with the stack. -/
lemma done_of_raised {p : ThreadProgress Runner Closure} (hraised : p.raised = true)
    (hholds : p.holds = false) : p.done = true := by
  cases p <;> simp [ThreadProgress.raised, ThreadProgress.holds] at hraised hholds <;> rfl

/-- A thread that is behind its notification has raised the flag. -/
lemma raised_of_hasNotified {p : ThreadProgress Runner Closure} (h : p.hasNotified = true) :
    p.raised = true := by
  cases p <;> simp [ThreadProgress.hasNotified] at h <;> rfl

/-- A notification wakes `Start` if it sleeps. -/
lemma notify_woken {cv_ cv_' : CondVar Unit} (hnotify : notify cv_ = some cv_')
    (hinside : () ∈ cv_.blocked ∨ () ∈ cv_.woken) : () ∈ cv_'.woken := by
  rw [notify] at hnotify
  split at hnotify
  · rw [(CondVar.wake_eq_some hnotify).2.2]
    exact Finset.mem_insert_self _ _
  · next hblocked =>
      simp only [CondVar.notifyOne, Option.ite_none_right_eq_some, Option.some.injEq] at hnotify
      rw [← hnotify.2]
      exact hinside.resolve_left hblocked

theorem sound_step {a : StartAction Runner} (hs : s.Sound) (ht : s.step a = some t) : t.Sound := by
  have hstarterHolds := hs.starterHolds
  have hthreadHolds := hs.threadHolds
  have hraised := hs.raised
  cases moves_of_step ht with
  | lock hstarter hmutex =>
      rw [hmutex] at hthreadHolds
      rw [hstarter] at hraised
      exact { hs with
        starterHolds := by simp [StarterProgress.holds]
        threadHolds := by simpa using hthreadHolds
        raised := fun _ => hraised rfl
        done := by simp [StarterProgress.seen]
        inside := nofun
        woken := nofun
        returned := nofun }
  | testSignaled hstarter hsignaled =>
      -- the mutex is with `Start`, so the new thread has unlocked
      rw [hstarter] at hstarterHolds hraised
      have hmutex := hstarterHolds.mpr rfl
      rw [hmutex] at hthreadHolds
      have hholds : s.thread.holds = false := by simpa using hthreadHolds
      exact { hs with
        starterHolds := by simpa [StarterProgress.holds] using hmutex
        threadHolds := by simpa [hmutex] using hholds
        raised := by simp [StarterProgress.seen]
        done := fun _ => done_of_raised ((hraised rfl).symm.trans hsignaled) hholds
        inside := nofun
        woken := nofun
        returned := nofun }
  | testWaits hstarter hsignaled =>
      rw [hstarter] at hstarterHolds hraised
      rw [hstarterHolds.mpr rfl] at hthreadHolds
      exact { hs with
        starterHolds := by simp [StarterProgress.holds]
        threadHolds := by simpa using hthreadHolds
        raised := fun _ => hraised rfl
        done := by simp [StarterProgress.seen]
        inside := fun _ => Or.inl (Finset.mem_insert_self _ _)
        woken := by
          intro _ hnotified
          rw [hraised rfl, raised_of_hasNotified hnotified] at hsignaled
          cases hsignaled
        returned := nofun }
  | spuriousWake hstarter hwake =>
      have hwoken := (CondVar.wake_eq_some hwake).2.2
      exact { hs with
        inside := fun _ => Or.inr (hwoken ▸ Finset.mem_insert_self _ _)
        woken := fun _ _ => hwoken ▸ Finset.mem_insert_self _ _ }
  | relock hstarter hmutex hresume =>
      rw [hmutex] at hthreadHolds
      rw [hstarter] at hraised
      exact { hs with
        starterHolds := by simp [StarterProgress.holds]
        threadHolds := by simpa using hthreadHolds
        raised := fun _ => hraised rfl
        done := by simp [StarterProgress.seen]
        inside := nofun
        woken := nofun
        returned := nofun }
  | leave hstarter =>
      rw [hstarter] at hstarterHolds
      rw [hstarterHolds.mpr rfl] at hthreadHolds
      exact { hs with
        starterHolds := by simp [StarterProgress.holds]
        threadHolds := by simpa using hthreadHolds
        raised := by simp [StarterProgress.seen]
        done := fun _ => hs.done (by rw [hstarter]; rfl)
        inside := nofun
        woken := nofun
        returned := nofun }
  | takeRunner hstarter =>
      rw [hstarter] at hstarterHolds
      exact { hs with
        starterHolds := hstarterHolds
        raised := by simp [StarterProgress.seen]
        done := fun _ => hs.done (by rw [hstarter]; rfl)
        inside := nofun
        woken := nofun
        returned := fun _ => hs.runner }
  | ensureInitialized hthread =>
      have hdone := hs.done
      have hreturned := hs.returned
      rw [hthread] at hthreadHolds hraised hdone hreturned
      exact { hs with
        threadHolds := hthreadHolds
        runner := by rw [hs.runner, hthread]; rfl
        raised := hraised
        done := hdone
        woken := nofun
        returned := hreturned
        running := nofun }
  | setRunner hthread =>
      have hdone := hs.done
      rw [hthread] at hthreadHolds hraised hdone
      exact { hs with
        threadHolds := hthreadHolds
        runner := rfl
        raised := hraised
        done := hdone
        woken := nofun
        returned := fun hreturned => nomatch hdone (congrArg StarterProgress.seen hreturned)
        running := nofun }
  | signalLocks hthread hmutex =>
      have hdone := hs.done
      rw [hmutex] at hstarterHolds
      rw [hthread] at hraised hdone
      exact { hs with
        starterHolds := by simpa using hstarterHolds
        threadHolds := by simp [ThreadProgress.holds]
        runner := by rw [hs.runner, hthread]; rfl
        raised := hraised
        done := hdone
        woken := nofun
        returned := fun hreturned => nomatch hdone (congrArg StarterProgress.seen hreturned)
        running := nofun }
  | signalSets hthread =>
      have hdone := hs.done
      rw [hthread] at hthreadHolds hdone
      exact { hs with
        threadHolds := hthreadHolds
        runner := by rw [hs.runner, hthread]; rfl
        raised := fun _ => rfl
        done := hdone
        woken := nofun
        returned := fun hreturned => nomatch hdone (congrArg StarterProgress.seen hreturned)
        running := nofun }
  | signalNotifies hthread hnotify =>
      have hdone := hs.done
      rw [hthread] at hthreadHolds hraised hdone
      exact { hs with
        threadHolds := hthreadHolds
        runner := by rw [hs.runner, hthread]; rfl
        raised := hraised
        done := hdone
        inside := fun hwaiting => Or.inr (notify_woken hnotify (hs.inside hwaiting))
        woken := fun hwaiting _ => notify_woken hnotify (hs.inside hwaiting)
        returned := fun hreturned => nomatch hdone (congrArg StarterProgress.seen hreturned)
        running := nofun }
  | signalUnlocks hthread =>
      have hwoken := hs.woken
      have hdone := hs.done
      rw [hthread] at hthreadHolds hraised hwoken hdone
      rw [hthreadHolds.mpr rfl] at hstarterHolds
      exact { hs with
        starterHolds := by simpa using hstarterHolds
        threadHolds := by simp [ThreadProgress.holds]
        runner := by rw [hs.runner, hthread]; rfl
        raised := hraised
        done := fun _ => rfl
        woken := hwoken
        returned := fun hreturned => nomatch hdone (congrArg StarterProgress.seen hreturned)
        running := nofun }
  | runBody hthread =>
      have hwoken := hs.woken
      have hreturned := hs.returned
      rw [hthread] at hthreadHolds hraised hwoken hreturned
      refine { hs with
        threadHolds := hthreadHolds
        runner := by rw [hs.runner, hthread]; rfl
        raised := hraised
        done := fun _ => rfl
        woken := hwoken
        returned := hreturned
        running := ?_ }
      rintro _ _ ⟨⟩
      rfl

/-! ## The stack of `Start` -/

lemma thread_func_step {a : StartAction Runner} (ht : s.step a = some t) :
    t.thread_func = s.thread_func := by
  cases moves_of_step ht <;> rfl

theorem sound_run {thread_func : Option Closure} {acts : List (StartAction Runner)}
    (hrun : run step (start thread_func) acts = some s) :
    s.Sound ∧ s.thread_func = thread_func := by
  refine run_invariant (I := fun s : ThreadStart Runner Closure =>
    s.Sound ∧ s.thread_func = thread_func) ?_ ⟨sound_start thread_func, rfl⟩ hrun
  rintro s a t ⟨hs, hfunc⟩ ht
  exact ⟨sound_step hs ht, (thread_func_step ht).trans hfunc⟩

/-- A thread that is done with the stack does not come back to it. -/
lemma done_step {a : StartAction Runner} (hdone : s.thread.done = true) (ht : s.step a = some t) :
    t.thread.done = true ∧ ¬ a.UsesFrame := by
  cases moves_of_step ht with
  | ensureInitialized hthread | setRunner hthread | signalLocks hthread _ | signalSets hthread
  | signalNotifies hthread _ | signalUnlocks hthread =>
      rw [hthread] at hdone
      cases hdone
  | runBody hthread => exact ⟨rfl, id⟩
  | _ => exact ⟨hdone, id⟩

/-- **The handover.**  In every interleaving, when `Start` has returned, `task_runner_` is the task
runner of the new thread's loop, the new thread is at its body or in it, which is `thread_func` if
there is one and else the loop, and no later step of it uses the stack of `Start`. -/
theorem start_hands_over {thread_func : Option Closure} {acts : List (StartAction Runner)}
    (hrun : run step (start thread_func) acts = some s) (hreturned : s.starter = .returned) :
    (∃ runner, s.task_runner_ = some runner ∧
      (s.thread = .unlocked runner ∨ s.thread = .running runner (body thread_func))) ∧
      ∀ more, EveryStep step (fun _ a _ => ¬ a.UsesFrame) s more := by
  rcases sound_run hrun with ⟨hs, hfunc⟩
  have hdone := hs.done (by rw [hreturned]; rfl)
  constructor
  · have hrunner := hs.returned hreturned
    cases hthread : s.thread with
    | unlocked runner => exact ⟨runner, by rw [hrunner, hthread]; rfl, Or.inl rfl⟩
    | running runner body' =>
        refine ⟨runner, by rw [hrunner, hthread]; rfl, Or.inr ?_⟩
        rw [hs.running runner body' hthread, hfunc]
    | _ =>
        rw [hthread] at hdone
        cases hdone
  · intro more
    exact EveryStep.of_keep (C := fun _ _ _ => True)
      (fun _ _ _ hdone ht _ => done_step hdone ht) hdone (everyStep_true s more)

/-- `Start` overtakes the new thread behind its unlocking. -/
def startedThread : List (StartAction ℕ) :=
  [.lock, .test, .ensureInitialized 3, .setRunner, .signalLocks, .signalSets, .signalNotifies,
    .signalUnlocks, .relock, .test, .leave, .takeRunner, .runBody]

theorem start_hands_over_startedThread :
    ∃ s : ThreadStart ℕ Unit, run step (start none) startedThread = some s ∧
      s.starter = .returned ∧ ∃ runner, s.task_runner_ = some runner ∧
        (s.thread = .unlocked runner ∨ s.thread = .running runner .loopRun) := by
  have hrun : run step (start none : ThreadStart ℕ Unit) startedThread = some _ := rfl
  exact ⟨_, hrun, rfl, (start_hands_over hrun rfl).1⟩

/-! ## Nobody waits for ever -/

/-- How many steps the new thread has before its body. -/
def remaining : ThreadProgress Runner Closure → ℕ
  | .created => 7
  | .initialized _ => 6
  | .runnerSet _ => 5
  | .locked _ => 4
  | .signaled _ => 3
  | .notified _ => 2
  | .unlocked _ => 1
  | .running _ _ => 0

/-- How far `Start` has to go.  A `Start` that has been woken up tests the flag again. -/
def rank (s : ThreadStart Runner Closure) : ℕ :=
  match s.starter with
  | .started => 4
  | .testing => 3
  | .waiting => if () ∈ s.cv_.woken then 4 else 2
  | .leaving => 2
  | .waited => 1
  | .returned => 0

/-- What every step makes smaller: each step that is left to the new thread may wake `Start` up,
which then has two more to take. -/
def potential (s : ThreadStart Runner Closure) : ℕ := 3 * remaining s.thread + s.rank

/-- Waking up costs `Start` two more steps. -/
lemma rank_le_of_cv (s : ThreadStart Runner Closure) (cv_ : CondVar Unit)
    (thread : ThreadProgress Runner Closure) :
    rank { s with cv_ := cv_, thread := thread } ≤ s.rank + 2 := by
  simp only [rank]
  cases s.starter with
  | waiting => simp only; split <;> split <;> omega
  | _ => simp

/-- Every step that is taken by somebody uses some of the potential up. -/
lemma potential_step {a : StartAction Runner} (ht : s.step a = some t) :
    t.potential + 1 ≤ s.potential + if a.spurious then 3 else 0 := by
  cases moves_of_step ht with
  | lock hstarter hmutex => simp [potential, rank, hstarter]
  | testSignaled hstarter hsignaled => simp [potential, rank, hstarter]
  | testWaits hstarter hsignaled => simp [potential, rank, hstarter, CondVar.wait]
  | @spuriousWake cv_ hstarter hwake =>
      have hrank := rank_le_of_cv s cv_ s.thread
      simp only [potential, StartAction.spurious, if_true]
      exact Nat.add_le_add_left (Nat.succ_le_succ hrank) _
  | relock hstarter hmutex hresume =>
      have hwoken : () ∈ s.cv_.woken := by
        simp only [CondVar.resume, Option.ite_none_right_eq_some] at hresume
        exact hresume.1
      simp [potential, rank, hstarter, hwoken]
  | leave hstarter => simp [potential, rank, hstarter]
  | takeRunner hstarter => simp [potential, rank, hstarter]
  | @signalNotifies runner cv_ hthread hnotify =>
      have hrank := rank_le_of_cv s cv_ (.notified runner)
      simp only [potential, hthread, remaining, StartAction.spurious]
      simp only [Bool.false_eq_true, if_false]
      omega
  | ensureInitialized hthread | setRunner hthread | signalLocks hthread _ | signalSets hthread
  | signalUnlocks hthread | runBody hthread =>
      simp only [potential, rank, hthread, remaining, StartAction.spurious]
      simp only [Bool.false_eq_true, if_false]
      omega

lemma exists_notify (cv_ : CondVar Unit) : ∃ cv_', notify cv_ = some cv_' := by
  by_cases hblocked : () ∈ cv_.blocked
  · simp [notify, CondVar.notifyOne, CondVar.wake, hblocked]
  · have hnone : cv_.blocked = ∅ := Finset.eq_empty_of_forall_notMem fun _ => hblocked
    simp [notify, CondVar.notifyOne, hnone]

/-- Somebody can take a step. -/
def CanStep (s : ThreadStart Runner Closure) : Prop :=
  ∃ a, a.spurious = false ∧ (s.step a).isSome = true

/-- Whoever holds the mutex goes on. -/
lemma Sound.canStep_of_locked (hs : s.Sound) {party : StartParty}
    (hmutex : s.mutex_ = some party) : s.CanStep := by
  cases party with
  | starter =>
      have hholds := hs.starterHolds.mp hmutex
      cases hstarter : s.starter with
      | testing => exact ⟨.test, rfl, by simp only [step, hstarter]; split <;> rfl⟩
      | leaving => exact ⟨.leave, rfl, by simp [step, hstarter]⟩
      | _ =>
          rw [hstarter] at hholds
          cases hholds
  | thread =>
      have hholds := hs.threadHolds.mp hmutex
      cases hthread : s.thread with
      | locked runner => exact ⟨.signalSets, rfl, by simp [step, hthread]⟩
      | signaled runner =>
          rcases exists_notify s.cv_ with ⟨cv_, hnotify⟩
          exact ⟨.signalNotifies, rfl, by simp [step, hthread, hnotify, Option.map_some]⟩
      | notified runner => exact ⟨.signalUnlocks, rfl, by simp [step, hthread]⟩
      | _ =>
          rw [hthread] at hholds
          cases hholds

/-- With the mutex free the new thread goes on, up to its body. -/
lemma canStep_of_thread [Nonempty Runner] (hs : s.Sound) (hmutex : s.mutex_ = none)
    (hbody : ∀ runner body', s.thread ≠ .running runner body') : s.CanStep := by
  have hholds := hs.threadHolds
  rw [hmutex] at hholds
  cases hthread : s.thread with
  | created =>
      rcases ‹Nonempty Runner› with ⟨runner⟩
      exact ⟨.ensureInitialized runner, rfl, by simp [step, hthread]⟩
  | initialized runner => exact ⟨.setRunner, rfl, by simp [step, hthread]⟩
  | runnerSet runner => exact ⟨.signalLocks, rfl, by simp [step, hthread, hmutex]⟩
  | unlocked runner => exact ⟨.runBody, rfl, by simp [step, hthread]⟩
  | running runner body' => exact absurd hthread (hbody runner body')
  | locked runner | signaled runner | notified runner =>
      rw [hthread] at hholds
      cases hholds.mpr rfl

/-- With the mutex free and the new thread in its body `Start` goes on. -/
lemma canStep_of_starter (hs : s.Sound) (hmutex : s.mutex_ = none)
    (hnotified : s.thread.hasNotified = true) (hreturned : s.starter ≠ .returned) :
    s.CanStep := by
  have hholds := hs.starterHolds
  rw [hmutex] at hholds
  cases hstarter : s.starter with
  | started => exact ⟨.lock, rfl, by simp [step, hstarter, hmutex]⟩
  | waiting =>
      have hwoken := hs.woken hstarter hnotified
      exact ⟨.relock, rfl, by simp [step, hstarter, hmutex, CondVar.resume, hwoken]⟩
  | waited => exact ⟨.takeRunner, rfl, by simp [step, hstarter]⟩
  | returned => exact absurd hstarter hreturned
  | testing | leaving =>
      rw [hstarter] at hholds
      cases hholds.mpr rfl

/-- **No deadlock.**  In every interleaving the two threads take at most 25 steps, and 3 more for
each wake-up without a reason; and when there is none left for them, `Start` has returned and the
new thread is in its body. -/
theorem start_returns [Nonempty Runner] {thread_func : Option Closure}
    {acts : List (StartAction Runner)} (hrun : run step (start thread_func) acts = some s) :
    acts.length ≤ 25 + 3 * acts.countP StartAction.spurious ∧
      (¬ s.CanStep → s.starter = .returned ∧
        ∃ runner, s.thread = .running runner (body thread_func)) := by
  rcases sound_run hrun with ⟨hs, hfunc⟩
  constructor
  · have hlength := length_add_potential_le potential (I := fun _ => True)
      (p := StartAction.spurious) (c := 3) (fun _ _ _ _ _ => trivial)
      (fun _ _ _ _ ht => potential_step ht) trivial hrun
    have hstart : (start thread_func : ThreadStart Runner Closure).potential = 25 := rfl
    omega
  · intro hstuck
    have hmutex : s.mutex_ = none := by
      cases hmutex : s.mutex_ with
      | none => rfl
      | some party => exact absurd (hs.canStep_of_locked hmutex) hstuck
    have hbody : ∃ runner body', s.thread = .running runner body' := by
      by_contra hnot
      exact hstuck (canStep_of_thread hs hmutex fun runner body' hthread =>
        hnot ⟨runner, body', hthread⟩)
    rcases hbody with ⟨runner, body', hthread⟩
    refine ⟨?_, runner, by rw [hthread, hs.running runner body' hthread, hfunc]⟩
    by_contra hreturned
    exact hstuck (canStep_of_starter hs hmutex (by rw [hthread]; rfl) hreturned)

theorem start_returns_startedThread :
    ∃ s : ThreadStart ℕ Unit, run step (start none) startedThread = some s ∧
      startedThread.length ≤ 25 + 3 * startedThread.countP StartAction.spurious ∧
      s.starter = .returned ∧ ∃ runner, s.thread = .running runner .loopRun := by
  have hrun : run step (start none : ThreadStart ℕ Unit) startedThread = some _ := rfl
  rcases start_returns hrun with ⟨hlength, hstuck⟩
  refine ⟨_, hrun, hlength, hstuck ?_⟩
  rintro ⟨a, _, hstep⟩
  cases a <;> cases hstep

end ThreadStart

end FFNetwork
