import FFNetwork.Base.MessageLoop.LoopImpl
import FFNetwork.Base.MessageLoop.LoopImplLinux

/-!
# Terminating a running loop

`DoTerminate` sets `terminated_` and then clears `running_`; a run tests `terminated_` and then sets
`running_`.  The model interleaves the loop thread, with any number of runs, and one `DoTerminate`
call of another thread, flag by flag.

* `TerminatingLoop.step` — the steps of the two threads.
* **`termination_kept_iff`** — when no loop condition is true any more behind the `DoTerminate`.
-/

namespace FFNetwork

open StepSystem

/-- Where the loop thread is: outside, behind its test of `terminated_`, before an evaluation of
`while (running_)`, in `epoll_wait`, or behind the loop. -/
inductive LoopThread where
  | outside
  | tested (call : RunCall) (duration : TimeDelta)
  | looping (call : RunCall)
  | waiting (call : RunCall)
  | left (call : RunCall)

/-- How far the `DoTerminate` call has come. -/
inductive Terminator where
  | notCalled
  | terminatedSet
  | runningCleared
  | completed
  deriving DecidableEq

/-- The flags, the variables of `RunForTime`, and where the two threads are. -/
structure TerminatingLoop where
  terminated_ : Bool
  linux : LoopImplLinux
  start_time : TimePoint
  thread : LoopThread
  terminator : Terminator

/-- A step of the loop thread or of the thread that terminates it.  In `serve` and `finish` tasks
are run, which may call `Terminate` themselves. -/
inductive TerminationAction where
  | testTerminated (call : RunCall) (delay : TimeDelta)
  | setRunning (now : TimePoint)
  | testRunning
  | serve (r : EpollReturn)
  | finish (terminates : Bool)
  | setTerminated
  | clearRunning
  | wakeUp

namespace TerminatingLoop

variable {s t : TerminatingLoop}

/-- A new loop. -/
def create : TerminatingLoop := ⟨false, ⟨false, 0⟩, ⟨0⟩, .outside, .notCalled⟩

/-- `Run` is `RunForTime` with the longest duration. -/
def durationOf (call : RunCall) (delay : TimeDelta) : TimeDelta :=
  match call with
  | .doRun => TimeDelta.max
  | .doRunForTime => delay

/-- The step function; `none` where the thread of the action is elsewhere. -/
def step (s : TerminatingLoop) : TerminationAction → Option TerminatingLoop
  | .testTerminated call delay =>
      match s.thread with
      | .outside =>
          some (if s.terminated_ then s
            else { s with thread := .tested call (durationOf call delay) })
      | _ => none
  | .setRunning now =>
      match s.thread with
      | .tested call duration =>
          some { s with
            linux := ⟨true, duration.toMilliseconds⟩
            start_time := now
            thread := .looping call }
      | _ => none
  | .testRunning =>
      match s.thread with
      | .looping call =>
          some { s with thread := if s.linux.running_ then .waiting call else .left call }
      | _ => none
  | .serve r =>
      match s.thread with
      | .waiting call =>
          some { s with
            terminated_ := s.terminated_ || r.terminated
            linux := s.linux.serve s.start_time r
            thread := .looping call }
      | _ => none
  | .finish terminates =>
      match s.thread with
      | .left call =>
          some { s with
            terminated_ := s.terminated_ || call = .doRun || terminates
            linux := { s.linux with running_ := s.linux.running_ && !terminates }
            thread := .outside }
      | _ => none
  | .setTerminated =>
      match s.terminator with
      | .notCalled => some { s with terminated_ := true, terminator := .terminatedSet }
      | _ => none
  | .clearRunning =>
      match s.terminator with
      | .terminatedSet =>
          some { s with
            linux := { s.linux with running_ := false }
            terminator := .runningCleared }
      | _ => none
  | .wakeUp =>
      match s.terminator with
      | .runningCleared => some { s with terminator := .completed }
      | _ => none

/-! ## What a step can do -/

/-- What a step can do. -/
inductive Moves (s : TerminatingLoop) : TerminationAction → TerminatingLoop → Prop
  | terminated {call : RunCall} {delay : TimeDelta} (hterm : s.terminated_ = true) :
      s.Moves (.testTerminated call delay) s
  | testTerminated {call : RunCall} {delay : TimeDelta} (hterm : s.terminated_ = false) :
      s.Moves (.testTerminated call delay) { s with thread := .tested call (durationOf call delay) }
  | setRunning {now : TimePoint} {call : RunCall} {duration : TimeDelta}
      (hthread : s.thread = .tested call duration) :
      s.Moves (.setRunning now)
        { s with
          linux := ⟨true, duration.toMilliseconds⟩
          start_time := now
          thread := .looping call }
  | testRunning {call : RunCall} :
      s.Moves .testRunning
        { s with thread := if s.linux.running_ then .waiting call else .left call }
  | serve {r : EpollReturn} {call : RunCall} :
      s.Moves (.serve r)
        { s with
          terminated_ := s.terminated_ || r.terminated
          linux := s.linux.serve s.start_time r
          thread := .looping call }
  | finish {terminates : Bool} {call : RunCall} :
      s.Moves (.finish terminates)
        { s with
          terminated_ := s.terminated_ || call = .doRun || terminates
          linux := { s.linux with running_ := s.linux.running_ && !terminates }
          thread := .outside }
  | setTerminated (hterminator : s.terminator = .notCalled) :
      s.Moves .setTerminated { s with terminated_ := true, terminator := .terminatedSet }
  | clearRunning (hterminator : s.terminator = .terminatedSet) :
      s.Moves .clearRunning
        { s with linux := { s.linux with running_ := false }, terminator := .runningCleared }
  | wakeUp (hterminator : s.terminator = .runningCleared) :
      s.Moves .wakeUp { s with terminator := .completed }

lemma moves_of_step {a : TerminationAction} (ht : s.step a = some t) : s.Moves a t := by
  cases a with
  | testTerminated call delay =>
      simp only [step] at ht
      split at ht
      · split at ht <;> cases ht
        · exact .terminated ‹_›
        · exact .testTerminated (Bool.eq_false_iff.mpr ‹_›)
      · cases ht
  | setRunning now =>
      simp only [step] at ht
      split at ht <;> cases ht
      exact .setRunning ‹_›
  | testRunning =>
      simp only [step] at ht
      split at ht <;> cases ht
      exact .testRunning
  | serve r =>
      simp only [step] at ht
      split at ht <;> cases ht
      exact .serve
  | finish terminates =>
      simp only [step] at ht
      split at ht <;> cases ht
      exact .finish
  | setTerminated =>
      simp only [step] at ht
      split at ht <;> cases ht
      exact .setTerminated ‹_›
  | clearRunning =>
      simp only [step] at ht
      split at ht <;> cases ht
      exact .clearRunning ‹_›
  | wakeUp =>
      simp only [step] at ht
      split at ht <;> cases ht
      exact .wakeUp ‹_›

/-! ## After the flags are set -/

/-- An evaluation of the loop condition behind the `DoTerminate` call yields false. -/
def EvaluatesFalse (s : TerminatingLoop) (a : TerminationAction) (_ : TerminatingLoop) : Prop :=
  a = .testRunning → s.terminator = .completed → s.linux.running_ = false

/-- `running_` has been cleared by the `DoTerminate` call. -/
def Cleared (s : TerminatingLoop) : Prop :=
  s.terminator = .runningCleared ∨ s.terminator = .completed

/-- Once `running_` is cleared, every evaluation behind the `DoTerminate` call yields false. -/
def StaysTerminated (s : TerminatingLoop) : Prop :=
  s.Cleared → ∀ more, EveryStep step EvaluatesFalse s more

/-- `DoTerminate` does not clear `running_` while the loop thread is between its test of
`terminated_` and its setting of `running_`. -/
def ClearsBehindSet (s : TerminatingLoop) (a : TerminationAction) : Prop :=
  a = .clearRunning → ∀ call duration, s.thread ≠ .tested call duration

/-- The loop condition cannot become true again. -/
structure Stopped (s : TerminatingLoop) : Prop where
  cleared : s.Cleared
  terminated : s.terminated_ = true
  stopped : s.linux.running_ = false
  notTested : ∀ call duration, s.thread ≠ .tested call duration

/-- Serving an event never sets `running_`. -/
lemma serve_running {loop : LoopImplLinux} (hstopped : loop.running_ = false)
    (start_time : TimePoint) (r : EpollReturn) : (loop.serve start_time r).running_ = false := by
  simp only [LoopImplLinux.serve]
  split
  · rfl
  · split
    · rfl
    · simp [hstopped]

lemma stopped_step (s : TerminatingLoop) (a : TerminationAction) (t : TerminatingLoop)
    (hs : s.Stopped) (ht : s.step a = some t) : t.Stopped := by
  have hcleared := hs.cleared
  cases moves_of_step ht with
  | terminated hterm => exact hs
  | testTerminated hterm => simp [hs.terminated] at hterm
  | setRunning hthread => exact absurd hthread (hs.notTested _ _)
  | testRunning =>
      refine ⟨hcleared, hs.terminated, hs.stopped, ?_⟩
      simp [hs.stopped]
  | serve => exact ⟨hcleared, by simp [hs.terminated], serve_running hs.stopped _ _, by simp⟩
  | finish => exact ⟨hcleared, by simp [hs.terminated], by simp [hs.stopped], by simp⟩
  | setTerminated hterminator => simp [Cleared, hterminator] at hcleared
  | clearRunning hterminator => simp [Cleared, hterminator] at hcleared
  | wakeUp hterminator => exact ⟨Or.inr rfl, hs.terminated, hs.stopped, hs.notTested⟩

lemma Stopped.staysTerminated (hs : s.Stopped) : s.StaysTerminated := by
  intro _ more
  refine EveryStep.of_keep (I := Stopped) ?_ hs (everyStep_true s more)
  intro s a t hs ht _
  exact ⟨stopped_step s a t hs ht, fun _ _ => hs.stopped⟩

/-- A `DoTerminate` call that has begun has set `terminated_`, and one that has cleared `running_`
has done so for good. -/
structure Terminating (s : TerminatingLoop) : Prop where
  begun : s.terminator ≠ .notCalled → s.terminated_ = true
  stopped : s.Cleared → s.Stopped

lemma terminating_create : create.Terminating :=
  ⟨fun hbegun => absurd rfl hbegun, fun hcleared => by simp [Cleared, create] at hcleared⟩

theorem terminating_step {a : TerminationAction} (hs : s.Terminating) (ht : s.step a = some t)
    (hclears : s.ClearsBehindSet a) : t.Terminating := by
  by_cases hcleared : s.Cleared
  · have hstopped := stopped_step s a t (hs.stopped hcleared) ht
    exact ⟨fun _ => hstopped.terminated, fun _ => hstopped⟩
  · have hbegun := hs.begun
    cases moves_of_step ht with
    | setTerminated hterminator =>
        exact ⟨fun _ => rfl, fun hcleared' => by simp [Cleared] at hcleared'⟩
    | clearRunning hterminator =>
        have hterm := hbegun (by simp [hterminator])
        exact ⟨fun _ => hterm, fun _ => ⟨Or.inl rfl, hterm, rfl, hclears rfl⟩⟩
    | wakeUp hterminator => exact absurd (Or.inl hterminator) hcleared
    | serve => exact ⟨fun h => by simp [hbegun h], fun h => absurd h hcleared⟩
    | finish => exact ⟨fun h => by simp [hbegun h], fun h => absurd h hcleared⟩
    | _ => exact ⟨hbegun, fun h => absurd h hcleared⟩

/-- A loop thread that has passed its test sets `running_` again, and evaluates it to true. -/
lemma clearsBehindSet_of_staysTerminated {a : TerminationAction} (ht : s.step a = some t)
    (hstays : t.StaysTerminated) : s.ClearsBehindSet a := by
  rintro rfl call duration hthread
  cases moves_of_step ht with
  | clearRunning hterminator =>
      set u : TerminatingLoop :=
        { s with linux := { s.linux with running_ := false }, terminator := .runningCleared }
      have hstep : u.step (.setRunning ⟨0⟩) = some { u with
          linux := ⟨true, duration.toMilliseconds⟩
          start_time := ⟨0⟩
          thread := .looping call } := by
        simp [step, u, hthread]
      have hrun : run step u [.setRunning ⟨0⟩, .wakeUp] = some { u with
          linux := ⟨true, duration.toMilliseconds⟩
          start_time := ⟨0⟩
          thread := .looping call
          terminator := .completed } := by
        rw [run_cons, hstep]
        rfl
      have heval := (hstays (Or.inl rfl) ([.setRunning ⟨0⟩, .wakeUp] ++ [.testRunning])).at hrun rfl
      exact absurd (heval rfl rfl) (by simp)

/-- **When no termination is lost.**  In every interleaving: behind the `DoTerminate` call every
evaluation of the loop condition yields false, and does so in whatever follows, if and only if the
call does not clear `running_` while the loop thread is between its test of `terminated_` and its
setting of `running_`. -/
theorem termination_kept_iff (acts : List TerminationAction) :
    EveryStep step (fun s a t => s.EvaluatesFalse a t ∧ t.StaysTerminated) create acts ↔
      EveryStep step (fun s a _ => s.ClearsBehindSet a) create acts := by
  refine everyStep_iff (I := Terminating) ?_ ?_ terminating_create
  · intro s a t hs ht hclears
    have ht' := terminating_step hs ht hclears
    refine ⟨ht', fun _ hcompleted => (hs.stopped (Or.inr hcompleted)).stopped, ?_⟩
    exact fun hcleared => (ht'.stopped hcleared).staysTerminated hcleared
  · intro s a t _ ht hP
    exact clearsBehindSet_of_staysTerminated ht hP.2

/-- The whole `DoTerminate` call falls between the test of `terminated_` and `running_ = true`. -/
theorem termination_lost :
    ¬ ∀ acts : List TerminationAction, EveryStep step EvaluatesFalse create acts := by
  intro hall
  have heval := (hall ([.testTerminated .doRun .zero, .setTerminated, .clearRunning, .wakeUp,
    .setRunning ⟨0⟩] ++ [.testRunning])).at rfl rfl
  exact absurd (heval rfl rfl) (by decide)

end TerminatingLoop

end FFNetwork
