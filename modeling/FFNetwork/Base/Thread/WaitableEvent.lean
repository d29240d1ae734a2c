import FFNetwork.Base.Time
import FFNetwork.Lib.CondVar
import FFNetwork.Lib.StepSystem

/-!
# `AutoResetWaitableEvent`

`source/base/thread/waitable_event.cpp`: a flag, a mutex and a condition variable.  What a thread
does under the mutex is one step; `wait` and `wait_for` end one and begin the next.

`Signal` notifies one waiter, and which one is not up to the event.  A `wait_for` whose deadline has
passed may report the timeout even to a waiter that was notified, and then `WaitWithTimeout`
returns without looking at the flag.

* `signal`, `wait`, `waitWithTimeout`, `awoken` — the sections.
* `EventHistory.step` — any number of threads, with every call that has returned.
* **`never_stranded_iff`** — when no waiter sleeps through a signal.
* **`signals_accounted`** — every signal is taken at most once, and none is lost.
-/

namespace FFNetwork

open StepSystem

/-! ## The event -/

/-- `AutoResetWaitableEvent`. -/
structure AutoResetWaitableEvent (Thread : Type) where
  cv_ : CondVar Thread
  signaled_ : Bool

/-- The variables of a `WaitWithTimeout` call that waits, with the reading of the clock at which
`wait_for` was entered. -/
structure TimedWait where
  timeout : TimeDelta
  start_time : TimePoint
  time_remaining : TimeDelta
  since : TimePoint

/-- The time at which `wait_for` may report a timeout. -/
def TimedWait.deadline (w : TimedWait) : ℤ := w.since.ticks + w.time_remaining.delta_.toInt

/-- How a section of `WaitWithTimeout` ends. -/
inductive Progress where
  | returns (timedOut : Bool)
  | waits (w : TimedWait)

namespace AutoResetWaitableEvent

variable {Thread : Type} [DecidableEq Thread]

omit [DecidableEq Thread] in
/-- A new event is not signaled. -/
def create : AutoResetWaitableEvent Thread := ⟨.empty, false⟩

/-- `AutoResetWaitableEvent::Signal`, where `notify_one` picks the given waiter. -/
def signal (e : AutoResetWaitableEvent Thread) (notified : Option Thread) :
    Option (AutoResetWaitableEvent Thread) :=
  (e.cv_.notifyOne notified).map fun cv_ => ⟨cv_, true⟩

/-- `AutoResetWaitableEvent::Wait` from a test of the flag to the next one, and whether it
returns. -/
def wait (e : AutoResetWaitableEvent Thread) (t : Thread) : AutoResetWaitableEvent Thread × Bool :=
  if e.signaled_ then ({ e with signaled_ := false }, true)
  else ({ e with cv_ := e.cv_.wait t }, false)

/-- `AutoResetWaitableEvent::WaitWithTimeout` up to its first `wait_for`. -/
def waitWithTimeout (e : AutoResetWaitableEvent Thread) (t : Thread) (timeout : TimeDelta)
    (now : TimePoint) : AutoResetWaitableEvent Thread × Progress :=
  if e.signaled_ then ({ e with signaled_ := false }, .returns false)
  else ({ e with cv_ := e.cv_.wait t }, .waits ⟨timeout, now, timeout, now⟩)

/-- The loop of `WaitWithTimeout` behind a `wait_for` that has not timed out. -/
def awoken (e : AutoResetWaitableEvent Thread) (t : Thread) (w : TimedWait) (now : TimePoint) :
    AutoResetWaitableEvent Thread × Progress :=
  if e.signaled_ then ({ e with signaled_ := false }, .returns false)
  else
    let elapsed := now.sub w.start_time
    if w.timeout ≤ elapsed then (e, .returns true)
    else
      ({ e with cv_ := e.cv_.wait t },
        .waits { w with time_remaining := w.timeout.sub elapsed, since := now })

/-- What a section of `WaitWithTimeout` does to the flag: it takes it down when it returns false,
and else leaves it as it was. -/
def Fits (before after : Bool) : Progress → Prop
  | .returns false => before = true ∧ after = false
  | .returns true | .waits _ => after = before

lemma signaled_wait (e : AutoResetWaitableEvent Thread) (t : Thread) :
    (e.wait t).1.signaled_ = false := by
  cases hsignaled : e.signaled_ <;> simp [wait, hsignaled]

lemma returns_wait (e : AutoResetWaitableEvent Thread) (t : Thread) :
    (e.wait t).2 = e.signaled_ := by
  cases hsignaled : e.signaled_ <;> simp [wait, hsignaled]

lemma signaled_waitWithTimeout (e : AutoResetWaitableEvent Thread) (t : Thread)
    (timeout : TimeDelta) (now : TimePoint) :
    (e.waitWithTimeout t timeout now).1.signaled_ = false := by
  cases hsignaled : e.signaled_ <;> simp [waitWithTimeout, hsignaled]

lemma fits_waitWithTimeout (e : AutoResetWaitableEvent Thread) (t : Thread) (timeout : TimeDelta)
    (now : TimePoint) :
    Fits e.signaled_ (e.waitWithTimeout t timeout now).1.signaled_
      (e.waitWithTimeout t timeout now).2 := by
  cases hsignaled : e.signaled_ <;> simp [waitWithTimeout, Fits, hsignaled]

lemma signaled_awoken (e : AutoResetWaitableEvent Thread) (t : Thread) (w : TimedWait)
    (now : TimePoint) : (e.awoken t w now).1.signaled_ = false := by
  cases hsignaled : e.signaled_ with
  | true => simp [awoken, hsignaled]
  | false => by_cases hlate : w.timeout ≤ now.sub w.start_time <;> simp [awoken, hsignaled, hlate]

lemma fits_awoken (e : AutoResetWaitableEvent Thread) (t : Thread) (w : TimedWait)
    (now : TimePoint) :
    Fits e.signaled_ (e.awoken t w now).1.signaled_ (e.awoken t w now).2 := by
  cases hsignaled : e.signaled_ with
  | true => simp [awoken, Fits, hsignaled]
  | false =>
      by_cases hlate : w.timeout ≤ now.sub w.start_time <;>
        simp [awoken, Fits, hsignaled, hlate]

end AutoResetWaitableEvent

/-! ## Histories -/

/-- Where a thread is.  `changed` remembers whether a section of the call has changed the flag. -/
inductive EventCall where
  | outside
  | wait
  | waitWithTimeout (w : TimedWait) (changed : Bool)

/-- A call that has returned: whether a `Signal` found the flag down, what a `WaitWithTimeout`
returned and whether it has changed the flag. -/
inductive EventReturn where
  | signal (foundDown : Bool)
  | wait
  | waitWithTimeout (timedOut changed : Bool)
  deriving DecidableEq

/-- The event, the latest reading of the clock, where the threads are and what has returned. -/
structure EventHistory (Thread : Type) where
  event : AutoResetWaitableEvent Thread
  clock : TimePoint
  calls : Thread → EventCall
  returned : List EventReturn

/-- One section of one thread, or a wake-up without a reason. -/
inductive EventAction (Thread : Type) where
  | signal (thread : Thread) (notified : Option Thread)
  | wait (thread : Thread)
  | waitWithTimeout (thread : Thread) (timeout : TimeDelta) (now : TimePoint)
  | spuriousWake (thread : Thread)
  | resume (thread : Thread) (now : TimePoint)
  | timedOut (thread : Thread) (now : TimePoint)

namespace EventHistory

variable {Thread : Type} [DecidableEq Thread] {s t : EventHistory Thread}

omit [DecidableEq Thread] in
/-- A new event, when the clock shows `clock`. -/
def created (clock : TimePoint) : EventHistory Thread := ⟨.create, clock, fun _ => .outside, []⟩

/-- After a section of a `Wait` call. -/
def waitSection (s : EventHistory Thread) (thread : Thread)
    (r : AutoResetWaitableEvent Thread × Bool) : EventHistory Thread :=
  { s with
    event := r.1
    calls := Function.update s.calls thread (if r.2 then .outside else .wait)
    returned := if r.2 then s.returned ++ [.wait] else s.returned }

/-- After a section of a `WaitWithTimeout` call that had changed the flag before or not. -/
def timedSection (s : EventHistory Thread) (thread : Thread) (now : TimePoint) (changed : Bool)
    (r : AutoResetWaitableEvent Thread × Progress) : EventHistory Thread :=
  let changed := changed || (r.1.signaled_ != s.event.signaled_)
  match r.2 with
  | .returns timedOut =>
      { event := r.1
        clock := now
        calls := Function.update s.calls thread .outside
        returned := s.returned ++ [.waitWithTimeout timedOut changed] }
  | .waits w =>
      { s with
        event := r.1
        clock := now
        calls := Function.update s.calls thread (.waitWithTimeout w changed) }

/-- The history after one more section. -/
def step (s : EventHistory Thread) : EventAction Thread → Option (EventHistory Thread)
  | .signal thread notified =>
      match s.calls thread with
      | .outside =>
          (s.event.signal notified).map fun event =>
            { s with event := event, returned := s.returned ++ [.signal (!s.event.signaled_)] }
      | _ => none
  | .wait thread =>
      match s.calls thread with
      | .outside => some (s.waitSection thread (s.event.wait thread))
      | _ => none
  | .waitWithTimeout thread timeout now =>
      match s.calls thread with
      | .outside =>
          if s.clock ≤ now then
            some (s.timedSection thread now false (s.event.waitWithTimeout thread timeout now))
          else none
      | _ => none
  | .spuriousWake thread =>
      (s.event.cv_.wake thread).map fun cv_ => { s with event := { s.event with cv_ := cv_ } }
  | .resume thread now =>
      (s.event.cv_.resume thread).bind fun cv_ =>
        match s.calls thread with
        | .wait => some (s.waitSection thread ({ s.event with cv_ := cv_ }.wait thread))
        | .waitWithTimeout w changed =>
            if s.clock ≤ now then
              some (s.timedSection thread now changed
                ({ s.event with cv_ := cv_ }.awoken thread w now))
            else none
        | .outside => none
  | .timedOut thread now =>
      match s.calls thread with
      | .waitWithTimeout w changed =>
          if s.clock ≤ now ∧ w.deadline ≤ now.ticks then
            (s.event.cv_.giveUp thread).map fun cv_ =>
              s.timedSection thread now changed ({ s.event with cv_ := cv_ }, .returns true)
          else none
      | _ => none

/-- What a step can do. -/
inductive Moves (s : EventHistory Thread) : EventAction Thread → EventHistory Thread → Prop
  | signal {thread : Thread} {notified : Option Thread} {cv_ : CondVar Thread}
      (hnotify : s.event.cv_.notifyOne notified = some cv_) :
      s.Moves (.signal thread notified)
        { s with event := ⟨cv_, true⟩, returned := s.returned ++ [.signal (!s.event.signaled_)] }
  | wait {thread : Thread} : s.Moves (.wait thread) (s.waitSection thread (s.event.wait thread))
  | waitWithTimeout {thread : Thread} {timeout : TimeDelta} {now : TimePoint} :
      s.Moves (.waitWithTimeout thread timeout now)
        (s.timedSection thread now false (s.event.waitWithTimeout thread timeout now))
  | spuriousWake {thread : Thread} {cv_ : CondVar Thread}
      (hwake : s.event.cv_.wake thread = some cv_) :
      s.Moves (.spuriousWake thread) { s with event := { s.event with cv_ := cv_ } }
  | resumeWait {thread : Thread} {now : TimePoint} {cv_ : CondVar Thread} :
      s.Moves (.resume thread now)
        (s.waitSection thread ({ s.event with cv_ := cv_ }.wait thread))
  | resumeTimed {thread : Thread} {now : TimePoint} {cv_ : CondVar Thread} {w : TimedWait}
      {changed : Bool} (hcall : s.calls thread = .waitWithTimeout w changed) :
      s.Moves (.resume thread now)
        (s.timedSection thread now changed ({ s.event with cv_ := cv_ }.awoken thread w now))
  | timedOut {thread : Thread} {now : TimePoint} {cv_ : CondVar Thread} {w : TimedWait}
      {changed : Bool} (hcall : s.calls thread = .waitWithTimeout w changed)
      (hgiveUp : s.event.cv_.giveUp thread = some cv_) :
      s.Moves (.timedOut thread now)
        (s.timedSection thread now changed ({ s.event with cv_ := cv_ }, .returns true))

lemma moves_of_step {a : EventAction Thread} (ht : s.step a = some t) : s.Moves a t := by
  cases a with
  | signal thread notified =>
      simp only [step, AutoResetWaitableEvent.signal] at ht
      split at ht
      · simp only [Option.map_map, Option.map_eq_some_iff, Function.comp_apply] at ht
        rcases ht with ⟨cv_, hnotify, rfl⟩
        exact .signal hnotify
      · cases ht
  | wait thread =>
      simp only [step] at ht
      split at ht
      · cases ht
        exact .wait
      · cases ht
  | waitWithTimeout thread timeout now =>
      simp only [step] at ht
      split at ht
      · simp only [Option.ite_none_right_eq_some, Option.some.injEq] at ht
        rcases ht with ⟨_, rfl⟩
        exact .waitWithTimeout
      · cases ht
  | spuriousWake thread =>
      simp only [step, Option.map_eq_some_iff] at ht
      rcases ht with ⟨cv_, hwake, rfl⟩
      exact .spuriousWake hwake
  | resume thread now =>
      simp only [step, Option.bind_eq_some_iff] at ht
      rcases ht with ⟨cv_, _, ht⟩
      split at ht
      · cases ht
        exact .resumeWait
      · rename_i w changed hcall
        simp only [Option.ite_none_right_eq_some, Option.some.injEq] at ht
        rcases ht with ⟨_, rfl⟩
        exact .resumeTimed hcall
      · cases ht
  | timedOut thread now =>
      simp only [step] at ht
      split at ht
      · rename_i w changed hcall
        simp only [Option.ite_none_right_eq_some, Option.map_eq_some_iff] at ht
        rcases ht with ⟨_, cv_, hgiveUp, rfl⟩
        exact .timedOut hcall hgiveUp
      · cases ht

@[simp] lemma event_timedSection (s : EventHistory Thread) (thread : Thread) (now : TimePoint)
    (changed : Bool) (r : AutoResetWaitableEvent Thread × Progress) :
    (s.timedSection thread now changed r).event = r.1 := by
  rcases r with ⟨event, _ | _⟩ <;> rfl

/-! ## Waiters that sleep through a signal -/

/-- The flag is up, somebody sleeps, and nobody is on the way to look at the flag.  A notification
is delivered as it is made. -/
def Stranded (s : EventHistory Thread) : Prop :=
  s.event.signaled_ = true ∧ s.event.cv_.blocked.Nonempty ∧ s.event.cv_.woken = ∅

/-- A waiter that was woken reports a timeout only when the flag is down, somebody else is woken
too, or nobody sleeps. -/
def TimeoutHarmless (s : EventHistory Thread) : EventAction Thread → Prop
  | .timedOut thread _ => thread ∈ s.event.cv_.woken →
      s.event.signaled_ = false ∨ s.event.cv_.woken ≠ {thread} ∨ s.event.cv_.blocked = ∅
  | _ => True

omit [DecidableEq Thread] in
lemma not_stranded_of_down (hdown : s.event.signaled_ = false) : ¬ s.Stranded := by
  simp [Stranded, hdown]

/-- After a waiter has given up, somebody is stranded only if somebody was before, or if the waiter
was the last one woken. -/
lemma stranded_giveUp {thread : Thread} {cv_ : CondVar Thread}
    (hgiveUp : s.event.cv_.giveUp thread = some cv_)
    (hcv : t.event = { s.event with cv_ := cv_ }) :
    t.Stranded ↔ s.event.signaled_ = true ∧ s.event.cv_.woken ⊆ {thread} ∧
      (s.event.cv_.blocked.erase thread).Nonempty := by
  rcases CondVar.giveUp_eq_some hgiveUp with ⟨_, hblocked, hwoken⟩
  simp only [Stranded, hcv, hblocked, hwoken, Finset.erase_eq_empty_iff,
    Finset.subset_singleton_iff]
  tauto

lemma not_stranded_step {a : EventAction Thread} (hnot : ¬ s.Stranded) (ht : s.step a = some t)
    (hharmless : s.TimeoutHarmless a) : ¬ t.Stranded := by
  cases moves_of_step ht with
  | signal hnotify =>
      rintro ⟨_, hblocked, hwoken⟩
      rcases CondVar.woken_or_blocked_of_notifyOne hnotify with hsome | hnobody
      · exact hsome.ne_empty hwoken
      · exact hblocked.ne_empty hnobody
  | wait => exact not_stranded_of_down (AutoResetWaitableEvent.signaled_wait _ _)
  | waitWithTimeout =>
      refine not_stranded_of_down ?_
      rw [event_timedSection]
      exact AutoResetWaitableEvent.signaled_waitWithTimeout _ _ _ _
  | spuriousWake hwake =>
      rintro ⟨_, _, hwoken⟩
      exact (CondVar.woken_nonempty_of_wake hwake).ne_empty hwoken
  | resumeWait => exact not_stranded_of_down (AutoResetWaitableEvent.signaled_wait _ _)
  | resumeTimed hcall =>
      refine not_stranded_of_down ?_
      rw [event_timedSection]
      exact AutoResetWaitableEvent.signaled_awoken _ _ _ _
  | @timedOut thread now cv_ w changed hcall hgiveUp =>
      rw [stranded_giveUp hgiveUp (event_timedSection _ _ _ _ _)]
      rintro ⟨hsignaled, hwoken, hblocked⟩
      have hsome : s.event.cv_.blocked.Nonempty := hblocked.mono (Finset.erase_subset _ _)
      have hone : s.event.cv_.woken ≠ ∅ := fun hnone => hnot ⟨hsignaled, hsome, hnone⟩
      have hwoken := (Finset.subset_singleton_iff.mp hwoken).resolve_left hone
      have hmem : thread ∈ s.event.cv_.woken := by simp [hwoken]
      rcases hharmless hmem with hdown | hmore | hnobody
      · simp [hdown] at hsignaled
      · exact hmore hwoken
      · exact hsome.ne_empty hnobody

/-- The last woken waiter that times out under a signal leaves those asleep stranded. -/
lemma timeoutHarmless_of_not_stranded {a : EventAction Thread} (ht : s.step a = some t)
    (hnot : ¬ t.Stranded) : s.TimeoutHarmless a := by
  cases moves_of_step ht with
  | @timedOut thread now cv_ w changed hcall hgiveUp =>
      intro hmem
      rw [stranded_giveUp hgiveUp (event_timedSection _ _ _ _ _)] at hnot
      by_contra hharm
      simp only [not_or, not_not, Bool.not_eq_false, ← Finset.nonempty_iff_ne_empty] at hharm
      rcases hharm with ⟨hsignaled, hwoken, hblocked⟩
      refine hnot ⟨hsignaled, by simp [hwoken], ?_⟩
      rwa [Finset.erase_eq_of_notMem (Finset.disjoint_right.mp s.event.cv_.disjoint hmem)]
  | _ => trivial

/-- **When no waiter sleeps through a signal.**  In every history: nobody is stranded after any
step, if and only if a woken waiter reports a timeout only while the flag is down, somebody else is
woken too, or nobody sleeps. -/
theorem never_stranded_iff (clock : TimePoint) (acts : List (EventAction Thread)) :
    EveryStep step (fun _ _ t => ¬ t.Stranded) (created clock) acts ↔
      EveryStep step (fun s a _ => s.TimeoutHarmless a) (created clock) acts := by
  refine everyStep_iff (I := fun s => ¬ s.Stranded) ?_ ?_ (not_stranded_of_down rfl)
  · intro s a t hnot ht hharmless
    have hnot' := not_stranded_step hnot ht hharmless
    exact ⟨hnot', hnot'⟩
  · intro s a t _ ht hnot
    exact timeoutHarmless_of_not_stranded ht hnot

/-- Two threads wait, one of them for no time at all.  The signal is given to that one, which
reports its timeout. -/
theorem waiter_stranded :
    ¬ ∀ acts : List (EventAction ℕ),
      EveryStep step (fun _ _ t => ¬ t.Stranded) (created ⟨0⟩) acts := by
  intro hall
  have hnot := (hall ([.wait 0, .waitWithTimeout 1 ⟨1⟩ ⟨0⟩, .signal 2 (some 1)] ++
    [.timedOut 1 ⟨1⟩])).at rfl rfl
  exact hnot ⟨rfl, by decide, by decide⟩

/-! ## Signals and the calls they release -/

/-- The calls of `Signal` that found the flag down. -/
def freshSignals (s : EventHistory Thread) : ℕ := s.returned.count (.signal true)

/-- The calls of `Wait` that have returned. -/
def completedWaits (s : EventHistory Thread) : ℕ := s.returned.count .wait

/-- The calls of `WaitWithTimeout` that have returned false. -/
def releasedTimedWaits (s : EventHistory Thread) : ℕ :=
  s.returned.count (.waitWithTimeout false true) + s.returned.count (.waitWithTimeout false false)

/-- Every signal that raised the flag has released one call or is still there, and a call that does
not take a signal leaves the flag alone. -/
structure SignalsAccounted (s : EventHistory Thread) : Prop where
  counted :
    s.freshSignals = s.completedWaits + s.releasedTimedWaits + s.event.signaled_.toNat
  unchanged : ∀ thread w changed, s.calls thread = .waitWithTimeout w changed → changed = false
  timedOut : ∀ changed, .waitWithTimeout true changed ∈ s.returned → changed = false

omit [DecidableEq Thread] in
lemma signalsAccounted_created (clock : TimePoint) :
    (created clock : EventHistory Thread).SignalsAccounted where
  counted := rfl
  unchanged _ _ _ hcall := by cases hcall
  timedOut _ hmem := by cases hmem

/-- The counts after one more return. -/
lemma count_returned (l : List EventReturn) (r r' : EventReturn) :
    (l ++ [r]).count r' = l.count r' + if r = r' then 1 else 0 := by
  simp [List.count_append, List.count_singleton]

omit [DecidableEq Thread] in
/-- One more call returns, with the flag unchanged if it has timed out. -/
lemma SignalsAccounted.timedOut_append (ha : s.SignalsAccounted) {r : EventReturn}
    (hr : ∀ changed, .waitWithTimeout true changed = r → changed = false) :
    ∀ changed, .waitWithTimeout true changed ∈ s.returned ++ [r] → changed = false := by
  intro changed hmem
  rcases List.mem_append.mp hmem with hmem | hmem
  · exact ha.timedOut changed hmem
  · exact hr changed (List.mem_singleton.mp hmem)

omit [DecidableEq Thread] in
lemma SignalsAccounted.signal (ha : s.SignalsAccounted) (cv_ : CondVar Thread) :
    SignalsAccounted
      { s with event := ⟨cv_, true⟩, returned := s.returned ++ [.signal (!s.event.signaled_)] }
    where
  counted := by
    have hcounted := ha.counted
    simp only [freshSignals, completedWaits, releasedTimedWaits, count_returned] at hcounted ⊢
    cases hsignaled : s.event.signaled_ <;> simp [hsignaled] at hcounted ⊢ <;> omega
  unchanged := ha.unchanged
  timedOut := ha.timedOut_append (by simp)

/-- One thread goes on, with the flag unchanged so far if it is in `WaitWithTimeout`. -/
lemma SignalsAccounted.unchanged_update (ha : s.SignalsAccounted) (thread : Thread)
    {call : EventCall} (hcall : ∀ w changed, call = .waitWithTimeout w changed → changed = false) :
    ∀ x w changed, Function.update s.calls thread call x = .waitWithTimeout w changed →
      changed = false := by
  intro x w changed hx
  by_cases hthread : x = thread
  · subst hthread
    rw [Function.update_self] at hx
    exact hcall w changed hx
  · rw [Function.update_of_ne hthread] at hx
    exact ha.unchanged x w changed hx

/-- A section of `Wait` returns exactly when it takes the signal. -/
lemma SignalsAccounted.waitSection (ha : s.SignalsAccounted) (thread : Thread)
    {e : AutoResetWaitableEvent Thread} (hflag : e.signaled_ = s.event.signaled_) :
    (s.waitSection thread (e.wait thread)).SignalsAccounted := by
  have hdown := AutoResetWaitableEvent.signaled_wait e thread
  have hreturns := (AutoResetWaitableEvent.returns_wait e thread).trans hflag
  refine ⟨?_, ?_, ?_⟩
  · have hcounted := ha.counted
    simp only [freshSignals, completedWaits, releasedTimedWaits, EventHistory.waitSection, hdown,
      hreturns] at hcounted ⊢
    cases hsignaled : s.event.signaled_ with
    | true =>
        simp only [hsignaled, if_true, count_returned] at hcounted ⊢
        simp at hcounted ⊢
        omega
    | false => simpa [hsignaled] using hcounted
  · refine ha.unchanged_update thread fun w changed hcall => ?_
    split at hcall <;> cases hcall
  · simp only [EventHistory.waitSection]
    split
    · exact ha.timedOut_append (by simp)
    · exact ha.timedOut

/-- A section of `WaitWithTimeout` returns false exactly when it takes the signal, and else leaves
the flag alone. -/
lemma SignalsAccounted.timedSection (ha : s.SignalsAccounted) (thread : Thread) (now : TimePoint)
    {r : AutoResetWaitableEvent Thread × Progress}
    (hfits : AutoResetWaitableEvent.Fits s.event.signaled_ r.1.signaled_ r.2) :
    (s.timedSection thread now false r).SignalsAccounted := by
  rcases r with ⟨event, timedOut | w⟩
  · refine ⟨?_, ?_, ?_⟩
    · have hcounted := ha.counted
      simp only [freshSignals, completedWaits, releasedTimedWaits, EventHistory.timedSection,
        count_returned] at hcounted ⊢
      cases timedOut with
      | false =>
          rcases hfits with ⟨hup, hdown⟩
          simp only at hdown
          simp [hup, hdown] at hcounted ⊢
          omega
      | true =>
          have hsame : event.signaled_ = s.event.signaled_ := hfits
          simpa [hsame] using hcounted
    · exact ha.unchanged_update thread fun _ _ hcall => by cases hcall
    · refine ha.timedOut_append fun changed hr => ?_
      cases timedOut with
      | false => simp at hr
      | true =>
          have hsame : event.signaled_ = s.event.signaled_ := hfits
          simpa [hsame] using hr
  · have hsame : event.signaled_ = s.event.signaled_ := hfits
    refine ⟨?_, ?_, ha.timedOut⟩
    · have hcounted := ha.counted
      simpa [freshSignals, completedWaits, releasedTimedWaits, EventHistory.timedSection, hsame]
        using hcounted
    · refine ha.unchanged_update thread fun w' changed hcall => ?_
      simpa [hsame] using (EventCall.waitWithTimeout.inj hcall).2.symm

theorem signalsAccounted_step (s : EventHistory Thread) (a : EventAction Thread)
    (t : EventHistory Thread) (ha : s.SignalsAccounted) (ht : s.step a = some t) :
    t.SignalsAccounted := by
  cases moves_of_step ht with
  | signal hnotify => exact ha.signal _
  | wait => exact ha.waitSection _ rfl
  | waitWithTimeout =>
      exact ha.timedSection _ _ (AutoResetWaitableEvent.fits_waitWithTimeout _ _ _ _)
  | spuriousWake hwake => exact ⟨ha.counted, ha.unchanged, ha.timedOut⟩
  | resumeWait => exact ha.waitSection _ rfl
  | @resumeTimed thread now cv_ w changed hcall =>
      rw [ha.unchanged _ _ _ hcall]
      exact ha.timedSection _ _
        (AutoResetWaitableEvent.fits_awoken { s.event with cv_ := cv_ } thread w now)
  | timedOut hcall hgiveUp =>
      rw [ha.unchanged _ _ _ hcall]
      exact ha.timedSection _ _ rfl

/-- **Every signal is taken at most once, and none is lost.**  After every history, the `Signal`
calls that found the flag down are as many as the `Wait` calls that have returned, the
`WaitWithTimeout` calls that have returned false, and one more while the flag is up.  No
`WaitWithTimeout` call that has returned true has changed the flag. -/
theorem signals_accounted (clock : TimePoint) {acts : List (EventAction Thread)}
    (hrun : run step (created clock) acts = some s) :
    s.freshSignals = s.completedWaits + s.releasedTimedWaits + s.event.signaled_.toNat ∧
      ∀ changed, .waitWithTimeout true changed ∈ s.returned → changed = false := by
  have ha := run_invariant signalsAccounted_step (signalsAccounted_created clock) hrun
  exact ⟨ha.counted, ha.timedOut⟩

/-- Two signals, of which one raises the flag, one call that takes it and one that times out. -/
theorem two_signals_one_release : ∃ s : EventHistory ℕ,
    run step (created ⟨0⟩) [.signal 0 none, .signal 0 none, .waitWithTimeout 1 ⟨5⟩ ⟨0⟩,
      .waitWithTimeout 2 ⟨5⟩ ⟨0⟩, .timedOut 2 ⟨5⟩] = some s ∧
    s.freshSignals = s.completedWaits + s.releasedTimedWaits + s.event.signaled_.toNat ∧
      ∀ changed, .waitWithTimeout true changed ∈ s.returned → changed = false := by
  rcases Option.isSome_iff_exists.mp (rfl : (run step (created ⟨0⟩ : EventHistory ℕ)
    [.signal 0 none, .signal 0 none, .waitWithTimeout 1 ⟨5⟩ ⟨0⟩,
      .waitWithTimeout 2 ⟨5⟩ ⟨0⟩, .timedOut 2 ⟨5⟩]).isSome = true) with ⟨s, hs⟩
  exact ⟨s, hs, signals_accounted ⟨0⟩ hs⟩

end EventHistory

end FFNetwork
