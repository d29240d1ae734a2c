import FFNetwork.Base.Time

/-!
# MessageLoopImplLinux::RunForTime

`source/base/messageloop/message_loop_impl_linux.cpp`: the loop around `epoll_wait`.  An iteration
is given by what `epoll_wait` returned, what `errno` stood at, and the clock at its end; of the
tasks that `OnEventFired` runs, only a call of `Terminate` matters to the loop.

The loop subtracts from what is left the time since it was entered, not the time since it last
looked, and it hands `epoll_wait` the low 32 bits of what is left.

* `runForTime` — when the loop leaves, if it does within the given returns.
* **`runForTime_never_early_iff`** — for which returns it stays until the deadline.
-/

namespace FFNetwork

/-! ## The loop -/

/-- The bit of `events` for an error on the descriptor. -/
def EPOLLERR : UInt32 := 0x008

/-- The bit of `events` for a hang-up. -/
def EPOLLHUP : UInt32 := 0x010

/-- The `errno` of a wait that a signal has interrupted. -/
def EINTR : Int32 := 4

/-- One return of `epoll_wait`. -/
structure EpollReturn where
  epoll_result : Int32
  /-- `event.events`. -/
  events : UInt32
  /-- `errno` after the call; the call sets it only when it fails. -/
  errno : Int32
  /-- Whether `Terminate` has been called, by a task or another thread. -/
  terminated : Bool
  /-- The clock at the end of the iteration. -/
  now : TimePoint
deriving Repr

/-- What the while loop of `RunForTime` goes by. -/
structure LoopImplLinux where
  running_ : Bool
  left_milliseconds : Int64
deriving Repr

namespace LoopImplLinux

/-- The `int` that `epoll_wait` gets for its timeout. -/
def timeout (s : LoopImplLinux) : Int32 := s.left_milliseconds.toInt32

/-- The body of the while loop after `epoll_wait`. -/
def serve (start_time : TimePoint) (s : LoopImplLinux) (r : EpollReturn) : LoopImplLinux :=
  if r.events &&& (EPOLLERR ||| EPOLLHUP) ≠ 0 then { s with running_ := false }
  else if r.epoll_result ≠ 1 ∧ r.errno ≠ EINTR then { s with running_ := false }
  else
    let left_milliseconds := s.left_milliseconds - (r.now.sub start_time).toMilliseconds
    { running_ := if left_milliseconds ≤ 0 then false else s.running_ && !r.terminated
      left_milliseconds := left_milliseconds }

/-- The while loop: the clock when it leaves, or `none` if it still runs after these returns. -/
def whileLoop (start_time : TimePoint) : LoopImplLinux → List EpollReturn → Option TimePoint
  | _, [] => none
  | s, r :: returns =>
      if (s.serve start_time r).running_ then whileLoop start_time (s.serve start_time r) returns
      else some r.now

end LoopImplLinux

open LoopImplLinux

/-- `RunForTime(duration)`, entered when the clock stands at `start_time`. -/
def runForTime (duration : TimeDelta) (start_time : TimePoint) (returns : List EpollReturn) :
    Option TimePoint :=
  whileLoop start_time ⟨true, duration.toMilliseconds⟩ returns

/-- `Run()`. -/
def runLinux (start_time : TimePoint) (returns : List EpollReturn) : Option TimePoint :=
  runForTime TimeDelta.max start_time returns

/-! ## What `epoll_wait` and the clock promise -/

/-- A wait that ended without an event has lasted as long as its timeout; a negative timeout never
passes. -/
def LoopImplLinux.Waited (s : LoopImplLinux) (previous : TimePoint) (r : EpollReturn) : Prop :=
  r.epoll_result = 0 →
    0 ≤ s.timeout.toInt ∧ previous.ticks + s.timeout.toInt * 1000000 ≤ r.now.ticks

/-- Every wait of the loop has lasted as it should, the first one since `previous`. -/
def AllWaited (start_time : TimePoint) :
    TimePoint → LoopImplLinux → List EpollReturn → Prop
  | _, _, [] => True
  | previous, s, r :: returns =>
      s.Waited previous r ∧ AllWaited start_time r.now (s.serve start_time r) returns

/-- A run in which the clock does not go back, `epoll_wait` reports no error and times out only
when its timeout has passed, and `Terminate` is not called. -/
structure Admissible (duration : TimeDelta) (start_time : TimePoint)
    (returns : List EpollReturn) : Prop where
  nonneg : 0 ≤ duration.delta_.toInt
  started : ∀ r ∈ returns, start_time ≤ r.now
  ordered : returns.Pairwise fun r r' => r.now ≤ r'.now
  noError : ∀ r ∈ returns, r.events &&& (EPOLLERR ||| EPOLLHUP) = 0 ∧
    (r.epoll_result = -1 → r.errno = EINTR)
  notTerminated : ∀ r ∈ returns, r.terminated = false
  waited : AllWaited start_time start_time ⟨true, duration.toMilliseconds⟩ returns

/-- If the loop leaves, the whole milliseconds of the duration have passed. -/
def NeverEarly (duration : TimeDelta) (start_time : TimePoint) (returns : List EpollReturn) :
    Prop :=
  ∀ left, runForTime duration start_time returns = some left →
    duration.delta_.toInt / 1000000 * 1000000 ≤ left.ticks - start_time.ticks

/-! ## When the loop leaves -/

/-- The whole milliseconds from the start to a return. -/
def elapsed (start_time : TimePoint) (r : EpollReturn) : ℤ :=
  (r.now.ticks - start_time.ticks) / 1000000

/-- The sum of what the loop subtracts at these returns. -/
def totalElapsed (start_time : TimePoint) : List EpollReturn → ℤ
  | [] => 0
  | r :: returns => elapsed start_time r + totalElapsed start_time returns

/-- The loop takes this return for a timeout. -/
def EpollReturn.TimedOut (r : EpollReturn) : Prop := r.epoll_result ≠ 1 ∧ r.errno ≠ EINTR

/-- Before the deadline no wait times out, and the times since the start that are read at the
wake-ups do not sum up to the deadline. -/
def InTime (deadline : ℤ) (start_time : TimePoint) (returns : List EpollReturn) : Prop :=
  ∀ before r, before ++ [r] <+: returns → elapsed start_time r < deadline →
    ¬ r.TimedOut ∧ totalElapsed start_time before + elapsed start_time r < deadline

lemma elapsed_lt_iff {deadline : ℤ} {start_time : TimePoint} {r : EpollReturn} :
    elapsed start_time r < deadline ↔ r.now.ticks - start_time.ticks < deadline * 1000000 := by
  rw [elapsed]
  omega

/-- The prefixes of a list with a head, by their last element. -/
lemma forall_prefix_cons {α : Type} {P : List α → α → Prop} {a : α} {l : List α} :
    (∀ before b, before ++ [b] <+: a :: l → P before b) ↔
      P [] a ∧ ∀ before b, before ++ [b] <+: l → P (a :: before) b := by
  constructor
  · exact fun h => ⟨h [] a ⟨l, rfl⟩, fun before b hpre =>
      h (a :: before) b (List.cons_prefix_cons.mpr ⟨rfl, hpre⟩)⟩
  · rintro ⟨hhead, htail⟩ before b hpre
    cases before with
    | nil =>
        obtain ⟨rfl, _⟩ := List.cons_prefix_cons.mp hpre
        exact hhead
    | cons c before =>
        obtain ⟨rfl, hrest⟩ := List.cons_prefix_cons.mp hpre
        exact htail before b hrest

namespace LoopImplLinux

variable {start_time : TimePoint} {s : LoopImplLinux} {r : EpollReturn}

/-- The loop leaves at one of the returns. -/
lemma exists_of_whileLoop {returns : List EpollReturn} {left : TimePoint}
    (h : whileLoop start_time s returns = some left) : ∃ r ∈ returns, r.now = left := by
  induction returns generalizing s with
  | nil => cases h
  | cons r returns ih =>
      rw [whileLoop] at h
      split at h
      · obtain ⟨r', hr', hnow⟩ := ih h
        exact ⟨r', List.mem_cons_of_mem _ hr', hnow⟩
      · exact ⟨r, List.mem_cons_self .., Option.some.inj h⟩

lemma serve_timedOut (herr : r.events &&& (EPOLLERR ||| EPOLLHUP) = 0) (hout : r.TimedOut) :
    (s.serve start_time r).running_ = false := by
  rw [EpollReturn.TimedOut] at hout
  rw [serve, if_neg (not_not.mpr herr), if_pos hout]

/-- What is left after a wake-up, while neither the clock nor the count overflows. -/
lemma toInt_left_sub (hstart : start_time ≤ r.now)
    (hfit : r.now.ticks - start_time.ticks < 2 ^ 63)
    (hleft : -2 ^ 63 ≤ s.left_milliseconds.toInt - elapsed start_time r) :
    (s.left_milliseconds - (r.now.sub start_time).toMilliseconds).toInt
      = s.left_milliseconds.toInt - elapsed start_time r := by
  have hsub := TimePoint.toInt_sub hstart hfit
  have hpos : 0 ≤ r.now.ticks - start_time.ticks := Int.sub_nonneg_of_le hstart
  have hms : (r.now.sub start_time).toMilliseconds.toInt = elapsed start_time r := by
    rw [TimeDelta.toInt_toMilliseconds (hsub ▸ hpos), hsub, elapsed]
  have hnonneg : 0 ≤ elapsed start_time r := by
    rw [elapsed]
    omega
  have hlt := s.left_milliseconds.toInt_lt
  rw [Int64.toInt_sub, hms]
  exact Int.bmod_eq_of_le (by omega) (by omega)

/-- A wake-up takes the time since the start off what is left, and stops the loop when nothing is
left. -/
lemma serve_event (herr : r.events &&& (EPOLLERR ||| EPOLLHUP) = 0) (hevent : ¬ r.TimedOut)
    (hterm : r.terminated = false) (hrun : s.running_ = true) (hstart : start_time ≤ r.now)
    (hleft : 0 ≤ s.left_milliseconds.toInt)
    (hfit : r.now.ticks - start_time.ticks < 2 ^ 63) :
    (s.serve start_time r).left_milliseconds.toInt
        = s.left_milliseconds.toInt - elapsed start_time r ∧
      ((s.serve start_time r).running_ = true ↔
        elapsed start_time r < s.left_milliseconds.toInt) := by
  have hval := toInt_left_sub (s := s) hstart hfit (by rw [elapsed]; omega)
  rw [EpollReturn.TimedOut] at hevent
  rw [serve, if_neg (not_not.mpr herr), if_neg hevent]
  refine ⟨hval, ?_⟩
  simp only [hrun, hterm, Int64.le_iff_toInt_le, hval, Int64.toInt_zero]
  split
  · simp only [Bool.false_eq_true, false_iff, not_lt]
    omega
  · simp only [Bool.not_false, Bool.and_true, true_iff]
    omega

/-- The loop with `deadline - passed` milliseconds left, where `passed` is the sum of the times read
so far.  The induction is on the returns; a return at or after the deadline settles both sides. -/
lemma whileLoop_iff {deadline : ℤ} (hfit : deadline * 1000000 < 2 ^ 63)
    {returns : List EpollReturn} {passed : ℤ} (hstart : ∀ r ∈ returns, start_time ≤ r.now)
    (hord : returns.Pairwise fun r r' => r.now ≤ r'.now)
    (herr : ∀ r ∈ returns, r.events &&& (EPOLLERR ||| EPOLLHUP) = 0)
    (hterm : ∀ r ∈ returns, r.terminated = false) (hrun : s.running_ = true)
    (hleft : s.left_milliseconds.toInt = deadline - passed) (hpassed : passed ≤ deadline) :
    (∀ left, whileLoop start_time s returns = some left →
        deadline * 1000000 ≤ left.ticks - start_time.ticks) ↔
      ∀ before r, before ++ [r] <+: returns → elapsed start_time r < deadline →
        ¬ r.TimedOut ∧
          passed + totalElapsed start_time before + elapsed start_time r < deadline := by
  induction returns generalizing s passed with
  | nil => simp [whileLoop]
  | cons r returns ih =>
      have hord := List.pairwise_cons.mp hord
      by_cases hpast : deadline ≤ elapsed start_time r
      · have hlate : ∀ r' ∈ r :: returns, deadline ≤ elapsed start_time r' := by
          intro r' hr'
          rcases List.mem_cons.mp hr' with rfl | hr'
          · exact hpast
          · have hle := TimePoint.le_iff.mp (hord.1 r' hr')
            rw [elapsed] at hpast ⊢
            omega
        refine iff_of_true (fun left hleft => ?_) fun before r' hpre hlt => ?_
        · obtain ⟨r', hr', rfl⟩ := exists_of_whileLoop hleft
          have := hlate r' hr'
          rw [elapsed] at this
          omega
        · exact absurd (hlate r' (hpre.subset (by simp))) (not_le.mpr hlt)
      · rw [not_le] at hpast
        have hbefore := elapsed_lt_iff.mp hpast
        rw [forall_prefix_cons, whileLoop]
        by_cases hout : r.TimedOut
        · have hstop : (s.serve start_time r).running_ = false :=
            serve_timedOut (herr r (List.mem_cons_self ..)) hout
          rw [if_neg (by rw [hstop]; exact Bool.false_ne_true)]
          refine iff_of_false (fun h => ?_) fun h => absurd hout (h.1 hpast).1
          exact absurd (h r.now rfl) (not_le.mpr hbefore)
        · obtain ⟨hleft', hrun'⟩ := serve_event (s := s) (herr r (List.mem_cons_self ..)) hout
            (hterm r (List.mem_cons_self ..)) hrun (hstart r (List.mem_cons_self ..))
            (by omega) (by omega)
          by_cases hsum : passed + elapsed start_time r < deadline
          · have hrun' := hrun'.mpr (by omega)
            have hleft' : (s.serve start_time r).left_milliseconds.toInt
                = deadline - (passed + elapsed start_time r) := by omega
            rw [if_pos hrun', ih (fun r' hr' => hstart r' (List.mem_cons_of_mem r hr')) hord.2
              (fun r' hr' => herr r' (List.mem_cons_of_mem r hr'))
              (fun r' hr' => hterm r' (List.mem_cons_of_mem r hr')) hrun' hleft' hsum.le]
            simp only [totalElapsed, ← add_assoc, add_zero, hout, hsum, not_false_eq_true, and_self,
              implies_true, true_and]
          · rw [if_neg (fun h => absurd (hrun'.mp h) (by omega))]
            refine iff_of_false (fun h => ?_) fun h => hsum ?_
            · exact absurd (h r.now rfl) (not_le.mpr hbefore)
            · have := (h.1 hpast).2
              rwa [totalElapsed, add_zero] at this

end LoopImplLinux

/-- **When the loop does not leave early.**  It stays for the whole milliseconds of its duration
exactly when, before these have passed, no wait times out and the times since the start that are
read at the wake-ups sum up to less than them. -/
theorem runForTime_never_early_iff {duration : TimeDelta} {start_time : TimePoint}
    {returns : List EpollReturn} (h : Admissible duration start_time returns) :
    NeverEarly duration start_time returns ↔
      InTime (duration.delta_.toInt / 1000000) start_time returns := by
  have hlt := duration.delta_.toInt_lt
  have hnonneg := h.nonneg
  have hfit : duration.delta_.toInt / 1000000 * 1000000 < 2 ^ 63 := by omega
  have hleft : duration.toMilliseconds.toInt = duration.delta_.toInt / 1000000 - 0 := by
    rw [TimeDelta.toInt_toMilliseconds hnonneg, sub_zero]
  have hiff := whileLoop_iff (s := ⟨true, duration.toMilliseconds⟩) hfit h.started h.ordered
    (fun r hr => (h.noError r hr).1) h.notTerminated rfl hleft (by omega)
  simp only [zero_add] at hiff
  exact hiff

/-- Ten milliseconds, of which the timer takes up four and then six: the loop leaves after six. -/
theorem runForTime_leaves_early :
    ¬ ∀ (duration : TimeDelta) (start_time : TimePoint) (returns : List EpollReturn),
      Admissible duration start_time returns → NeverEarly duration start_time returns := by
  intro hall
  let returns : List EpollReturn := [⟨1, 1, 0, false, ⟨4000000⟩⟩, ⟨1, 1, 0, false, ⟨6000000⟩⟩]
  have hadm : Admissible ⟨10000000⟩ ⟨0⟩ returns := by
    refine ⟨by decide, by decide, by decide, by decide, by decide, ?_⟩
    exact ⟨fun h => absurd h (by decide), fun h => absurd h (by decide), trivial⟩
  exact absurd (hall _ _ _ hadm ⟨6000000⟩ (by decide)) (by decide)

/-- One wake-up after half of the ten milliseconds and one behind their end. -/
theorem runForTime_one_event_in_time :
    NeverEarly ⟨10000000⟩ ⟨0⟩ [⟨1, 1, 0, false, ⟨5000000⟩⟩, ⟨1, 1, 0, false, ⟨11000000⟩⟩] := by
  have hadm : Admissible ⟨10000000⟩ ⟨0⟩
      [⟨1, 1, 0, false, ⟨5000000⟩⟩, ⟨1, 1, 0, false, ⟨11000000⟩⟩] :=
    ⟨by decide, by decide, by decide, by decide, by decide,
      ⟨fun h => absurd h (by decide), fun h => absurd h (by decide), trivial⟩⟩
  refine (runForTime_never_early_iff hadm).mpr ?_
  rw [InTime, forall_prefix_cons, forall_prefix_cons]
  refine ⟨fun _ => ⟨fun hout => absurd hout.1 (by decide), by decide⟩,
    fun hlt => absurd hlt (by decide), fun before r hpre => ?_⟩
  exact absurd (List.prefix_nil.mp hpre) (by simp)

/-- `Run()` passes the low 32 bits of its 2 ^ 63 - 1 nanoseconds to `epoll_wait`, and returns when
these 24 days are over. -/
example : (LoopImplLinux.mk true TimeDelta.max.toMilliseconds).timeout = 2077252342 ∧
    runLinux ⟨0⟩ [⟨0, 0, 0, false, ⟨2077252342000000⟩⟩] = some ⟨2077252342000000⟩ := by
  decide

end FFNetwork
