import FFNetwork.Base.MessageLoop.LoopImplLinux

/-!
# The timeouts of `epoll_wait`

`MessageLoopImplLinux::RunForTime` counts what is left in 64-bit milliseconds and hands them to
`epoll_wait`, whose timeout is an `int`, and where a negative one means for ever.  The wait that is
looked at here may be the one under way: `returns` are the ones that are over.

* `EveryWait` — a property of every wait of a run of the loop.
* `WithinDuration` — the timeout is not negative, and ends with the duration at the latest.
* `within_iff` — what is left decides about one wait.
* **`waits_within_iff`** — for which durations and wake-ups every wait is within the duration.
-/

namespace FFNetwork

open LoopImplLinux

/-! ## Every wait -/

/-- Every wait of the loop has the property, with the last reading of the clock before it. -/
def EveryWait (P : TimePoint → LoopImplLinux → Prop) (start_time : TimePoint) :
    TimePoint → LoopImplLinux → List EpollReturn → Prop
  | previous, s, [] => P previous s
  | previous, s, r :: returns =>
      P previous s ∧ ((s.serve start_time r).running_ = true →
        EveryWait P start_time r.now (s.serve start_time r) returns)

/-- The timeout is not negative and at most what is left of the duration at the last reading of the
clock. -/
def WithinDuration (duration : TimeDelta) (start_time previous : TimePoint) (s : LoopImplLinux) :
    Prop :=
  0 ≤ s.timeout.toInt ∧ s.timeout.toInt ≤
    max 0 (duration.delta_.toInt / 1000000 - (previous.ticks - start_time.ticks) / 1000000)

/-- The return is an event, or a signal, and not the end of the loop. -/
structure EpollReturn.WokenUp (r : EpollReturn) : Prop where
  noError : r.events &&& (EPOLLERR ||| EPOLLHUP) = 0
  notTimedOut : ¬ r.TimedOut
  notTerminated : r.terminated = false

/-- A number of milliseconds survives the conversion to `int`: the low 32 bits of what is left are
not negative, and nothing is left of what has passed. -/
def TimeoutFits (left : ℤ) : Prop :=
  (0 ≤ left → left % 2 ^ 32 < 2 ^ 31) ∧ (left < 0 → left % 2 ^ 32 = 0)

/-- What is left at every wait fits: after wake-ups at which the times since the start sum up to
less than the duration. -/
def EveryTimeoutFits (milliseconds : ℤ) (start_time : TimePoint) (returns : List EpollReturn) :
    Prop :=
  ∀ before, before <+: returns → (∀ r ∈ before, r.WokenUp) →
    (before = [] ∨ totalElapsed start_time before < milliseconds) →
      TimeoutFits (milliseconds - totalElapsed start_time before)

/-! ## One wait -/

lemma tdiv_eq_ite {a b : ℤ} :
    a.tdiv b = if 0 ≤ a then a / b else -(-a / b) := by
  split
  · next ha => exact Int.tdiv_eq_ediv_of_nonneg ha
  · next ha =>
      rw [← neg_neg (a.tdiv b), ← Int.neg_tdiv, Int.tdiv_eq_ediv_of_nonneg (by omega)]

/-- `ToMilliseconds` rounds towards zero. -/
lemma TimeDelta.toInt_toMilliseconds_tdiv (d : TimeDelta) :
    d.toMilliseconds.toInt = d.delta_.toInt.tdiv 1000000 := by
  have h1000 : (1000 : Int64).toInt = 1000 := rfl
  have hne : (1000 : Int64) ≠ -1 := by decide
  rw [toMilliseconds, Int64.toInt_div_of_ne_right _ _ hne, h1000, toMicroseconds, toNanoseconds,
    Int64.toInt_div_of_ne_right _ _ hne, h1000]
  simp only [tdiv_eq_ite]
  split <;> split <;> omega

/-- The low 32 bits, as a signed number. -/
lemma LoopImplLinux.toInt_timeout (s : LoopImplLinux) :
    s.timeout.toInt = if s.left_milliseconds.toInt % 2 ^ 32 < 2 ^ 31
      then s.left_milliseconds.toInt % 2 ^ 32 else s.left_milliseconds.toInt % 2 ^ 32 - 2 ^ 32 := by
  rw [timeout, Int64.toInt_toInt32, Int.bmod_def]
  rfl

variable {duration : TimeDelta} {start_time previous : TimePoint} {s : LoopImplLinux}
  {r : EpollReturn} {returns : List EpollReturn} {passed : ℤ}

/-- A wait is within the duration exactly if what is left fits. -/
lemma within_iff (hleft : s.left_milliseconds.toInt = duration.delta_.toInt.tdiv 1000000 - passed)
    (hstart : start_time ≤ previous)
    (hprevious : (previous.ticks - start_time.ticks) / 1000000 ≤ passed)
    (hfirst : passed = 0 ∨ passed < duration.delta_.toInt.tdiv 1000000) :
    WithinDuration duration start_time previous s ↔
      TimeoutFits (duration.delta_.toInt.tdiv 1000000 - passed) := by
  rw [TimePoint.le_iff] at hstart
  rw [WithinDuration, TimeoutFits, toInt_timeout, hleft, le_max_iff]
  rw [tdiv_eq_ite] at hfirst ⊢
  rcases lt_or_ge duration.delta_.toInt 0 with hneg | hpos
  · rw [if_neg (not_le.mpr hneg)] at hfirst ⊢
    obtain rfl : passed = 0 := by omega
    constructor
    · rintro ⟨hnonneg, hle⟩
      split at hnonneg <;> omega
    · rintro ⟨h, h'⟩
      split <;> omega
  · rw [if_pos hpos] at hfirst ⊢
    constructor
    · rintro ⟨hnonneg, hle⟩
      split at hnonneg <;> omega
    · rintro ⟨h, h'⟩
      split <;> omega

/-- What a return does to the loop. -/
lemma serve_wokenUp (hstart : 0 ≤ start_time.ticks) (hnow : start_time ≤ r.now)
    (hrun : s.running_ = true)
    (hleft : -10 ^ 13 ≤ s.left_milliseconds.toInt) :
    ((s.serve start_time r).running_ = true ↔
        r.WokenUp ∧ elapsed start_time r < s.left_milliseconds.toInt) ∧
      (r.WokenUp → (s.serve start_time r).left_milliseconds.toInt =
        s.left_milliseconds.toInt - elapsed start_time r) := by
  have hlt : r.now.ticks < 2 ^ 63 := r.now.ticks_.toInt_lt
  have hval := toInt_left_sub (s := s) hnow (by omega) (by rw [elapsed]; omega)
  by_cases herr : r.events &&& (EPOLLERR ||| EPOLLHUP) = 0
  · by_cases hout : r.TimedOut
    · rw [serve_timedOut herr hout]
      exact ⟨by simpa using fun hwoken : r.WokenUp => absurd hout hwoken.notTimedOut,
        fun hwoken => absurd hout hwoken.notTimedOut⟩
    · have hevent : ¬ (r.epoll_result ≠ 1 ∧ r.errno ≠ EINTR) := hout
      have hwoken : r.WokenUp ↔ r.terminated = false :=
        ⟨fun hwoken => hwoken.notTerminated, fun hterm => ⟨herr, hout, hterm⟩⟩
      rw [serve, if_neg (not_not.mpr herr), if_neg hevent, hwoken]
      refine ⟨?_, fun _ => hval⟩
      simp only [hrun, Int64.le_iff_toInt_le, hval, Int64.toInt_zero, Bool.true_and]
      split
      · simp only [Bool.false_eq_true, false_iff, not_and]
        omega
      · simp only [Bool.not_eq_true', iff_self_and]
        omega
  · rw [serve, if_pos herr]
    exact ⟨by simpa using fun hwoken : r.WokenUp => absurd hwoken.noError herr,
      fun hwoken => absurd hwoken.noError herr⟩

/-! ## All waits -/

lemma elapsed_nonneg (hnow : start_time ≤ r.now) : 0 ≤ elapsed start_time r := by
  have hpos : 0 ≤ r.now.ticks - start_time.ticks := Int.sub_nonneg_of_le hnow
  rw [elapsed]
  omega

lemma totalElapsed_nonneg {returns : List EpollReturn} (hnow : ∀ r ∈ returns, start_time ≤ r.now) :
    0 ≤ totalElapsed start_time returns := by
  induction returns with
  | nil => simp [totalElapsed]
  | cons r returns ih =>
      have hr := elapsed_nonneg (hnow r List.mem_cons_self)
      have hrest := ih fun r' hr' => hnow r' (List.mem_cons_of_mem r hr')
      rw [totalElapsed]
      omega

/-- The prefixes of a list with a head. -/
lemma forall_prefix_cons_iff {α : Type} {P : List α → Prop} {a : α} {l : List α} :
    (∀ before, before <+: a :: l → P before) ↔ P [] ∧ ∀ before, before <+: l → P (a :: before) := by
  constructor
  · intro h
    exact ⟨h [] List.nil_prefix, fun before hpre => h _ (List.cons_prefix_cons.mpr ⟨rfl, hpre⟩)⟩
  · rintro ⟨hnil, hcons⟩ before hpre
    cases before with
    | nil => exact hnil
    | cons b before =>
        obtain ⟨rfl, hrest⟩ := List.cons_prefix_cons.mp hpre
        exact hcons before hrest

/-- The waits from here on, when the times read so far sum up to `passed`.  The induction is on the
returns; the loop goes on after one exactly if it is a wake-up before the sum reaches the
duration. -/
lemma everyWait_iff (hstart : 0 ≤ start_time.ticks) (hnow : ∀ r ∈ returns, start_time ≤ r.now)
    (hrun : s.running_ = true) (hprevious : start_time ≤ previous)
    (hleft : s.left_milliseconds.toInt = duration.delta_.toInt.tdiv 1000000 - passed)
    (hsum : (previous.ticks - start_time.ticks) / 1000000 ≤ passed) (hpassed : 0 ≤ passed)
    (hfirst : passed = 0 ∨ passed < duration.delta_.toInt.tdiv 1000000) :
    EveryWait (WithinDuration duration start_time) start_time previous s returns ↔
      ∀ before, before <+: returns → (∀ r ∈ before, r.WokenUp) →
        (before = [] ∨
          passed + totalElapsed start_time before < duration.delta_.toInt.tdiv 1000000) →
        TimeoutFits (duration.delta_.toInt.tdiv 1000000 -
          (passed + totalElapsed start_time before)) := by
  have hwithin := within_iff hleft hprevious hsum hfirst
  induction returns generalizing s previous passed with
  | nil => simpa [EveryWait, totalElapsed] using hwithin
  | cons r returns ih =>
      have hr := hnow r List.mem_cons_self
      have hrest : ∀ r' ∈ returns, start_time ≤ r'.now :=
        fun r' hr' => hnow r' (List.mem_cons_of_mem r hr')
      have hle := duration.delta_.le_toInt
      have hbound : -10 ^ 13 ≤ s.left_milliseconds.toInt := by
        rw [hleft]
        rw [tdiv_eq_ite] at hfirst ⊢
        split at hfirst <;> omega
      obtain ⟨hgoes, hleft'⟩ := serve_wokenUp (s := s) (r := r) hstart hr hrun hbound
      rw [hleft] at hgoes hleft'
      have hnonneg := elapsed_nonneg hr
      rw [forall_prefix_cons_iff, EveryWait, hwithin]
      refine and_congr (by simp [totalElapsed]) ?_
      simp only [List.forall_mem_cons, totalElapsed, reduceCtorEq, false_or]
      by_cases hon : r.WokenUp ∧
          elapsed start_time r < duration.delta_.toInt.tdiv 1000000 - passed
      · have hrun' := hgoes.mpr hon
        have hleft'' : (s.serve start_time r).left_milliseconds.toInt =
            duration.delta_.toInt.tdiv 1000000 - (passed + elapsed start_time r) := by
          rw [hleft' hon.1]
          omega
        have hrest' := ih hrest hrun' hr hleft'' (by rw [elapsed]; omega) (by omega) (by omega)
          (within_iff hleft'' hr (by rw [elapsed]; omega) (by omega))
        simp only [hrun', forall_const, hrest', hon.1, true_and, add_assoc]
        refine forall_congr' fun before => forall_congr' fun _ => forall_congr' fun _ => ?_
        refine imp_congr_left ⟨fun h => ?_, Or.inr⟩
        rcases h with rfl | h
        · rw [totalElapsed]
          omega
        · exact h
      · have hstop : ¬ (s.serve start_time r).running_ = true := fun hrun' => hon (hgoes.mp hrun')
        refine iff_of_true (fun hrun' => absurd hrun' hstop) ?_
        rintro before hpre ⟨hwoken, _⟩ hsmall
        have htotal := totalElapsed_nonneg fun r' hr' => hrest r' (hpre.subset hr')
        exact absurd ⟨hwoken, by omega⟩ hon

/-- **The timeouts of `epoll_wait`.**  Every wait of `RunForTime` has a timeout that is not negative
and not beyond the duration, if and only if what is left at every wait fits. -/
theorem waits_within_iff {duration : TimeDelta} {start_time : TimePoint}
    {returns : List EpollReturn} (hstart : 0 ≤ start_time.ticks)
    (hnow : ∀ r ∈ returns, start_time ≤ r.now) :
    EveryWait (WithinDuration duration start_time) start_time start_time
        ⟨true, duration.toMilliseconds⟩ returns ↔
      EveryTimeoutFits (duration.delta_.toInt.tdiv 1000000) start_time returns := by
  have hleft : duration.toMilliseconds.toInt = duration.delta_.toInt.tdiv 1000000 - 0 := by
    rw [TimeDelta.toInt_toMilliseconds_tdiv, sub_zero]
  have hiff := everyWait_iff (s := ⟨true, duration.toMilliseconds⟩) hstart hnow rfl
    (le_refl start_time) hleft (by simp) (le_refl 0) (Or.inl rfl)
  simp only [zero_add] at hiff
  exact hiff

/-- A duration shorter than `2 ^ 31` milliseconds fits, whatever the wake-ups. -/
lemma everyTimeoutFits_of_short {milliseconds : ℤ} (hnonneg : 0 ≤ milliseconds)
    (hshort : milliseconds < 2 ^ 31) (hnow : ∀ r ∈ returns, start_time ≤ r.now) :
    EveryTimeoutFits milliseconds start_time returns := by
  intro before hpre _ hleft
  have htotal := totalElapsed_nonneg fun r hr => hnow r (hpre.subset hr)
  rcases hleft with rfl | hleft
  · simp only [totalElapsed, TimeoutFits]
    omega
  · rw [TimeoutFits]
    omega

/-- Ten milliseconds, and an event after four of them. -/
theorem waits_within_ten :
    EveryWait (WithinDuration ⟨10000000⟩ ⟨0⟩) ⟨0⟩ ⟨0⟩ ⟨true, (TimeDelta.mk 10000000).toMilliseconds⟩
      [⟨1, 1, 0, false, ⟨4000000⟩⟩] :=
  (waits_within_iff (by decide) (by decide)).mpr
    (everyTimeoutFits_of_short (by decide) (by decide) (by decide))

/-- A negative duration makes `epoll_wait` wait for ever. -/
theorem negative_duration_blocks :
    ¬ ∀ (duration : TimeDelta) (start_time : TimePoint) (returns : List EpollReturn),
      0 ≤ start_time.ticks → (∀ r ∈ returns, start_time ≤ r.now) →
      EveryWait (WithinDuration duration start_time) start_time start_time
        ⟨true, duration.toMilliseconds⟩ returns := by
  intro hall
  have hwait : WithinDuration ⟨-1000000⟩ ⟨0⟩ ⟨0⟩ ⟨true, (TimeDelta.mk (-1000000)).toMilliseconds⟩ :=
    hall ⟨-1000000⟩ ⟨0⟩ [] (by decide) (by decide)
  exact absurd hwait.1 (by decide)

end FFNetwork
