import Mathlib.Data.List.Basic

/-!
# The life cycle of a `Thread`

`source/base/thread/thread.{h,cpp}`, as its owner sees it: `Start`, `Join` and the destructor with
the three fields they share.  Where the code would follow a null pointer, or destroy or overwrite a
`std::thread` that is still joinable, which ends the process, a call is a fault.  A started thread
is taken to end at some time after it has been asked to.

* `ThreadObject.start`, `join`, `destroy` — the calls; `ThreadObject.finish` — all of them and then
  the destructor.
* `ThreadObject.not_safeFrom_stranded` — a thread started after a `Join` cannot be got rid of.
* **`safe_iff`** — the life cycles without a fault are one `Start` and then any number of `Join`s.
-/

namespace FFNetwork

/-- What ends the process. -/
inductive ThreadFault
  | nullTaskRunner
  | nullThread
  /-- A `std::thread` that is joinable is destroyed or overwritten. -/
  | joinableDestroyed
  /-- `join` on a `std::thread` that is not joinable. -/
  | notJoinable
deriving DecidableEq

/-- A `std::thread`: its number, in the order of their starts, and the function that it runs in
place of the loop. -/
structure StdThread (Closure : Type) where
  number : ℕ
  thread_func : Option Closure
  joinable : Bool

/-- A `Thread`.  `started` are the threads it has started, `terminated` those whose loop it has
asked to terminate and `joined` those it has joined, by their numbers. -/
structure ThreadObject (Closure : Type) where
  thread_ : Option (StdThread Closure)
  /-- The thread of the loop. -/
  task_runner_ : Option ℕ
  joined_ : Bool
  started : List ℕ
  terminated : List ℕ
  joined : List ℕ

/-- What the owner of a `Thread` may call. -/
inductive LifeCycleCall (Closure : Type)
  | start (thread_func : Option Closure)
  | join

namespace ThreadObject

variable {Closure : Type}

/-- `Thread::Thread`. -/
def new : ThreadObject Closure := ⟨none, none, false, [], [], []⟩

/-- The `std::thread` in `thread_` is destroyed. -/
def destroyStdThread (t : ThreadObject Closure) : Except ThreadFault Unit :=
  match t.thread_ with
  | none => .ok ()
  | some thread => if thread.joinable then .error .joinableDestroyed else .ok ()

/-- `Thread::Start`.  The new thread runs before the old one is destroyed. -/
def start (t : ThreadObject Closure) (thread_func : Option Closure) :
    Except ThreadFault (ThreadObject Closure) := do
  let number := t.started.length
  t.destroyStdThread
  return { t with
    thread_ := some ⟨number, thread_func, true⟩
    started := t.started ++ [number]
    task_runner_ := some number }

/-- `Thread::Join`. -/
def join (t : ThreadObject Closure) : Except ThreadFault (ThreadObject Closure) :=
  if t.joined_ then .ok t
  else
    let t := { t with joined_ := true }
    match t.task_runner_ with
    | none => .error .nullTaskRunner
    | some number =>
        let t := { t with terminated := t.terminated ++ [number] }
        match t.thread_ with
        | none => .error .nullThread
        | some thread =>
            if thread.joinable then
              .ok { t with
                thread_ := some { thread with joinable := false }
                joined := t.joined ++ [thread.number] }
            else .error .notJoinable

/-- A call, or the fault that ends the process. -/
def step (t : ThreadObject Closure) :
    LifeCycleCall Closure → Except ThreadFault (ThreadObject Closure)
  | .start thread_func => t.start thread_func
  | .join => t.join

/-- `Thread::~Thread`, and the destructors of the members. -/
def destroy (t : ThreadObject Closure) : Except ThreadFault (ThreadObject Closure) := do
  let t ← t.join
  t.destroyStdThread
  return { t with thread_ := none, task_runner_ := none }

/-- The calls and then the destructor. -/
def finish (t : ThreadObject Closure) :
    List (LifeCycleCall Closure) → Except ThreadFault (ThreadObject Closure)
  | [] => t.destroy
  | call :: calls => (t.step call).bind fun t => t.finish calls

/-- No call is a fault, and in the end every thread that was started has been joined. -/
def SafeFrom (t : ThreadObject Closure) (calls : List (LifeCycleCall Closure)) : Prop :=
  ∃ t', t.finish calls = .ok t' ∧ ∀ number ∈ t'.started, number ∈ t'.joined

/-- The life cycle of a `Thread` with these calls is safe. -/
def Safe (calls : List (LifeCycleCall Closure)) : Prop :=
  (new : ThreadObject Closure).SafeFrom calls

variable {t t' : ThreadObject Closure} {calls : List (LifeCycleCall Closure)}
  {thread_func : Option Closure}

lemma safeFrom_cons_of_ok (call : LifeCycleCall Closure) (hstep : t.step call = .ok t') :
    t.SafeFrom (call :: calls) ↔ t'.SafeFrom calls := by
  rw [SafeFrom, SafeFrom, finish, hstep]
  rfl

lemma not_safeFrom_cons_of_error {call : LifeCycleCall Closure} {fault : ThreadFault}
    (hstep : t.step call = .error fault) : ¬ t.SafeFrom (call :: calls) := by
  rintro ⟨t', hfinish, _⟩
  rw [finish, hstep] at hfinish
  cases hfinish

/-! ## The phases of a life cycle -/

/-- `Join` has been called, and all threads are joined. -/
structure AllJoined (t : ThreadObject Closure) : Prop where
  joined_ : t.joined_ = true
  ended : ∃ thread, t.thread_ = some thread ∧ thread.joinable = false
  all : ∀ number ∈ t.started, number ∈ t.joined

/-- A thread runs, all others are joined, and `Join` has not been called. -/
structure Running (t : ThreadObject Closure) : Prop where
  joined_ : t.joined_ = false
  runner : ∃ number, t.task_runner_ = some number
  runs : ∃ thread, t.thread_ = some thread ∧ thread.joinable = true ∧
    ∀ number ∈ t.started, number = thread.number ∨ number ∈ t.joined

/-- A thread runs that will not be joined, since `Join` has been called before. -/
structure Stranded (t : ThreadObject Closure) : Prop where
  joined_ : t.joined_ = true
  runs : ∃ thread, t.thread_ = some thread ∧ thread.joinable = true

lemma join_of_joined (h : t.joined_ = true) : t.join = .ok t := by
  rw [join, if_pos h]

lemma start_of_joinable {thread : StdThread Closure} (hthread : t.thread_ = some thread)
    (hjoinable : thread.joinable = true) : t.start thread_func = .error .joinableDestroyed := by
  rw [start, destroyStdThread, hthread]
  simp only [hjoinable, if_true]
  rfl

/-- A thread that is started after a `Join` is destroyed while it is joinable. -/
lemma not_safeFrom_stranded (ht : t.Stranded) (calls : List (LifeCycleCall Closure)) :
    ¬ t.SafeFrom calls := by
  rcases ht.runs with ⟨thread, hthread, hjoinable⟩
  induction calls with
  | nil =>
      rintro ⟨t', hfinish, _⟩
      rw [finish, destroy, join_of_joined ht.joined_] at hfinish
      simp only [bind, Except.bind, destroyStdThread, hthread, hjoinable, if_true] at hfinish
      cases hfinish
  | cons call calls ih =>
      cases call with
      | start thread_func =>
          exact not_safeFrom_cons_of_error (start_of_joinable hthread hjoinable)
      | join =>
          rw [safeFrom_cons_of_ok .join (join_of_joined ht.joined_)]
          exact ih

/-- Starting a thread that has been joined leaves it stranded. -/
lemma AllJoined.start (ht : t.AllJoined) (thread_func : Option Closure) :
    ∃ t', t.start thread_func = .ok t' ∧ t'.Stranded := by
  rcases ht.ended with ⟨thread, hthread, hjoinable⟩
  have hdestroy : t.destroyStdThread = .ok () := by
    simp only [destroyStdThread, hthread, hjoinable, Bool.false_eq_true, if_false]
  refine ⟨{ t with
    thread_ := some ⟨t.started.length, thread_func, true⟩
    started := t.started ++ [t.started.length]
    task_runner_ := some t.started.length }, ?_, ht.joined_, ⟨_, rfl, rfl⟩⟩
  rw [ThreadObject.start, hdestroy]
  rfl

lemma AllJoined.safeFrom_iff (ht : t.AllJoined) (calls : List (LifeCycleCall Closure)) :
    t.SafeFrom calls ↔ ∀ call ∈ calls, call = .join := by
  rcases ht.ended with ⟨thread, hthread, hjoinable⟩
  induction calls with
  | nil =>
      refine iff_of_true ⟨{ t with thread_ := none, task_runner_ := none }, ?_, ht.all⟩ (by simp)
      rw [finish, destroy, join_of_joined ht.joined_]
      simp only [bind, Except.bind, destroyStdThread, hthread, hjoinable, Bool.false_eq_true,
        if_false]
      rfl
  | cons call calls ih =>
      cases call with
      | start thread_func =>
          rcases ht.start thread_func with ⟨t', hstart, hstranded⟩
          rw [safeFrom_cons_of_ok (.start thread_func) hstart]
          exact iff_of_false (not_safeFrom_stranded hstranded calls) (by simp)
      | join =>
          rw [safeFrom_cons_of_ok .join (join_of_joined ht.joined_), ih, List.forall_mem_cons,
            and_iff_right rfl]

/-- `Join` joins the thread that runs. -/
lemma Running.join (ht : t.Running) : ∃ t', t.join = .ok t' ∧ t'.AllJoined := by
  rcases ht.runner with ⟨number, hrunner⟩
  rcases ht.runs with ⟨thread, hthread, hjoinable, hall⟩
  refine ⟨{ t with
    thread_ := some { thread with joinable := false }
    joined_ := true
    terminated := t.terminated ++ [number]
    joined := t.joined ++ [thread.number] }, ?_, rfl, ⟨_, rfl, rfl⟩, ?_⟩
  · simp only [ThreadObject.join, ht.joined_, hrunner, hthread, hjoinable, Bool.false_eq_true,
      if_false, if_true]
  · intro i hi
    rcases hall i hi with rfl | hjoined
    · exact List.mem_append_right _ (List.mem_singleton_self _)
    · exact List.mem_append_left _ hjoined

/-- The destructor begins with a `Join`. -/
lemma finish_nil_of_join (hjoin : t.join = .ok t') (hagain : t'.join = .ok t') :
    t.finish [] = t'.finish [] := by
  rw [finish, finish, destroy, destroy, hjoin, hagain]

lemma Running.safeFrom_iff (ht : t.Running) (calls : List (LifeCycleCall Closure)) :
    t.SafeFrom calls ↔ ∀ call ∈ calls, call = .join := by
  rcases ht.join with ⟨t', hjoin, ht'⟩
  cases calls with
  | nil =>
      rw [SafeFrom, finish_nil_of_join hjoin (join_of_joined ht'.joined_)]
      exact ht'.safeFrom_iff []
  | cons call calls =>
      cases call with
      | start thread_func =>
          rcases ht.runs with ⟨thread, hthread, hjoinable, _⟩
          exact iff_of_false
            (not_safeFrom_cons_of_error (start_of_joinable hthread hjoinable)) (by simp)
      | join =>
          rw [safeFrom_cons_of_ok .join hjoin, ht'.safeFrom_iff, List.forall_mem_cons,
            and_iff_right rfl]

lemma running_start (thread_func : Option Closure) :
    ∃ t', (new : ThreadObject Closure).start thread_func = .ok t' ∧ t'.Running :=
  ⟨_, rfl, rfl, ⟨0, rfl⟩, _, rfl, rfl, by simp [new]⟩

/-- **The safe life cycles are one `Start` and then any number of `Join`s.** -/
theorem safe_iff (calls : List (LifeCycleCall Closure)) :
    Safe calls ↔ ∃ (thread_func : Option Closure) (n : ℕ),
      calls = .start thread_func :: List.replicate n .join := by
  cases calls with
  | nil =>
      refine iff_of_false ?_ (by simp)
      rintro ⟨t', hfinish, _⟩
      cases hfinish
  | cons call calls =>
      cases call with
      | join => exact iff_of_false (not_safeFrom_cons_of_error rfl) (by simp)
      | start thread_func =>
          rcases running_start thread_func with ⟨t', hstart, ht'⟩
          rw [Safe, safeFrom_cons_of_ok (.start thread_func) hstart, ht'.safeFrom_iff]
          constructor
          · intro hjoins
            exact ⟨thread_func, calls.length, by rw [← List.eq_replicate_of_mem hjoins]⟩
          · rintro ⟨_, n, hcalls⟩
            rw [(List.cons.inj hcalls).2]
            exact fun call hcall => List.eq_of_mem_replicate hcall

/-- A `Thread` that is never started. -/
theorem not_safe_nil : ¬ ∀ calls : List (LifeCycleCall Unit), Safe calls := by
  intro h
  rcases h [] with ⟨t', hfinish, _⟩
  cases hfinish

end ThreadObject

end FFNetwork
