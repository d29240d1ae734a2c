import FFNetwork.Lib.RwLock
import FFNetwork.Lib.StepSystem
import Mathlib.Data.Finset.Basic

/-!
# `SharedMutex`

`SharedMutexPosix` hands its calls to a `pthread_rwlock_t`.  A thread takes itself for a holder
when `Lock` or `LockShared` has returned, or when `TryLock` or `TryLockShared` has returned true,
until it unlocks.  The `Try` functions return the code of the `pthread` function as a `bool`, and
that code is 0 on success.

* `MutexHistory` — the mutex with the threads that take themselves for holders.
* **`holders_own_iff`** — when the holders exclude each other and own the lock.
-/

namespace FFNetwork

open StepSystem RwLock

/-! ## The mutex -/

/-- `SharedMutexPosix`. -/
structure SharedMutexPosix (Thread : Type) where
  rw_lock_ : RwLock Thread
  deriving DecidableEq

namespace SharedMutexPosix

variable {Thread : Type} [DecidableEq Thread]

/-- An `int` where a `bool` is asked for. -/
def toBool (code : Int32) : Bool := code ≠ 0

/-- `SharedMutex::Create`. -/
def create : SharedMutexPosix Thread := ⟨RwLock.init⟩

/-- `SharedMutexPosix::Lock`, where `pthread_rwlock_wrlock` reports `code`. -/
def lock (m : SharedMutexPosix Thread) (t : Thread) (code : Int32) :
    Option (SharedMutexPosix Thread) :=
  (m.rw_lock_.request t .wrlock code).map fun rw_lock_ => ⟨rw_lock_⟩

/-- `SharedMutexPosix::LockShared`. -/
def lockShared (m : SharedMutexPosix Thread) (t : Thread) (code : Int32) :
    Option (SharedMutexPosix Thread) :=
  (m.rw_lock_.request t .rdlock code).map fun rw_lock_ => ⟨rw_lock_⟩

/-- `SharedMutexPosix::TryLock`, with what it returns. -/
def tryLock (m : SharedMutexPosix Thread) (t : Thread) (code : Int32) :
    Option (SharedMutexPosix Thread × Bool) :=
  (m.rw_lock_.request t .trywrlock code).map fun rw_lock_ => (⟨rw_lock_⟩, toBool code)

/-- `SharedMutexPosix::TryLockShared`, with what it returns. -/
def tryLockShared (m : SharedMutexPosix Thread) (t : Thread) (code : Int32) :
    Option (SharedMutexPosix Thread × Bool) :=
  (m.rw_lock_.request t .tryrdlock code).map fun rw_lock_ => (⟨rw_lock_⟩, toBool code)

/-- `SharedMutexPosix::Unlock`. -/
def unlock (m : SharedMutexPosix Thread) (t : Thread) : Option (SharedMutexPosix Thread) :=
  (m.rw_lock_.unlock t).map fun rw_lock_ => ⟨rw_lock_⟩

/-- `SharedMutexPosix::UnlockShared`. -/
def unlockShared (m : SharedMutexPosix Thread) (t : Thread) : Option (SharedMutexPosix Thread) :=
  (m.rw_lock_.unlock t).map fun rw_lock_ => ⟨rw_lock_⟩

/-- The four functions that ask for the mutex, named by the `pthread` function that each calls.
The `Bool` says whether the caller now takes itself for a holder. -/
def acquire (m : SharedMutexPosix Thread) (t : Thread) :
    Call → Int32 → Option (SharedMutexPosix Thread × Bool)
  | .wrlock, code => (m.lock t code).map fun m => (m, true)
  | .rdlock, code => (m.lockShared t code).map fun m => (m, true)
  | .trywrlock, code => m.tryLock t code
  | .tryrdlock, code => m.tryLockShared t code

/-- What the caller makes of the code: nothing in a blocking call, success in a trying one when
it is not 0. -/
def regards : Call → Int32 → Bool
  | .wrlock, _ | .rdlock, _ => true
  | .trywrlock, code | .tryrdlock, code => toBool code

lemma acquire_eq (m : SharedMutexPosix Thread) (t : Thread) (call : Call) (code : Int32) :
    m.acquire t call code =
      (m.rw_lock_.request t call code).map fun rw_lock_ => (⟨rw_lock_⟩, regards call code) := by
  cases call <;> simp [acquire, lock, lockShared, tryLock, tryLockShared, regards,
    Function.comp_def]

/-- Whoever is refused takes itself for a holder. -/
lemma regards_of_ne_zero (call : Call) {code : Int32} (hcode : code ≠ 0) :
    regards call code = true := by
  cases call <;> simp [regards, toBool, hcode]

end SharedMutexPosix

/-! ## Histories -/

/-- The mutex, the threads that take themselves for exclusive holders, and those that take
themselves for shared holders. -/
structure MutexHistory (Thread : Type) where
  mutex : SharedMutexPosix Thread
  exclusive : Finset Thread
  shared : Finset Thread

/-- One call of one thread. -/
inductive MutexAction (Thread : Type) where
  | acquire (thread : Thread) (call : Call) (code : Int32)
  | unlock (thread : Thread)
  | unlockShared (thread : Thread)

namespace MutexHistory

variable {Thread : Type} [DecidableEq Thread] {s t : MutexHistory Thread}

/-- A new mutex, held by nobody. -/
def created : MutexHistory Thread := ⟨.create, ∅, ∅⟩

/-- The thread takes itself for a holder in the mode. -/
def hold (s : MutexHistory Thread) (thread : Thread) : Mode → MutexHistory Thread
  | .write => { s with exclusive := insert thread s.exclusive }
  | .read => { s with shared := insert thread s.shared }

/-- The thread has unlocked. -/
def letGo (s : MutexHistory Thread) (thread : Thread) : MutexHistory Thread :=
  { s with exclusive := s.exclusive.erase thread, shared := s.shared.erase thread }

/-- The history after one more call. -/
def step (s : MutexHistory Thread) : MutexAction Thread → Option (MutexHistory Thread)
  | .acquire thread call code =>
      (s.mutex.acquire thread call code).map fun (mutex, holds) =>
        if holds then { s with mutex := mutex }.hold thread call.mode else { s with mutex := mutex }
  | .unlock thread =>
      (s.mutex.unlock thread).map fun mutex => { s with mutex := mutex }.letGo thread
  | .unlockShared thread =>
      (s.mutex.unlockShared thread).map fun mutex => { s with mutex := mutex }.letGo thread

/-- The threads that take themselves for holders in the mode. -/
def holders (s : MutexHistory Thread) : Mode → Finset Thread
  | .write => s.exclusive
  | .read => s.shared

/-- Every holder owns the lock in its mode. -/
def HoldersOwn (s : MutexHistory Thread) : Prop :=
  ∀ mode, ∀ thread ∈ s.holders mode, s.mutex.rw_lock_.Owns thread mode

/-- There are no two exclusive holders, and no exclusive holder beside a shared one. -/
def Exclusion (s : MutexHistory Thread) : Prop :=
  (∀ x ∈ s.exclusive, ∀ y ∈ s.exclusive, x = y) ∧ (s.exclusive = ∅ ∨ s.shared = ∅)

/-- A thread whose call fails owns the lock already, in the mode it asked for. -/
def FailsOnlyForOwner (s : MutexHistory Thread) : MutexAction Thread → Prop
  | .acquire thread call code => code ≠ 0 → s.mutex.rw_lock_.Owns thread call.mode
  | _ => True

/-! ## What a call does -/

lemma mem_holders_hold {thread x : Thread} {mode mode' : Mode} :
    x ∈ (s.hold thread mode).holders mode' ↔
      (x = thread ∧ mode' = mode) ∨ x ∈ s.holders mode' := by
  cases mode <;> cases mode' <;> simp [hold, holders]

@[simp] lemma mutex_hold (s : MutexHistory Thread) (thread : Thread) (mode : Mode) :
    (s.hold thread mode).mutex = s.mutex := by
  cases mode <;> rfl

lemma mem_holders_letGo {thread x : Thread} {mode : Mode} :
    x ∈ (s.letGo thread).holders mode ↔ x ≠ thread ∧ x ∈ s.holders mode := by
  cases mode <;> simp [letGo, holders]

/-- A thread that has asked for the lock is a holder as `regards` says. -/
lemma step_acquire {thread : Thread} {call : Call} {code : Int32}
    (ht : s.step (.acquire thread call code) = some t) :
    s.mutex.rw_lock_.request thread call code = some t.mutex.rw_lock_ ∧
      ∀ x mode, x ∈ t.holders mode ↔
        (SharedMutexPosix.regards call code = true ∧ x = thread ∧ mode = call.mode) ∨
          x ∈ s.holders mode := by
  simp only [step, SharedMutexPosix.acquire_eq, Option.map_map, Option.map_eq_some_iff,
    Function.comp_apply] at ht
  rcases ht with ⟨l, hl, rfl⟩
  cases hregards : SharedMutexPosix.regards call code with
  | false => simp [hl, holders]
  | true =>
      simp only [if_true, mutex_hold, hl, true_and]
      intro x mode
      rw [mem_holders_hold]
      rfl

/-- Unlocking is one function under two names. -/
lemma step_unlock {thread : Thread}
    (ht : s.step (.unlock thread) = some t ∨ s.step (.unlockShared thread) = some t) :
    s.mutex.rw_lock_.unlock thread = some t.mutex.rw_lock_ ∧
      ∀ x mode, x ∈ t.holders mode ↔ x ≠ thread ∧ x ∈ s.holders mode := by
  simp only [step, SharedMutexPosix.unlock, SharedMutexPosix.unlockShared, Option.map_map,
    Option.map_eq_some_iff, Function.comp_apply, or_self] at ht
  rcases ht with ⟨l, hl, rfl⟩
  exact ⟨hl, fun x mode => mem_holders_letGo (s := { s with mutex := ⟨l⟩ })⟩

/-! ## Holders and owners -/

omit [DecidableEq Thread] in
/-- Owners exclude each other, so holders that own do. -/
lemma HoldersOwn.exclusion (hown : s.HoldersOwn) : s.Exclusion := by
  constructor
  · intro x hx y hy
    exact ((hown .write y hy).of_writer (hown .write x hx)).1
  · by_contra hboth
    simp only [not_or, ← Finset.nonempty_iff_ne_empty] at hboth
    rcases hboth with ⟨⟨x, hx⟩, ⟨y, hy⟩⟩
    have hmode := ((hown .write x hx).of_writer (hown .read y hy)).2
    cases hmode

lemma HoldersOwn.unlock (hown : s.HoldersOwn) {thread : Thread}
    (ht : s.step (.unlock thread) = some t ∨ s.step (.unlockShared thread) = some t) :
    t.HoldersOwn := by
  rcases step_unlock ht with ⟨hlock, hholders⟩
  intro mode x hx
  rcases (hholders x mode).mp hx with ⟨hne, hx⟩
  exact (owns_unlock hlock hne).mpr (hown mode x hx)

lemma HoldersOwn.acquire (hown : s.HoldersOwn) {thread : Thread} {call : Call} {code : Int32}
    (ht : s.step (.acquire thread call code) = some t)
    (hfails : s.FailsOnlyForOwner (.acquire thread call code)) : t.HoldersOwn := by
  rcases step_acquire ht with ⟨hlock, hholders⟩
  intro mode x hx
  rw [owns_request hlock]
  rcases (hholders x mode).mp hx with ⟨_, rfl, rfl⟩ | hx
  · by_cases hcode : code = 0
    · exact Or.inl ⟨hcode, rfl, rfl⟩
    · exact Or.inr (hfails hcode)
  · exact Or.inr (hown mode x hx)

/-- A refused thread takes itself for a holder, so it has to own the lock already. -/
lemma failsOnlyForOwner_of_holdersOwn {a : MutexAction Thread} (ht : s.step a = some t)
    (hown : t.HoldersOwn) : s.FailsOnlyForOwner a := by
  cases a with
  | unlock thread => trivial
  | unlockShared thread => trivial
  | acquire thread call code =>
      intro hcode
      rcases step_acquire ht with ⟨hlock, hholders⟩
      have hholds : thread ∈ t.holders call.mode :=
        (hholders thread call.mode).mpr
          (Or.inl ⟨SharedMutexPosix.regards_of_ne_zero call hcode, rfl, rfl⟩)
      have howns := (owns_request hlock).mp (hown call.mode thread hholds)
      simpa [hcode] using howns

/-- **When the holders of a mutex own it.**  In every history: holders exclude each other and own
the lock, after every call, if and only if no call for the lock fails but for a thread that owns
it already in the mode it asks for. -/
theorem holders_own_iff (acts : List (MutexAction Thread)) :
    EveryStep step (fun _ _ t => t.Exclusion ∧ t.HoldersOwn) created acts ↔
      EveryStep step (fun s a _ => s.FailsOnlyForOwner a) created acts := by
  refine everyStep_iff (I := HoldersOwn) ?_ ?_ (fun mode x hx => by cases mode <;> cases hx)
  · intro s a t hown ht hfails
    have hown' : t.HoldersOwn := by
      cases a with
      | acquire thread call code => exact hown.acquire ht hfails
      | unlock thread => exact hown.unlock (Or.inl ht)
      | unlockShared thread => exact hown.unlock (Or.inr ht)
    exact ⟨hown', hown'.exclusion, hown'⟩
  · intro s a t _ ht hP
    exact failsOnlyForOwner_of_holdersOwn ht hP.2

/-- Thread 0 has the mutex, and `TryLock` tells thread 1 that it has it too. -/
theorem two_exclusive_holders :
    ¬ ∀ acts : List (MutexAction ℕ),
      EveryStep step (fun _ _ t => t.Exclusion ∧ t.HoldersOwn) created acts := by
  intro hall
  have hexcl := ((hall ([.acquire 0 .wrlock 0] ++ [.acquire 1 .trywrlock EBUSY])).at rfl rfl).1
  exact absurd (hexcl.1 0 (by decide) 1 (by decide)) (by decide)

end MutexHistory

end FFNetwork
