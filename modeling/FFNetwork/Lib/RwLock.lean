import Mathlib.Data.List.Basic

/-!
# A readers/writer lock

The lock that `pthread_rwlock_t` is specified to be.  Its state says who owns it, and no state of
the type has a writer beside a reader or beside a second writer.

* `grants`, `take` — when a mode is free, and what granting it does.
* `mayFail` — the error codes that POSIX lets a call report instead.
* `request`, `unlock` — the calls.  A call that would block has no result yet.
* `owns_request` and `owns_unlock` — who owns the lock after a call.
-/

/-- Who owns a readers/writer lock: one writer, or the readers, each as often as it has read
locks. -/
inductive RwLock (Thread : Type*) where
  | writer (thread : Thread)
  | readers (threads : List Thread)
  deriving DecidableEq

namespace RwLock

/-- The two modes of ownership. -/
inductive Mode where
  | read
  | write
  deriving DecidableEq

/-- The calls that ask for the lock. -/
inductive Call where
  | rdlock
  | wrlock
  | tryrdlock
  | trywrlock
  deriving DecidableEq

/-- The mode that a call asks for. -/
def Call.mode : Call → Mode
  | .rdlock | .tryrdlock => .read
  | .wrlock | .trywrlock => .write

/-- There are as many readers as the lock can count. -/
def EAGAIN : Int32 := 11

/-- The lock cannot be taken at once. -/
def EBUSY : Int32 := 16

/-- The caller has the lock for writing already. -/
def EDEADLK : Int32 := 35

variable {Thread : Type*} [DecidableEq Thread]

/-- The lock of nobody. -/
def init : RwLock Thread := readers []

/-- The thread owns the lock in the mode. -/
def Owns (l : RwLock Thread) (t : Thread) : Mode → Prop
  | .write => l = writer t
  | .read => ∃ ts, l = readers ts ∧ t ∈ ts

/-- The mode is free: no owner excludes it. -/
def grants : RwLock Thread → Mode → Bool
  | writer _, _ => false
  | readers _, .read => true
  | readers ts, .write => ts.isEmpty

/-- The lock once the thread is granted the mode. -/
def take (l : RwLock Thread) (t : Thread) : Mode → RwLock Thread
  | .write => writer t
  | .read =>
      match l with
      | writer u => writer u
      | readers ts => readers (t :: ts)

/-- The thread owns the lock in some mode, as a test. -/
def ownedBy (t : Thread) : RwLock Thread → Bool
  | writer u => u = t
  | readers ts => t ∈ ts

/-- The error codes that a call can report.  A blocking call reports a deadlock with itself, a
trying call that the lock is busy.  A reader can be refused behind other readers, because a writer
waits or because there are too many of them. -/
def mayFail (l : RwLock Thread) (t : Thread) : Call → Int32 → Bool
  | .wrlock, code => code = EDEADLK ∧ l.ownedBy t
  | .rdlock, code => (code = EDEADLK ∧ l = writer t) ∨ (code = EAGAIN ∧ l ≠ init)
  | .trywrlock, code => code = EBUSY ∧ ¬ l.grants .write
  | .tryrdlock, code => (code = EBUSY ∨ code = EAGAIN) ∧ l ≠ init

/-- The lock after the call has reported `code`; `none` when it cannot report that now. -/
def request (l : RwLock Thread) (t : Thread) (call : Call) (code : Int32) :
    Option (RwLock Thread) :=
  if code = 0 then
    if l.grants call.mode then some (l.take t call.mode) else none
  else if l.mayFail t call code then some l else none

/-- The lock after the thread has given up what it owns.  Unlocking what one does not own is
undefined. -/
def unlock (t : Thread) : RwLock Thread → Option (RwLock Thread)
  | writer u => if u = t then some init else none
  | readers ts => if t ∈ ts then some (readers (ts.erase t)) else none

/-! ## Exclusion -/

omit [DecidableEq Thread] in
/-- A writer is the only owner. -/
lemma Owns.of_writer {l : RwLock Thread} {t u : Thread} {mode : Mode} (hwrite : l.Owns t .write)
    (howns : l.Owns u mode) : u = t ∧ mode = .write := by
  have hl : l = writer t := hwrite
  subst hl
  cases mode with
  | write => exact ⟨(RwLock.writer.inj howns).symm, rfl⟩
  | read =>
      obtain ⟨ts, heq, _⟩ := howns
      cases heq

/-! ## Who owns the lock after a call -/

lemma request_eq_some {l l' : RwLock Thread} {t : Thread} {call : Call} {code : Int32} :
    l.request t call code = some l' ↔
      (code = 0 ∧ l.grants call.mode = true ∧ l' = l.take t call.mode) ∨
        (code ≠ 0 ∧ l.mayFail t call code = true ∧ l' = l) := by
  by_cases hcode : code = 0 <;> simp [request, hcode, @eq_comm _ _ l']

omit [DecidableEq Thread] in
/-- What is granted is owned, and takes nothing from the others. -/
lemma owns_take {l : RwLock Thread} {t u : Thread} {mode mode' : Mode}
    (hgrants : l.grants mode = true) :
    (l.take t mode).Owns u mode' ↔ (u = t ∧ mode' = mode) ∨ l.Owns u mode' := by
  cases l with
  | writer v => simp [grants] at hgrants
  | readers ts =>
      cases mode with
      | write =>
          have hts : ts = [] := by simpa [grants] using hgrants
          subst hts
          cases mode' <;> simp [take, Owns, eq_comm]
      | read => cases mode' <;> simp [take, Owns]

/-- After a call that was granted the caller is an owner too; one that failed changes nothing. -/
theorem owns_request {l l' : RwLock Thread} {t u : Thread} {call : Call} {code : Int32}
    {mode : Mode} (hl' : l.request t call code = some l') :
    l'.Owns u mode ↔ (code = 0 ∧ u = t ∧ mode = call.mode) ∨ l.Owns u mode := by
  rcases request_eq_some.mp hl' with ⟨hcode, hgrants, rfl⟩ | ⟨hcode, _, rfl⟩
  · simp [owns_take hgrants, hcode]
  · simp [hcode]

/-- Unlocking takes nothing from the other threads. -/
theorem owns_unlock {l l' : RwLock Thread} {t u : Thread} {mode : Mode}
    (hl' : l.unlock t = some l') (hne : u ≠ t) : l'.Owns u mode ↔ l.Owns u mode := by
  cases l with
  | writer v =>
      simp only [unlock, Option.ite_none_right_eq_some, Option.some.injEq] at hl'
      obtain ⟨rfl, rfl⟩ := hl'
      cases mode <;> simp [init, Owns, Ne.symm hne]
  | readers ts =>
      simp only [unlock, Option.ite_none_right_eq_some, Option.some.injEq] at hl'
      obtain ⟨_, rfl⟩ := hl'
      cases mode <;> simp [Owns, List.mem_erase_of_ne hne]

end RwLock
