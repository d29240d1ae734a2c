import Mathlib.Data.Finset.Basic

/-!
# A condition variable

The threads inside a condition variable: those that sleep, and those that have been woken and have
not yet taken the mutex back.  A notification that finds nobody asleep is lost.

* `wait`, `notifyOne`, `wake`, `resume`, `giveUp` — how threads go in and out.
* `woken_or_blocked_of_notifyOne` — a notification leaves somebody woken, or nobody asleep.
-/

/-- The threads that sleep in a condition variable, and those that it has woken. -/
structure CondVar (Thread : Type*) where
  blocked : Finset Thread
  woken : Finset Thread
  disjoint : Disjoint blocked woken

namespace CondVar

variable {Thread : Type*}

/-- Nobody is inside. -/
def empty : CondVar Thread := ⟨∅, ∅, disjoint_bot_left⟩

variable [DecidableEq Thread] {cv cv' : CondVar Thread} {t : Thread}

/-- The thread goes to sleep. -/
def wait (cv : CondVar Thread) (t : Thread) : CondVar Thread :=
  ⟨insert t cv.blocked, cv.woken.erase t, by
    rw [Finset.disjoint_insert_left]
    exact ⟨Finset.notMem_erase t _, cv.disjoint.mono_right (Finset.erase_subset t _)⟩⟩

/-- A sleeping thread wakes up, by itself or notified. -/
def wake (cv : CondVar Thread) (t : Thread) : Option (CondVar Thread) :=
  if t ∈ cv.blocked then
    some ⟨cv.blocked.erase t, insert t cv.woken, by
      rw [Finset.disjoint_insert_right]
      exact ⟨Finset.notMem_erase t _, cv.disjoint.mono_left (Finset.erase_subset t _)⟩⟩
  else none

/-- A notification wakes the thread it is given, one of those asleep; it is given none only when
nobody sleeps. -/
def notifyOne (cv : CondVar Thread) : Option Thread → Option (CondVar Thread)
  | some t => cv.wake t
  | none => if cv.blocked = ∅ then some cv else none

/-- A woken thread comes out. -/
def resume (cv : CondVar Thread) (t : Thread) : Option (CondVar Thread) :=
  if t ∈ cv.woken then
    some ⟨cv.blocked, cv.woken.erase t, cv.disjoint.mono_right (Finset.erase_subset t _)⟩
  else none

/-- A thread comes out because its time is up, asleep or woken. -/
def giveUp (cv : CondVar Thread) (t : Thread) : Option (CondVar Thread) :=
  if t ∈ cv.blocked ∪ cv.woken then
    some ⟨cv.blocked.erase t, cv.woken.erase t,
      cv.disjoint.mono (Finset.erase_subset t _) (Finset.erase_subset t _)⟩
  else none

/-! ## Who is inside afterwards -/

lemma wake_eq_some (hwake : cv.wake t = some cv') :
    t ∈ cv.blocked ∧ cv'.blocked = cv.blocked.erase t ∧ cv'.woken = insert t cv.woken := by
  simp only [wake, Option.ite_none_right_eq_some, Option.some.injEq] at hwake
  rcases hwake with ⟨ht, rfl⟩
  exact ⟨ht, rfl, rfl⟩

lemma giveUp_eq_some (hgiveUp : cv.giveUp t = some cv') :
    (t ∈ cv.blocked ∨ t ∈ cv.woken) ∧ cv'.blocked = cv.blocked.erase t ∧
      cv'.woken = cv.woken.erase t := by
  simp only [giveUp, Option.ite_none_right_eq_some, Option.some.injEq, Finset.mem_union] at hgiveUp
  rcases hgiveUp with ⟨ht, rfl⟩
  exact ⟨ht, rfl, rfl⟩

/-- A thread that wakes is woken. -/
lemma woken_nonempty_of_wake (hwake : cv.wake t = some cv') : cv'.woken.Nonempty := by
  rw [(wake_eq_some hwake).2.2]
  exact Finset.insert_nonempty t _

/-- A notification is not lost on a sleeping thread. -/
theorem woken_or_blocked_of_notifyOne {choice : Option Thread}
    (hnotify : cv.notifyOne choice = some cv') : cv'.woken.Nonempty ∨ cv'.blocked = ∅ := by
  cases choice with
  | some t => exact Or.inl (woken_nonempty_of_wake hnotify)
  | none =>
      simp only [notifyOne, Option.ite_none_right_eq_some, Option.some.injEq] at hnotify
      rcases hnotify with ⟨hblocked, rfl⟩
      exact Or.inr hblocked

end CondVar
