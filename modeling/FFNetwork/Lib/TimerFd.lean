import Mathlib.Algebra.Order.Ring.Int

/-!
# A timer that is read

A timer of the kernel, as a file descriptor: it is set for an absolute time and may then expire
again after every interval.  A reader gets the number of expirations since the last reading, or
nothing if there is none.  Setting the timer forgets the expirations that have not been read.

* `Readable` — there is an expiration to read; `Readable.mono`.
* `read_eq_some` — a reading that succeeds returns a positive number.
-/

/-- `next` is the first expiration that has not been read, and `none` for a disarmed timer. -/
structure TimerFd where
  next : Option ℤ
  interval : ℤ
deriving DecidableEq, Repr

namespace TimerFd

/-- A timer that has never been set. -/
def created : TimerFd := ⟨none, 0⟩

/-- Set with an absolute first expiration; the value 0 disarms. -/
def settime (value interval : ℤ) : TimerFd :=
  if value = 0 then ⟨none, interval⟩ else ⟨some value, interval⟩

/-- The number of expirations up to `now` of a timer whose first one is at `first`. -/
def expirations (interval first now : ℤ) : ℕ :=
  if interval = 0 then 1 else ((now - first) / interval).toNat + 1

/-- A reading that does not block. -/
def read (fd : TimerFd) (now : ℤ) : Option (ℕ × TimerFd) :=
  match fd.next with
  | none => none
  | some first =>
      if now < first then none
      else
        let count := expirations fd.interval first now
        let next := if fd.interval = 0 then none else some (first + count * fd.interval)
        some (count, { fd with next := next })

/-- An expiration is due. -/
def Readable (fd : TimerFd) (now : ℤ) : Prop := ∃ first, fd.next = some first ∧ first ≤ now

instance (fd : TimerFd) (now : ℤ) : Decidable (fd.Readable now) :=
  decidable_of_iff (∃ first ∈ fd.next, first ≤ now) Iff.rfl

variable {fd fd' : TimerFd} {now later : ℤ} {count : ℕ}

lemma Readable.mono (h : fd.Readable now) (hle : now ≤ later) : fd.Readable later := by
  obtain ⟨first, hnext, hfirst⟩ := h
  exact ⟨first, hnext, hfirst.trans hle⟩

lemma readable_settime {value interval : ℤ} :
    (settime value interval).Readable now ↔ value ≠ 0 ∧ value ≤ now := by
  rw [settime]
  split
  · next hzero => simp [Readable, hzero]
  · next hne => simp [Readable, hne]

lemma read_eq_none_iff : fd.read now = none ↔ ¬ fd.Readable now := by
  cases hnext : fd.next with
  | none => simp [read, Readable, hnext]
  | some first => simp [read, Readable, hnext]

/-- A reading returns a positive number. -/
lemma read_eq_some (hread : fd.read now = some (count, fd')) : fd.Readable now ∧ 0 < count := by
  have hreadable : fd.Readable now := by
    by_contra hnot
    rw [read_eq_none_iff.mpr hnot] at hread
    cases hread
  obtain ⟨first, hnext, hfirst⟩ := hreadable
  simp only [read, hnext, not_lt.mpr hfirst, if_false, Option.some.injEq, Prod.mk.injEq] at hread
  obtain ⟨rfl, -⟩ := hread
  refine ⟨⟨first, hnext, hfirst⟩, ?_⟩
  rw [expirations]
  split <;> omega

end TimerFd
