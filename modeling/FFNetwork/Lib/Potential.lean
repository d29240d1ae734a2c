import FFNetwork.Lib.StepSystem

/-!
# Runs that use up a potential

A natural number that every step lowers, but for some actions that may add to it, bounds the length
of the runs.

* **`length_add_potential_le`** — the length of a run and what is left of the potential.
-/

namespace StepSystem

variable {σ α : Type*} {step : σ → α → Option σ}

/-- Under the invariant every step takes one off the potential, after those of the actions `p` have
added up to `c`.  Then a run is no longer than what it started with and what was added. -/
theorem length_add_potential_le {I : σ → Prop} (potential : σ → ℕ) {p : α → Bool} {c : ℕ}
    (keep : ∀ s a t, I s → step s a = some t → I t)
    (pays : ∀ s a t, I s → step s a = some t →
      potential t + 1 ≤ potential s + if p a then c else 0)
    {as : List α} {s u : σ} (hs : I s) (hu : run step s as = some u) :
    as.length + potential u ≤ potential s + c * as.countP p := by
  induction as generalizing s with
  | nil =>
      rw [run_nil, Option.some.injEq] at hu
      simp [hu]
  | cons a as ih =>
      rcases run_cons_eq_some.mp hu with ⟨t, ht, hrest⟩
      have hpays := pays s a t hs ht
      have hrun := ih (keep s a t hs ht) hrest
      rw [List.length_cons, List.countP_cons, Nat.mul_add]
      split
      · next hp =>
          rw [if_pos hp] at hpays
          omega
      · next hp =>
          rw [if_neg hp] at hpays
          omega

end StepSystem
