import Mathlib.Data.List.Basic
import Mathlib.Data.List.Infix

/-!
# Runs of a labelled step function

A system is given by its step function `step : σ → α → Option σ`: `step s a` is the state that
action `a` leads to, and `none` when `a` cannot be taken in `s`.

* `run` — the state after a list of actions.
* `EveryStep` — a property of transitions that every step of a run has.
* `run_invariant` — an invariant kept by every step holds at the end of a run.
* `exists_of_not_everyStep` — a damage that lasts is there at the end of a run in which it was done.
* **`everyStep_iff`** — the exactness rule.  If, under an invariant, a step has the property `P`
  and keeps the invariant exactly when it meets the condition `C`, then a run has `P` throughout
  exactly when it meets `C` throughout.
-/

namespace StepSystem

variable {σ α : Type*} {step : σ → α → Option σ}

/-! ## Runs -/

/-- The state after the actions, taken in order; `none` as soon as one cannot be taken. -/
def run (step : σ → α → Option σ) : σ → List α → Option σ
  | s, [] => some s
  | s, a :: as => (step s a).bind fun t => run step t as

@[simp] lemma run_nil (s : σ) : run step s [] = some s := rfl

@[simp] lemma run_cons (s : σ) (a : α) (as : List α) :
    run step s (a :: as) = (step s a).bind fun t => run step t as := rfl

lemma run_cons_eq_some {s u : σ} {a : α} {as : List α} :
    run step s (a :: as) = some u ↔ ∃ t, step s a = some t ∧ run step t as = some u := by
  rw [run_cons, Option.bind_eq_some_iff]

/-! ## Properties of every step -/

/-- Every transition of the run from `s` has `P`: the state before, the action, the state after.
Actions behind one that cannot be taken are not looked at. -/
def EveryStep (step : σ → α → Option σ) (P : σ → α → σ → Prop) : σ → List α → Prop
  | _, [] => True
  | s, a :: as => ∀ t, step s a = some t → P s a t ∧ EveryStep step P t as

@[simp] lemma everyStep_nil (P : σ → α → σ → Prop) (s : σ) : EveryStep step P s [] := trivial

lemma everyStep_cons {P : σ → α → σ → Prop} {s : σ} {a : α} {as : List α} :
    EveryStep step P s (a :: as) ↔
      ∀ t, step s a = some t → P s a t ∧ EveryStep step P t as := Iff.rfl

lemma everyStep_true (s : σ) (as : List α) : EveryStep step (fun _ _ _ => True) s as := by
  induction as generalizing s with
  | nil => trivial
  | cons a as ih => exact fun t _ => ⟨trivial, ih t⟩

lemma everyStep_append {P : σ → α → σ → Prop} {s : σ} {as bs : List α} :
    EveryStep step P s (as ++ bs) ↔
      EveryStep step P s as ∧ ∀ t, run step s as = some t → EveryStep step P t bs := by
  induction as generalizing s with
  | nil => simp
  | cons a as ih =>
      simp only [List.cons_append, everyStep_cons, ih, run_cons_eq_some]
      constructor
      · intro h
        exact ⟨fun t ht => ⟨(h t ht).1, (h t ht).2.1⟩, fun u ⟨t, ht, hu⟩ => (h t ht).2.2 u hu⟩
      · rintro ⟨h, h'⟩ t ht
        exact ⟨(h t ht).1, (h t ht).2, fun u hu => h' u ⟨t, ht, hu⟩⟩

/-- What one transition of the run has, read off at any split of the action list. -/
lemma EveryStep.at {P : σ → α → σ → Prop} {s t u : σ} {a : α} {as bs : List α}
    (h : EveryStep step P s (as ++ a :: bs)) (hs : run step s as = some t)
    (ht : step t a = some u) : P t a u :=
  ((everyStep_append.mp h).2 t hs u ht).1

/-- A run has `P` throughout, or has a first part, a transition without `P` and a second part. -/
lemma everyStep_or_exists (P : σ → α → σ → Prop) {as : List α} {s u : σ}
    (hu : run step s as = some u) : EveryStep step P s as ∨ ∃ bs a cs t t', as = bs ++ a :: cs ∧
      run step s bs = some t ∧ step t a = some t' ∧ ¬ P t a t' ∧ run step t' cs = some u := by
  induction as generalizing s with
  | nil => exact Or.inl trivial
  | cons a as ih =>
      obtain ⟨t, ht, hrest⟩ := run_cons_eq_some.mp hu
      by_cases hP : P s a t
      · rcases ih hrest with hall | ⟨bs, b, cs, v, v', rfl, hv, hb, hnot, hcs⟩
        · refine Or.inl fun t' ht' => ?_
          obtain rfl := Option.some.inj (ht.symm.trans ht')
          exact ⟨hP, hall⟩
        · exact Or.inr ⟨a :: bs, b, cs, v, v', rfl, run_cons_eq_some.mpr ⟨t, ht, hv⟩, hb, hnot,
            hcs⟩
      · exact Or.inr ⟨[], a, as, s, t, rfl, rfl, ht, hP, hrest⟩

/-! ## Invariants -/

/-- An invariant that every step meeting the condition keeps holds wherever a run ends whose
steps all meet the condition. -/
theorem run_invariant_of {I : σ → Prop} {C : σ → α → σ → Prop}
    (keep : ∀ s a t, I s → step s a = some t → C s a t → I t) {as : List α} {s u : σ} (hs : I s)
    (hC : EveryStep step C s as) (hu : run step s as = some u) : I u := by
  induction as generalizing s with
  | nil =>
      rw [run_nil, Option.some.injEq] at hu
      exact hu ▸ hs
  | cons a as ih =>
      obtain ⟨t, ht, hu⟩ := run_cons_eq_some.mp hu
      exact ih (keep s a t hs ht (hC t ht).1) (hC t ht).2 hu

/-- An invariant that every step keeps holds wherever a run ends. -/
theorem run_invariant {I : σ → Prop} (keep : ∀ s a t, I s → step s a = some t → I t)
    {as : List α} {s u : σ} (hs : I s) (hu : run step s as = some u) : I u :=
  run_invariant_of (C := fun _ _ _ => True) (fun s a t hs ht _ => keep s a t hs ht) hs
    (everyStep_true s as) hu

/-- What a single transition without `C` brings about, and every step keeps, is there at the end of
every run that does not meet `C` throughout. -/
theorem exists_of_not_everyStep {I : σ → Prop} {C : σ → α → σ → Prop} {Q : σ → Prop}
    (keep : ∀ s a t, I s → step s a = some t → I t)
    (brings : ∀ s a t, I s → step s a = some t → ¬ C s a t → Q t)
    (stays : ∀ s a t, I s → step s a = some t → Q s → Q t)
    {as : List α} {s u : σ} (hs : I s) (hu : run step s as = some u)
    (hnot : ¬ EveryStep step C s as) : Q u := by
  rcases everyStep_or_exists C hu with hall | ⟨bs, a, cs, t, t', rfl, ht, ha, hC, hcs⟩
  · exact absurd hall hnot
  · have hI := run_invariant keep hs ht
    exact (run_invariant (I := fun s => I s ∧ Q s)
      (fun s a t ⟨hI, hQ⟩ hst => ⟨keep s a t hI hst, stays s a t hI hst hQ⟩)
      ⟨keep t a t' hI ha, brings t a t' hI ha hC⟩ hcs).2

/-- Under the invariant, a step that meets `C` keeps the invariant and has `P`.  Then a run that
meets `C` throughout has `P` throughout. -/
theorem EveryStep.of_keep {I : σ → Prop} {P C : σ → α → σ → Prop}
    (keep : ∀ s a t, I s → step s a = some t → C s a t → I t ∧ P s a t) {as : List α} {s : σ}
    (hs : I s) (hC : EveryStep step C s as) : EveryStep step P s as := by
  induction as generalizing s with
  | nil => simp
  | cons a as ih =>
      simp only [everyStep_cons] at hC ⊢
      intro t ht
      rcases hC t ht with ⟨hC, hrest⟩
      rcases keep s a t hs ht hC with ⟨ht', hP⟩
      exact ⟨hP, ih ht' hrest⟩

/-- **The exactness rule.**  Under the invariant, a step that meets `C` has `P` and keeps the
invariant, and a step that has `P` meets `C`.  Then the runs that have `P` throughout are exactly
those that meet `C` throughout. -/
theorem everyStep_iff {I : σ → Prop} {P C : σ → α → σ → Prop}
    (keep : ∀ s a t, I s → step s a = some t → C s a t → I t ∧ P s a t)
    (only : ∀ s a t, I s → step s a = some t → P s a t → C s a t) {as : List α} {s : σ}
    (hs : I s) : EveryStep step P s as ↔ EveryStep step C s as := by
  constructor
  · refine EveryStep.of_keep (I := I) ?_ hs
    intro s a t hs ht hP
    have hC := only s a t hs ht hP
    exact ⟨(keep s a t hs ht hC).1, hC⟩
  · exact EveryStep.of_keep keep hs

end StepSystem
