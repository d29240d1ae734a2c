import FFNetwork.Lib.StepSystem

/-!
# Simulation along a view

The states of a concrete system are seen as states of an abstract one, and each of its actions as
the actions it comes to there, which may be none.

* **`run_view`** — if every step is seen as its label, a run is seen as the run of its labels.
* `run_rel` — systems that are related by every step are related by every run.
* **`view_invariant`** — if every step is seen as its label up to an equivalence of abstract states,
  an invariant of the abstract system that does not see the equivalence holds of the view.
-/

namespace StepSystem

variable {σ τ α β : Type*} {step : σ → α → Option σ} {step' : τ → β → Option τ}

lemma run_append {s : σ} {as bs : List α} :
    run step s (as ++ bs) = (run step s as).bind fun t => run step t bs := by
  induction as generalizing s with
  | nil => rfl
  | cons a as ih =>
      rw [List.cons_append, run_cons, run_cons, Option.bind_assoc]
      simp only [ih]

/-- What every step of a run has can be tested. -/
instance decidableEveryStep {P : σ → α → σ → Prop} [∀ s a t, Decidable (P s a t)] :
    ∀ (s : σ) (as : List α), Decidable (EveryStep step P s as)
  | _, [] => isTrue trivial
  | s, a :: as =>
      match h : step s a with
      | none => isTrue fun _ ht => nomatch h.symm.trans ht
      | some t =>
          have := decidableEveryStep (P := P) t as
          decidable_of_iff (P s a t ∧ EveryStep step P t as)
            ⟨fun hP _ ht => Option.some.inj (h.symm.trans ht) ▸ hP, fun hP => hP t h⟩

/-- Related results: none on either side, or one on each. -/
lemma rel_cases {R : σ → τ → Prop} {x : Option σ} {y : Option τ} (h : Option.Rel R x y) :
    x = none ∧ y = none ∨ ∃ s t, x = some s ∧ y = some t ∧ R s t := by
  cases h with
  | none => exact Or.inl ⟨rfl, rfl⟩
  | some hR => exact Or.inr ⟨_, _, rfl, rfl, hR⟩

/-- Related states that take the same actions, or none, to related states. -/
theorem run_rel {step' : τ → α → Option τ} {R : σ → τ → Prop}
    (sim : ∀ s v a, R s v → Option.Rel R (step s a) (step' v a)) {s : σ} {v : τ} (hR : R s v)
    (as : List α) : Option.Rel R (run step s as) (run step' v as) := by
  induction as generalizing s v with
  | nil => exact .some hR
  | cons a as ih =>
      rw [run_cons, run_cons]
      rcases rel_cases (sim s v a hR) with ⟨hnone, hnone'⟩ | ⟨t, w, ht, hw, hrel⟩
      · rw [hnone, hnone']
        exact .none
      · rw [ht, hw]
        exact ih hrel

/-- **Simulation.**  Under the invariant, a step that meets the condition is seen as its label and
keeps the invariant.  Then a run that meets the condition throughout is seen as the run of its
labels. -/
theorem run_view (view : σ → τ) (label : α → List β) {I : σ → Prop} {C : σ → α → σ → Prop}
    (sim : ∀ s a t, I s → step s a = some t → C s a t →
      I t ∧ run step' (view s) (label a) = some (view t))
    {as : List α} {s u : σ} (hs : I s) (hC : EveryStep step C s as)
    (hu : run step s as = some u) : run step' (view s) (as.flatMap label) = some (view u) := by
  induction as generalizing s with
  | nil =>
      rw [run_nil, Option.some.injEq] at hu
      rw [hu]
      rfl
  | cons a as ih =>
      rcases run_cons_eq_some.mp hu with ⟨t, ht, hrest⟩
      rcases hC t ht with ⟨hstep, hC⟩
      rcases sim s a t hs ht hstep with ⟨ht', hview⟩
      rw [List.flatMap_cons, run_append, hview, Option.bind_some]
      exact ih ht' hC hrest

/-- **Invariants of the view.**  A step is seen as its label from some state that is the same as the
view, and meets the condition of the abstract system there. -/
theorem view_invariant (view : σ → τ) (label : α → List β) {same : τ → τ → Prop} {I : σ → Prop}
    {J : τ → Prop} {C : σ → α → σ → Prop} {D : τ → β → τ → Prop}
    (insensitive : ∀ x y, same x y → J x → J y)
    (keep : ∀ x b y, J x → step' x b = some y → D x b y → J y)
    (sim : ∀ s a t, I s → step s a = some t → C s a t → I t ∧ ∃ x, same (view s) x ∧
      EveryStep step' D x (label a) ∧ run step' x (label a) = some (view t))
    {as : List α} {s u : σ} (hs : I s) (hJ : J (view s)) (hC : EveryStep step C s as)
    (hu : run step s as = some u) : J (view u) := by
  induction as generalizing s with
  | nil =>
      rw [run_nil, Option.some.injEq] at hu
      rw [← hu]
      exact hJ
  | cons a as ih =>
      rcases run_cons_eq_some.mp hu with ⟨t, ht, hrest⟩
      rcases hC t ht with ⟨hstep, hC⟩
      rcases sim s a t hs ht hstep with ⟨ht', x, hx, hlabel, hview⟩
      have hJ' := run_invariant_of keep (insensitive _ x hx hJ) hlabel hview
      exact ih ht' hJ' hC hrest

end StepSystem
