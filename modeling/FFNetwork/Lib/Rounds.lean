import Mathlib.Data.List.Basic

/-!
# Logs that are made of rounds

A log in which some entries are marks.  A mark opens a round, which goes on up to the next mark.

* `Rounds` — the log has an opening without marks, and then rounds each of which is right for what
  stands before it.
* `Rounds.append` — a log goes on within its last round.
* **`Rounds.filterMap_eq_replicate`** — what is found once in every round is found as often as there
  are marks.
-/

/-- `opening` is about the part before the first mark; `round` is about the log before a mark, the
mark, and the part behind it. -/
inductive Rounds {α : Type*} (mark : α → Bool) (opening : List α → Prop)
    (round : List α → α → List α → Prop) : List α → Prop
  | start {part : List α} (hquiet : ∀ x ∈ part, mark x = false) (hopening : opening part) :
      Rounds mark opening round part
  | next {log part : List α} {a : α} (hlog : Rounds mark opening round log) (hmark : mark a = true)
      (hquiet : ∀ x ∈ part, mark x = false) (hround : round log a part) :
      Rounds mark opening round (log ++ a :: part)

namespace Rounds

variable {α β : Type*} {mark : α → Bool} {opening : List α → Prop}
  {round : List α → α → List α → Prop} {log more : List α}

/-- More entries without a mark belong to the last round, or to the opening. -/
lemma append (hlog : Rounds mark opening round log) (hquiet : ∀ x ∈ more, mark x = false)
    (hopening : ∀ part, opening part → opening (part ++ more))
    (hround : ∀ log a part, round log a part → round log a (part ++ more)) :
    Rounds mark opening round (log ++ more) := by
  have hboth : ∀ part : List α, (∀ x ∈ part, mark x = false) →
      ∀ x ∈ part ++ more, mark x = false := by
    intro part hpart x hx
    rcases List.mem_append.mp hx with hx | hx
    · exact hpart x hx
    · exact hquiet x hx
  cases hlog with
  | start hpart hopened => exact start (hboth _ hpart) (hopening _ hopened)
  | next hlog hmark hpart hr =>
      rw [List.append_assoc, List.cons_append]
      exact next hlog hmark (hboth _ hpart) (hround _ _ _ hr)

lemma countP_eq_zero_of_quiet {part : List α} (hquiet : ∀ x ∈ part, mark x = false) :
    part.countP mark = 0 :=
  List.countP_eq_zero.mpr fun x hx => by simp [hquiet x hx]

/-- **Once in every round.**  What `f` finds in a log, if the opening has nothing of it, the marks
have nothing of it, and every round has it once. -/
theorem filterMap_eq_replicate {f : α → Option β} {b : β} (hlog : Rounds mark opening round log)
    (hopening : ∀ part, opening part → part.filterMap f = [])
    (hmarks : ∀ a, mark a = true → f a = none)
    (hround : ∀ before a part, before ++ a :: part <+: log → mark a = true → round before a part →
      part.filterMap f = [b]) :
    log.filterMap f = List.replicate (log.countP mark) b := by
  induction hlog with
  | start hquiet hopened =>
      rw [hopening _ hopened, countP_eq_zero_of_quiet hquiet]
      rfl
  | next hlog hmark hquiet hr ih =>
      have hpart := hround _ _ _ List.prefix_rfl hmark hr
      have hlog := ih fun before a part hinit =>
        hround before a part (hinit.trans (List.prefix_append _ _))
      rw [List.filterMap_append, List.filterMap_cons_none (hmarks _ hmark), hlog, hpart,
        List.countP_append, List.countP_cons_of_pos hmark, countP_eq_zero_of_quiet hquiet,
        Nat.zero_add, List.replicate_succ']

end Rounds
