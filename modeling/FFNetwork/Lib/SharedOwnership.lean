import FFNetwork.Lib.StepSystem
import Mathlib.Algebra.Order.BigOperators.Group.Finset
import Mathlib.Data.Finset.Max
import Mathlib.Data.List.Count

/-!
# Shared ownership

Objects that live as long as there are pointers to them.  A pointer is held outside of the objects,
or is a field of one, or is being let go; every object counts the pointers to it.  An object gets
its fields when it is made, from pointers that are held, and lets them go when it is destroyed.
Letting go is a step for each pointer, so that any number of destructors can be under way.

* `Owners.step` — the step function.
* `Counted` — the invariant: the counts are right; `counted_step`.
* `held_live`, `field_live` — what is pointed to is alive.
* **`exists_root`** — behind every object alive there is a pointer from outside of the objects, so
  that nothing is left alive when there is none.
-/

namespace SharedOwnership

open StepSystem

/-- The objects made so far, in the order of their making, those alive and those destroyed. -/
structure Owners (Obj : Type*) where
  use_count : Obj → ℕ
  fields : Obj → List Obj
  made : List Obj
  live : Finset Obj
  destroyed : List Obj
  /-- The pointers outside of the objects. -/
  held : List Obj
  /-- The pointers that are being let go. -/
  releasing : List Obj

/-- What is done with pointers. -/
inductive OwnerAction (Obj : Type*) where
  /-- A new object takes the pointers for its fields from those held. -/
  | make (o : Obj) (fields : List Obj)
  | copy (o : Obj)
  /-- A field of an object is copied. -/
  | load (p o : Obj)
  | drop (o : Obj)
  | release (o : Obj)

namespace Owners

variable {Obj : Type*} [DecidableEq Obj] {s t : Owners Obj} {a : OwnerAction Obj} {x p : Obj}

omit [DecidableEq Obj] in
/-- Nothing has been made. -/
def empty : Owners Obj := ⟨fun _ => 0, fun _ => [], [], ∅, [], [], []⟩

/-- One more pointer is held. -/
def share (s : Owners Obj) (o : Obj) : Owners Obj :=
  { s with
    use_count := Function.update s.use_count o (s.use_count o + 1)
    held := s.held ++ [o] }

/-- A pointer that is not the last one is gone. -/
def decrement (s : Owners Obj) (o : Obj) : Owners Obj :=
  { s with
    use_count := Function.update s.use_count o (s.use_count o - 1)
    releasing := s.releasing.erase o }

/-- The last pointer is gone, and the object with it. -/
def destroy (s : Owners Obj) (o : Obj) : Owners Obj :=
  { s with
    use_count := Function.update s.use_count o 0
    live := s.live.erase o
    destroyed := s.destroyed ++ [o]
    releasing := s.releasing.erase o ++ s.fields o }

/-- The step function.  A pointer that is dropped is let go in a step of its own. -/
def step (s : Owners Obj) : OwnerAction Obj → Option (Owners Obj)
  | .make o fields =>
      if o ∉ s.made ∧ ∀ x ∈ fields, fields.count x ≤ s.held.count x then
        some { s with
          use_count := Function.update s.use_count o 1
          fields := Function.update s.fields o fields
          made := s.made ++ [o]
          live := insert o s.live
          held := s.held.diff fields ++ [o] }
      else none
  | .copy o => if o ∈ s.held then some (s.share o) else none
  | .load p o => if p ∈ s.held ∧ o ∈ s.fields p then some (s.share o) else none
  | .drop o =>
      if o ∈ s.held then
        some { s with held := s.held.erase o, releasing := s.releasing ++ [o] }
      else none
  | .release o =>
      if o ∈ s.releasing then some (if s.use_count o = 1 then s.destroy o else s.decrement o)
      else none

/-- What a step can do. -/
inductive Moves (s : Owners Obj) : OwnerAction Obj → Owners Obj → Prop
  | make {o : Obj} {fields : List Obj} (hnew : o ∉ s.made)
      (hfields : ∀ x ∈ fields, fields.count x ≤ s.held.count x) :
      s.Moves (.make o fields) { s with
        use_count := Function.update s.use_count o 1
        fields := Function.update s.fields o fields
        made := s.made ++ [o]
        live := insert o s.live
        held := s.held.diff fields ++ [o] }
  | copy {o : Obj} (hheld : o ∈ s.held) : s.Moves (.copy o) (s.share o)
  | load {p o : Obj} (hheld : p ∈ s.held) (hfield : o ∈ s.fields p) :
      s.Moves (.load p o) (s.share o)
  | drop {o : Obj} (hheld : o ∈ s.held) :
      s.Moves (.drop o) { s with held := s.held.erase o, releasing := s.releasing ++ [o] }
  | destroy {o : Obj} (hreleasing : o ∈ s.releasing) (hlast : s.use_count o = 1) :
      s.Moves (.release o) (s.destroy o)
  | decrement {o : Obj} (hreleasing : o ∈ s.releasing) (hmore : s.use_count o ≠ 1) :
      s.Moves (.release o) (s.decrement o)

/-- **What one step does.** -/
theorem moves_of_step (ht : s.step a = some t) : s.Moves a t := by
  cases a with
  | make o fields =>
      simp only [step, Option.ite_none_right_eq_some, Option.some.injEq] at ht
      rcases ht with ⟨⟨hnew, hfields⟩, rfl⟩
      exact .make hnew hfields
  | copy o =>
      simp only [step, Option.ite_none_right_eq_some, Option.some.injEq] at ht
      rcases ht with ⟨hheld, rfl⟩
      exact .copy hheld
  | load p o =>
      simp only [step, Option.ite_none_right_eq_some, Option.some.injEq] at ht
      rcases ht with ⟨⟨hheld, hfield⟩, rfl⟩
      exact .load hheld hfield
  | drop o =>
      simp only [step, Option.ite_none_right_eq_some, Option.some.injEq] at ht
      rcases ht with ⟨hheld, rfl⟩
      exact .drop hheld
  | release o =>
      simp only [step, Option.ite_none_right_eq_some, Option.some.injEq] at ht
      rcases ht with ⟨hreleasing, rfl⟩
      split
      · next hlast => exact .destroy hreleasing hlast
      · next hmore => exact .decrement hreleasing hmore

/-! ## The counts -/

/-- The pointers to the object in the fields of those alive. -/
def inside (s : Owners Obj) (x : Obj) : ℕ := ∑ p ∈ s.live, (s.fields p).count x

/-- The counts are right, what has a pointer to it is alive, and what has been made is alive or has
been destroyed once.  A field points to an older object. -/
structure Counted (s : Owners Obj) : Prop where
  count : ∀ x, s.use_count x = s.held.count x + s.releasing.count x + s.inside x
  live : ∀ x, x ∈ s.live ↔ 0 < s.use_count x
  made : ∀ x, x ∈ s.made ↔ x ∈ s.live ∨ x ∈ s.destroyed
  nodup : s.made.Nodup
  destroyed : s.destroyed.Nodup
  gone : ∀ x ∈ s.destroyed, x ∉ s.live
  older : ∀ p ∈ s.live, ∀ x ∈ s.fields p, s.made.idxOf x < s.made.idxOf p

lemma counted_empty : (empty : Owners Obj).Counted := by
  constructor <;> simp [empty, inside]

lemma le_inside (hp : p ∈ s.live) (x : Obj) : (s.fields p).count x ≤ s.inside x :=
  Finset.single_le_sum (f := fun p => (s.fields p).count x) (fun _ _ => Nat.zero_le _) hp

/-- A pointer that is held keeps its object alive. -/
lemma Counted.held_live (cs : s.Counted) (hx : x ∈ s.held) : x ∈ s.live := by
  rw [cs.live, cs.count]
  have := List.count_pos_iff.mpr hx
  omega

lemma Counted.releasing_live (cs : s.Counted) (hx : x ∈ s.releasing) : x ∈ s.live := by
  rw [cs.live, cs.count]
  have := List.count_pos_iff.mpr hx
  omega

/-- A field of an object alive keeps its object alive. -/
lemma Counted.field_live (cs : s.Counted) (hp : p ∈ s.live) (hx : x ∈ s.fields p) :
    x ∈ s.live := by
  rw [cs.live, cs.count]
  have hpos := List.count_pos_iff.mpr hx
  have hle := le_inside hp x
  omega

lemma Counted.share (cs : s.Counted) {o : Obj} (ho : o ∈ s.live) : (s.share o).Counted where
  count x := by
    have hcount := cs.count x
    show Function.update s.use_count o (s.use_count o + 1) x
      = (s.held ++ [o]).count x + s.releasing.count x + s.inside x
    rw [List.count_append]
    by_cases hx : x = o
    · subst hx
      rw [Function.update_self, List.count_singleton_self]
      omega
    · rw [Function.update_of_ne hx, List.count_singleton, beq_false_of_ne (Ne.symm hx)]
      simp only [Bool.false_eq_true, if_false]
      omega
  live x := by
    show x ∈ s.live ↔ 0 < Function.update s.use_count o (s.use_count o + 1) x
    by_cases hx : x = o
    · subst hx
      simp [ho]
    · rw [Function.update_of_ne hx, cs.live]
  made := cs.made
  nodup := cs.nodup
  destroyed := cs.destroyed
  gone := cs.gone
  older := cs.older

lemma Counted.drop (cs : s.Counted) {o : Obj} (ho : o ∈ s.held) :
    Counted { s with held := s.held.erase o, releasing := s.releasing ++ [o] } :=
  { cs with
    count := fun x => by
      have hcount := cs.count x
      have hpos := List.count_pos_iff.mpr ho
      show s.use_count x = (s.held.erase o).count x + (s.releasing ++ [o]).count x + s.inside x
      rw [List.count_append]
      by_cases hx : x = o
      · subst hx
        rw [List.count_erase_self, List.count_singleton_self]
        omega
      · rw [List.count_erase_of_ne hx, List.count_singleton, beq_false_of_ne (Ne.symm hx)]
        simp only [Bool.false_eq_true, if_false]
        omega }

lemma Counted.decrement (cs : s.Counted) {o : Obj} (ho : o ∈ s.releasing)
    (hmore : s.use_count o ≠ 1) : (s.decrement o).Counted :=
  { cs with
    count := fun x => by
      have hcount := cs.count x
      have hpos := List.count_pos_iff.mpr ho
      show Function.update s.use_count o (s.use_count o - 1) x
        = s.held.count x + (s.releasing.erase o).count x + s.inside x
      by_cases hx : x = o
      · subst hx
        rw [Function.update_self, List.count_erase_self]
        omega
      · rw [Function.update_of_ne hx, List.count_erase_of_ne hx]
        exact hcount
    live := fun x => by
      show x ∈ s.live ↔ 0 < Function.update s.use_count o (s.use_count o - 1) x
      by_cases hx : x = o
      · subst hx
        have hlive := cs.releasing_live ho
        rw [Function.update_self, iff_true_left hlive]
        rw [cs.live] at hlive
        omega
      · rw [Function.update_of_ne hx, cs.live] }

/-- An object that is destroyed lets its fields go. -/
lemma Counted.destroy (cs : s.Counted) {o : Obj} (ho : o ∈ s.releasing)
    (hlast : s.use_count o = 1) : (s.destroy o).Counted := by
  have hlive := cs.releasing_live ho
  have hpos := List.count_pos_iff.mpr ho
  have hsum : ∀ x, (s.fields o).count x + (s.destroy o).inside x = s.inside x := fun x =>
    Finset.add_sum_erase s.live (fun p => (s.fields p).count x) hlive
  refine ⟨fun x => ?_, fun x => ?_, fun x => ?_, cs.nodup, ?_, fun x hx => ?_, fun p hp x hx => ?_⟩
  · have hcount := cs.count x
    have hinside := hsum x
    show Function.update s.use_count o 0 x
      = s.held.count x + (s.releasing.erase o ++ s.fields o).count x + (s.destroy o).inside x
    rw [List.count_append]
    by_cases hx : x = o
    · subst hx
      rw [Function.update_self, List.count_erase_self]
      omega
    · rw [Function.update_of_ne hx, List.count_erase_of_ne hx]
      omega
  · show x ∈ s.live.erase o ↔ 0 < Function.update s.use_count o 0 x
    rw [Finset.mem_erase]
    by_cases hx : x = o
    · subst hx
      simp
    · rw [Function.update_of_ne hx, cs.live, and_iff_right hx]
  · show x ∈ s.made ↔ x ∈ s.live.erase o ∨ x ∈ s.destroyed ++ [o]
    rw [cs.made, Finset.mem_erase, List.mem_append, List.mem_singleton]
    by_cases hx : x = o
    · subst hx
      simp [hlive]
    · simp [hx]
  · refine List.nodup_append.mpr ⟨cs.destroyed, List.nodup_singleton o, fun x hx y hy => ?_⟩
    rintro rfl
    rw [List.mem_singleton.mp hy] at hx
    exact cs.gone o hx hlive
  · show x ∉ s.live.erase o
    rw [Finset.mem_erase]
    rintro ⟨hne, hmem⟩
    rcases List.mem_append.mp hx with hx | hx
    · exact cs.gone x hx hmem
    · exact hne (List.mem_singleton.mp hx)
  · exact cs.older p (Finset.mem_of_mem_erase hp) x hx

/-- A new object takes its fields over. -/
lemma Counted.make (cs : s.Counted) {o : Obj} {fields : List Obj} (hnew : o ∉ s.made)
    (hfields : ∀ x ∈ fields, fields.count x ≤ s.held.count x) :
    Counted { s with
      use_count := Function.update s.use_count o 1
      fields := Function.update s.fields o fields
      made := s.made ++ [o]
      live := insert o s.live
      held := s.held.diff fields ++ [o] } := by
  have hdead : o ∉ s.live := fun hlive => hnew ((cs.made o).mpr (Or.inl hlive))
  have hzero : s.use_count o = 0 := by
    have hcount := (cs.live o).not.mp hdead
    omega
  have hle : ∀ x, fields.count x ≤ s.held.count x := fun x => by
    by_cases hx : x ∈ fields
    · exact hfields x hx
    · rw [List.count_eq_zero_of_not_mem hx]
      exact Nat.zero_le _
  have hold : ∀ p ∈ s.live, Function.update s.fields o fields p = s.fields p := fun p hp =>
    Function.update_of_ne (ne_of_mem_of_not_mem hp hdead) ..
  have hsum : ∀ x, ∑ p ∈ insert o s.live, (Function.update s.fields o fields p).count x
      = fields.count x + s.inside x := fun x => by
    rw [Finset.sum_insert hdead, Function.update_self]
    congr 1
    exact Finset.sum_congr rfl fun p hp => by rw [hold p hp]
  refine ⟨fun x => ?_, fun x => ?_, fun x => ?_, ?_, cs.destroyed, fun x hx => ?_,
    fun p hp x hx => ?_⟩
  · have hcount := cs.count x
    have hlex := hle x
    show Function.update s.use_count o 1 x = (s.held.diff fields ++ [o]).count x
      + s.releasing.count x + ∑ p ∈ insert o s.live, (Function.update s.fields o fields p).count x
    rw [hsum, List.count_append, List.count_diff]
    by_cases hx : x = o
    · subst hx
      rw [Function.update_self, List.count_singleton_self]
      omega
    · rw [Function.update_of_ne hx, List.count_singleton, beq_false_of_ne (Ne.symm hx)]
      simp only [Bool.false_eq_true, if_false]
      omega
  · show x ∈ insert o s.live ↔ 0 < Function.update s.use_count o 1 x
    by_cases hx : x = o
    · subst hx
      simp
    · rw [Function.update_of_ne hx, Finset.mem_insert, cs.live]
      simp [hx]
  · show x ∈ s.made ++ [o] ↔ x ∈ insert o s.live ∨ x ∈ s.destroyed
    rw [List.mem_append, List.mem_singleton, Finset.mem_insert, cs.made]
    tauto
  · exact List.nodup_append.mpr ⟨cs.nodup, List.nodup_singleton o, fun x hx y hy => by
      rintro rfl
      exact hnew (List.mem_singleton.mp hy ▸ hx)⟩
  · show x ∉ insert o s.live
    rw [Finset.mem_insert, not_or]
    refine ⟨?_, cs.gone x hx⟩
    rintro rfl
    exact hnew ((cs.made x).mpr (Or.inr hx))
  · have hold' : ∀ y ∈ s.live, (s.made ++ [o]).idxOf y = s.made.idxOf y := fun y hy =>
      List.idxOf_append_of_mem ((cs.made y).mpr (Or.inl hy))
    rcases Finset.mem_insert.mp hp with rfl | hp
    · have hx : x ∈ Function.update s.fields p fields p := hx
      rw [Function.update_self] at hx
      have hpos := List.count_pos_iff.mpr hx
      have hlive := cs.held_live (List.count_pos_iff.mp (hpos.trans_le (hfields x hx)))
      show (s.made ++ [p]).idxOf x < (s.made ++ [p]).idxOf p
      rw [hold' x hlive, List.idxOf_append_of_notMem hnew, List.idxOf_cons_self, add_zero]
      exact List.idxOf_lt_length_of_mem ((cs.made x).mpr (Or.inl hlive))
    · have hx : x ∈ Function.update s.fields o fields p := hx
      rw [hold p hp] at hx
      show (s.made ++ [o]).idxOf x < (s.made ++ [o]).idxOf p
      rw [hold' x (cs.field_live hp hx), hold' p hp]
      exact cs.older p hp x hx

theorem counted_step (cs : s.Counted) (ht : s.step a = some t) : t.Counted := by
  cases moves_of_step ht with
  | make hnew hfields => exact cs.make hnew hfields
  | copy hheld => exact cs.share (cs.held_live hheld)
  | load hheld hfield => exact cs.share (cs.field_live (cs.held_live hheld) hfield)
  | drop hheld => exact cs.drop hheld
  | destroy hreleasing hlast => exact cs.destroy hreleasing hlast
  | decrement hreleasing hmore => exact cs.decrement hreleasing hmore

/-! ## What is alive -/

/-- An object is alive as long as somebody points to it. -/
theorem Counted.live_iff (cs : s.Counted) :
    x ∈ s.live ↔ x ∈ s.held ∨ x ∈ s.releasing ∨ ∃ p ∈ s.live, x ∈ s.fields p := by
  constructor
  · intro hx
    rw [cs.live, cs.count] at hx
    by_contra hnot
    rw [not_or, not_or] at hnot
    have hinside : s.inside x = 0 := by
      refine Finset.sum_eq_zero fun p hp => List.count_eq_zero_of_not_mem fun hmem => ?_
      exact hnot.2.2 ⟨p, hp, hmem⟩
    rw [hinside, List.count_eq_zero_of_not_mem hnot.1,
      List.count_eq_zero_of_not_mem hnot.2.1] at hx
    exact lt_irrefl 0 hx
  · rintro (hx | hx | ⟨p, hp, hx⟩)
    · exact cs.held_live hx
    · exact cs.releasing_live hx
    · exact cs.field_live hp hx

/-- Whatever the owner of an object inherits from it, somebody who points to the outermost owner
has.  The youngest object alive that has it is in no field. -/
theorem Counted.exists_root (cs : s.Counted) {P : Obj → Prop} [DecidablePred P]
    (inherits : ∀ p ∈ s.live, ∀ x ∈ s.fields p, P x → P p) (hx : x ∈ s.live) (hP : P x) :
    ∃ y ∈ s.held ++ s.releasing, P y := by
  have hne : (s.live.filter P).Nonempty := ⟨x, Finset.mem_filter.mpr ⟨hx, hP⟩⟩
  rcases (s.live.filter P).exists_max_image s.made.idxOf hne with ⟨y, hy, hmax⟩
  rcases Finset.mem_filter.mp hy with ⟨hlive, hPy⟩
  refine ⟨y, List.mem_append.mpr ?_, hPy⟩
  rcases cs.live_iff.mp hlive with hmem | hmem | ⟨p, hp, hmem⟩
  · exact Or.inl hmem
  · exact Or.inr hmem
  · have hPp := inherits p hp y hmem hPy
    exact absurd (cs.older p hp y hmem) (hmax p (Finset.mem_filter.mpr ⟨hp, hPp⟩)).not_gt

end Owners

end SharedOwnership
