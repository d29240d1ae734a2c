import Mathlib.Data.List.Basic

/-!
# Numbered objects

Objects that are created and destroyed one after the other, each under a number of its own: the list
of all numbers given so far, with the object for those that live.

* `live` — the object with a number; `live_set_self`, `live_set_of_ne`.
* `number` — how many live objects have a property; `number_set`, `number_append`.
-/

namespace Slots

variable {α : Type*} {slots : List (Option α)} {i j : ℕ} {a b : α}

/-- The live object with this number. -/
def live (slots : List (Option α)) (i : ℕ) : Option α := slots[i]?.join

lemma getElem?_of_live (h : live slots i = some a) : slots[i]? = some (some a) := by
  simpa [live, Option.join_eq_some_iff] using h

lemma lt_of_live (h : live slots i = some a) : i < slots.length :=
  (List.getElem?_eq_some_iff.mp (getElem?_of_live h)).1

lemma live_set_self (h : live slots i = some a) (x : Option α) : live (slots.set i x) i = x := by
  rw [live, List.getElem?_set_self (lt_of_live h)]
  rfl

lemma live_set_of_ne (h : i ≠ j) (x : Option α) : live (slots.set i x) j = live slots j := by
  rw [live, List.getElem?_set_ne h, live]

lemma live_append_self (slots : List (Option α)) (x : Option α) :
    live (slots ++ [x]) slots.length = x := by
  simp [live]

lemma live_append_of_ne (h : j ≠ slots.length) (x : Option α) :
    live (slots ++ [x]) j = live slots j := by
  rcases Nat.lt_or_gt_of_ne h with hlt | hgt
  · rw [live, List.getElem?_append_left hlt, live]
  · have hle : slots.length ≤ j := Nat.le_of_lt hgt
    have hlen : (slots ++ [x]).length ≤ j := by
      rw [List.length_append]
      exact hgt
    rw [live, live, List.getElem?_eq_none hle, List.getElem?_eq_none hlen]

/-- Putting an object back where it is changes nothing. -/
lemma set_live (h : live slots i = some a) : slots.set i (some a) = slots := by
  have hget := getElem?_of_live h
  rw [List.getElem?_eq_some_iff] at hget
  rcases hget with ⟨hlt, hget⟩
  rw [← hget, List.set_getElem_self hlt]

/-- How many live objects have the property. -/
def number (p : α → Bool) (slots : List (Option α)) : ℕ := slots.countP fun x => x.any p

lemma ite_eq_toNat (b : Bool) : (if b = true then 1 else 0) = b.toNat := by
  cases b with
  | false => rfl
  | true => rfl

/-- One object more or less, in the place of another one or of none. -/
lemma number_set (p : α → Bool) {x : Option α} (h : slots[i]? = some x) (y : Option α) :
    number p (slots.set i y) + (x.any p).toNat = number p slots + (y.any p).toNat := by
  induction slots generalizing i with
  | nil => simp at h
  | cons z slots ih =>
      cases i with
      | zero =>
          simp only [List.getElem?_cons_zero, Option.some.injEq] at h
          subst h
          simp only [number, List.set_cons_zero, List.countP_cons, ite_eq_toNat]
          omega
      | succ i =>
          simp only [number, List.set_cons_succ, List.countP_cons] at ih ⊢
          have hset := ih (by simpa using h)
          omega

lemma number_append (p : α → Bool) (slots : List (Option α)) (a : α) :
    number p (slots ++ [some a]) = number p slots + (p a).toNat := by
  rw [number, List.countP_append, List.countP_singleton, ite_eq_toNat, number]
  rfl

lemma number_pos_of_live {p : α → Bool} (h : live slots i = some a) (ha : p a = true) :
    0 < number p slots :=
  List.countP_pos_iff.mpr ⟨some a, List.mem_of_getElem? (getElem?_of_live h), ha⟩

/-- Nobody is left. -/
lemma number_eq_zero (p : α → Bool) (h : ∀ i, live slots i = none) : number p slots = 0 := by
  rw [number, List.countP_eq_zero]
  intro x hx hp
  rcases List.mem_iff_getElem?.mp hx with ⟨i, hi⟩
  have hnone := h i
  rw [live, hi] at hnone
  cases x with
  | none => cases hp
  | some a => cases hnone

end Slots
