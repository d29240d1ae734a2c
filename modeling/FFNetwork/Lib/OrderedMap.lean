import Mathlib.Data.List.Basic
import Mathlib.Logic.Function.Basic

/-!
# Maps as sorted lists

A map with ordered keys, as the list of its entries in ascending order of the keys, which is the
order in which it is gone through.  A list `Represents` the function that it stands for.

* `set` — an entry is added, or takes the place of the one with its key; `represents_set`.
* `represents_erase` — the entry of a key is left out.
* `Represents.filter_key` — a key of the map stands in the list once.
-/

namespace OrderedMap

variable {κ α : Type*} [LT κ]

/-- The list has the entries of the map, in ascending order of the keys. -/
structure Represents (l : List (κ × α)) (m : κ → Option α) : Prop where
  ascending : l.Pairwise fun a b => a.1 < b.1
  mem_iff : ∀ key value, (key, value) ∈ l ↔ m key = some value

/-- `map[key] = value`. -/
def set [DecidableLT κ] [DecidableEq κ] (key : κ) (value : α) : List (κ × α) → List (κ × α)
  | [] => [(key, value)]
  | (k, v) :: rest =>
      if key < k then (key, value) :: (k, v) :: rest
      else if key = k then (key, value) :: rest
      else (k, v) :: set key value rest

lemma represents_nil : Represents ([] : List (κ × α)) fun _ => none :=
  ⟨List.Pairwise.nil, by simp⟩

variable [DecidableEq κ] {l : List (κ × α)} {m : κ → Option α} {key : κ} {value : α}

theorem represents_erase (h : Represents l m) (key : κ) :
    Represents (l.filter fun e => e.1 ≠ key) (Function.update m key none) := by
  refine ⟨h.ascending.filter _, fun k v => ?_⟩
  rw [List.mem_filter, h.mem_iff]
  by_cases hk : k = key
  · subst hk
    simp
  · rw [Function.update_of_ne hk]
    simp [hk]

variable [LE κ] [Std.IsLinearOrder κ] [Std.LawfulOrderLT κ]

section Set

variable [DecidableLT κ]

/-- What `set` leaves in the list: the new entry, and the old ones with other keys. -/
lemma mem_set (hl : l.Pairwise fun a b => a.1 < b.1) {e : κ × α} :
    e ∈ set key value l ↔ e = (key, value) ∨ (e ∈ l ∧ e.1 ≠ key) := by
  induction l with
  | nil => simp [set]
  | cons first rest ih =>
      obtain ⟨k, v⟩ := first
      obtain ⟨hfirst, hrest⟩ := List.pairwise_cons.mp hl
      rw [set]
      by_cases hlt : key < k
      · have hne : ∀ e ∈ (k, v) :: rest, e.1 ≠ key := by
          intro e he
          rcases List.mem_cons.mp he with rfl | he
          · exact (Std.ne_of_lt hlt).symm
          · exact (Std.ne_of_lt (Std.lt_trans hlt (hfirst e he))).symm
        rw [if_pos hlt, List.mem_cons]
        exact or_congr_right ⟨fun he => ⟨he, hne e he⟩, And.left⟩
      · rw [if_neg hlt]
        by_cases heq : key = k
        · subst heq
          have hne : ∀ e ∈ rest, e.1 ≠ key := fun e he => (Std.ne_of_lt (hfirst e he)).symm
          rw [if_pos rfl, List.mem_cons, List.mem_cons, or_and_right]
          refine or_congr_right ⟨fun he => Or.inr ⟨he, hne e he⟩, ?_⟩
          rintro (⟨rfl, he⟩ | ⟨he, _⟩)
          · exact absurd rfl he
          · exact he
        · rw [if_neg heq, List.mem_cons, ih hrest, List.mem_cons]
          constructor
          · rintro (rfl | rfl | ⟨he, hne⟩)
            · exact Or.inr ⟨Or.inl rfl, Ne.symm heq⟩
            · exact Or.inl rfl
            · exact Or.inr ⟨Or.inr he, hne⟩
          · rintro (rfl | ⟨rfl | he, hne⟩)
            · exact Or.inr (Or.inl rfl)
            · exact Or.inl rfl
            · exact Or.inr (Or.inr ⟨he, hne⟩)

lemma set_ascending (hl : l.Pairwise fun a b => a.1 < b.1) (key : κ) (value : α) :
    (set key value l).Pairwise fun a b => a.1 < b.1 := by
  induction l with
  | nil => exact List.pairwise_singleton _ _
  | cons first rest ih =>
      obtain ⟨k, v⟩ := first
      obtain ⟨hfirst, hrest⟩ := List.pairwise_cons.mp hl
      rw [set]
      by_cases hlt : key < k
      · rw [if_pos hlt]
        refine List.pairwise_cons.mpr ⟨fun e he => ?_, hl⟩
        rcases List.mem_cons.mp he with rfl | he
        · exact hlt
        · exact Std.lt_trans hlt (hfirst e he)
      · rw [if_neg hlt]
        by_cases heq : key = k
        · subst heq
          rw [if_pos rfl]
          exact List.pairwise_cons.mpr ⟨hfirst, hrest⟩
        · rw [if_neg heq]
          refine List.pairwise_cons.mpr ⟨fun e he => ?_, ih hrest⟩
          rcases (mem_set hrest).mp he with rfl | ⟨he, _⟩
          · exact Std.lt_of_le_of_ne (Std.not_lt.mp hlt) (Ne.symm heq)
          · exact hfirst e he

theorem represents_set (h : Represents l m) (key : κ) (value : α) :
    Represents (set key value l) (Function.update m key (some value)) := by
  refine ⟨set_ascending h.ascending key value, fun k v => ?_⟩
  rw [mem_set h.ascending, h.mem_iff, Prod.mk.injEq]
  by_cases hk : k = key
  · subst hk
    rw [Function.update_self, Option.some.injEq]
    exact ⟨fun hor => hor.elim (fun hv => hv.2.symm) fun hne => absurd rfl hne.2,
      fun hv => Or.inl ⟨rfl, hv.symm⟩⟩
  · rw [Function.update_of_ne hk]
    exact ⟨fun hor => hor.elim (fun hv => absurd hv.1 hk) And.left, fun hv => Or.inr ⟨hv, hk⟩⟩

end Set

omit [Std.IsLinearOrder κ] in
/-- A key of the map stands in the list once. -/
lemma Represents.filter_key (h : Represents l m) (hkey : m key = some value) :
    l.filter (fun e => e.1 = key) = [(key, value)] := by
  have hmem : (key, value) ∈ l := (h.mem_iff key value).mpr hkey
  obtain ⟨before, behind, rfl⟩ := List.append_of_mem hmem
  obtain ⟨_, hbehind, hcross⟩ := List.pairwise_append.mp h.ascending
  have hfront : before.filter (fun e => e.1 = key) = [] := by
    refine List.filter_eq_nil_iff.mpr fun e he => ?_
    have hlt := hcross e he _ (List.mem_cons_self ..)
    simpa using Std.ne_of_lt hlt
  have hrest : behind.filter (fun e => e.1 = key) = [] := by
    refine List.filter_eq_nil_iff.mpr fun e he => ?_
    have hlt := (List.pairwise_cons.mp hbehind).1 e he
    simpa using (Std.ne_of_lt hlt).symm
  rw [List.filter_append, hfront, List.filter_cons_of_pos (by simp), hrest]
  rfl

end OrderedMap
