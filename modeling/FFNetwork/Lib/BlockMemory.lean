import FFNetwork.Lib.Block
import FFNetwork.Lib.Slots
import Mathlib.Order.Basic
import Mathlib.Order.Nat
import Mathlib.Logic.Function.Basic

/-!
# A memory of blocks

What `malloc` and `free` hand out and take back: blocks of cells, each under the number of its
allocation, which is never given again.  A cell that has not been written yet has no value.  Each
operation is `none` where the C function has no defined behaviour: a block that is not there, a cell
behind its end, or a cell without a value.

* `malloc`, `free`, `read`, `write`; `read_eq_some_iff`, `write_spec`.
* `Replaces` — a block has been freed and another one allocated, and everything else is as it was;
  `fill_spec`, `write_behind` for what is written to the new one.
* **`Accounted`** — every block has one owner; `Accounted.replaces`.
-/

/-- The blocks, none for those that have been freed. -/
structure BlockMemory (β : Type*) where
  blocks : List (Option (List (Option β)))

namespace BlockMemory

open Slots

variable {β : Type*} {m m' m'' : BlockMemory β} {p q n : ℕ} {b : List (Option β)} {xs : List β}

/-- No block has been allocated. -/
def empty : BlockMemory β := ⟨[]⟩

/-- How many blocks have been allocated so far. -/
def size (m : BlockMemory β) : ℕ := m.blocks.length

/-- The cells of a block that has not been freed. -/
def contents (m : BlockMemory β) (p : ℕ) : Option (List (Option β)) := live m.blocks p

/-- `malloc`: the new block and the memory with it. -/
def malloc (m : BlockMemory β) (n : ℕ) : ℕ × BlockMemory β :=
  (m.size, ⟨m.blocks ++ [some (List.replicate n none)]⟩)

/-- `free`. -/
def free (m : BlockMemory β) (p : ℕ) : Option (BlockMemory β) :=
  (m.contents p).map fun _ => ⟨m.blocks.set p none⟩

/-- The values of the first `n` cells of a block. -/
def read (m : BlockMemory β) (p n : ℕ) : Option (List β) :=
  (m.contents p).bind fun b => if n ≤ b.length then (b.take n).mapM id else none

/-- Values for the cells of a block from `pos` on. -/
def write (m : BlockMemory β) (p pos : ℕ) (xs : List β) : Option (BlockMemory β) :=
  (m.contents p).bind fun b =>
    if pos + xs.length ≤ b.length then
      some ⟨m.blocks.set p (some (Block.overwrite b pos (xs.map some)))⟩
    else none

/-! ## One operation -/

lemma lt_size_of_contents (h : m.contents p = some b) : p < m.size := lt_of_live h

lemma contents_of_size_le (h : m.size ≤ p) : m.contents p = none := by
  rw [contents, live, List.getElem?_eq_none h]
  rfl

@[simp] lemma size_malloc (m : BlockMemory β) (n : ℕ) : (m.malloc n).2.size = m.size + 1 := by
  simp [malloc, size]

@[simp] lemma malloc_fst (m : BlockMemory β) (n : ℕ) : (m.malloc n).1 = m.size := rfl

@[simp] lemma contents_malloc_new (m : BlockMemory β) (n : ℕ) :
    (m.malloc n).2.contents m.size = some (List.replicate n none) := by
  simp [malloc, contents, live, size]

lemma contents_malloc_of_ne (h : p ≠ m.size) (n : ℕ) :
    (m.malloc n).2.contents p = m.contents p := by
  rcases Nat.lt_or_gt_of_ne h with hlt | hgt
  · rw [contents, malloc, live, List.getElem?_append_left hlt]
    rfl
  · rw [contents_of_size_le hgt.le, contents_of_size_le (by rw [size_malloc]; omega)]

lemma free_eq_some_iff :
    m.free p = some m' ↔ (∃ b, m.contents p = some b) ∧ m' = ⟨m.blocks.set p none⟩ := by
  rw [free, Option.map_eq_some_iff]
  constructor
  · rintro ⟨b, hb, rfl⟩
    exact ⟨⟨b, hb⟩, rfl⟩
  · rintro ⟨⟨b, hb⟩, rfl⟩
    exact ⟨b, hb, rfl⟩

lemma size_free (h : m.free p = some m') : m'.size = m.size := by
  rcases free_eq_some_iff.mp h with ⟨-, rfl⟩
  exact List.length_set ..

lemma contents_free_self (h : m.free p = some m') : m'.contents p = none := by
  rcases free_eq_some_iff.mp h with ⟨⟨b, hb⟩, rfl⟩
  exact live_set_self hb none

lemma contents_free_of_ne (h : m.free p = some m') (hne : q ≠ p) :
    m'.contents q = m.contents q := by
  rcases free_eq_some_iff.mp h with ⟨-, rfl⟩
  exact live_set_of_ne hne.symm none

lemma exists_free (h : m.contents p = some b) : ∃ m', m.free p = some m' :=
  ⟨_, free_eq_some_iff.mpr ⟨⟨b, h⟩, rfl⟩⟩

lemma mapM_id_eq_some_iff {cells : List (Option β)} :
    cells.mapM id = some xs ↔ cells = xs.map some := by
  induction cells generalizing xs with
  | nil => cases xs <;> simp
  | cons x cells ih =>
      simp only [List.mapM_cons, id, Option.bind_eq_bind, Option.bind_eq_some_iff, Option.pure_def,
        Option.some.injEq, ih]
      cases xs with
      | nil => simp
      | cons y xs =>
          simp only [List.map_cons, List.cons.injEq]
          constructor
          · rintro ⟨z, rfl, zs, rfl, rfl, rfl⟩
            exact ⟨rfl, rfl⟩
          · rintro ⟨rfl, rfl⟩
            exact ⟨y, rfl, xs, rfl, rfl, rfl⟩

/-- What can be read is what stands in front of the block. -/
lemma read_eq_some_iff :
    m.read p n = some xs ↔
      ∃ b, m.contents p = some b ∧ n ≤ b.length ∧ b.take n = xs.map some := by
  simp only [read, Option.bind_eq_some_iff, Option.ite_none_right_eq_some, mapM_id_eq_some_iff]

lemma length_of_read (h : m.read p n = some xs) : xs.length = n := by
  rcases read_eq_some_iff.mp h with ⟨b, -, hle, htake⟩
  have hlength := congrArg List.length htake
  rw [List.length_take, Nat.min_eq_left hle, List.length_map] at hlength
  exact hlength.symm

/-- Fewer cells. -/
lemma read_take (h : m.read p n = some xs) {k : ℕ} (hk : k ≤ n) :
    m.read p k = some (xs.take k) := by
  rcases read_eq_some_iff.mp h with ⟨b, hb, hle, htake⟩
  refine read_eq_some_iff.mpr ⟨b, hb, hk.trans hle, ?_⟩
  rw [List.map_take, ← htake, List.take_take, Nat.min_eq_left hk]

lemma read_congr (h : m'.contents p = m.contents p) (n : ℕ) : m'.read p n = m.read p n := by
  rw [read, read, h]

lemma read_of_contents_none (h : m.contents p = none) (n : ℕ) : m.read p n = none := by
  rw [read, h]
  rfl

/-- A write inside a block changes that block only. -/
lemma write_spec (h : m.contents p = some b) (xs : List β) {pos : ℕ}
    (hfit : pos + xs.length ≤ b.length) :
    ∃ m', m.write p pos xs = some m' ∧ m'.size = m.size ∧
      m'.contents p = some (Block.overwrite b pos (xs.map some)) ∧
        ∀ q ≠ p, m'.contents q = m.contents q := by
  refine ⟨⟨m.blocks.set p (some (Block.overwrite b pos (xs.map some)))⟩, ?_, ?_, ?_, ?_⟩
  · rw [write, h, Option.bind_some, if_pos hfit]
  · exact List.length_set ..
  · exact live_set_self h _
  · exact fun q hq => live_set_of_ne hq.symm _

/-! ## A block in the place of another one -/

/-- The block `old` has been freed and the block `new` allocated, if there are such, and all other
blocks are as they were. -/
structure Replaces (m : BlockMemory β) (old : Option ℕ) (m' : BlockMemory β) (new : Option ℕ) :
    Prop where
  size : m.size ≤ m'.size
  others : ∀ p < m.size, old ≠ some p → m'.contents p = m.contents p
  freed : ∀ p, old = some p → m'.contents p = none
  fresh : ∀ p, new = some p → m.size ≤ p
  allocated : ∀ p, m.size ≤ p → ((m'.contents p).isSome ↔ new = some p)

lemma replaces_refl (m : BlockMemory β) : m.Replaces none m none where
  size := le_rfl
  others _ _ _ := rfl
  freed _ h := nomatch h
  fresh _ h := nomatch h
  allocated p hp := by simp [contents_of_size_le hp]

lemma replaces_free (h : m.free p = some m') : m.Replaces (some p) m' none where
  size := (size_free h).ge
  others q _ hq := contents_free_of_ne h fun heq => hq (congrArg some heq.symm)
  freed q hq := by
    rw [← Option.some.inj hq]
    exact contents_free_self h
  fresh _ h := nomatch h
  allocated q hq := by
    rw [contents_of_size_le ((size_free h).trans_le hq)]
    simp

lemma replaces_malloc (m : BlockMemory β) (n : ℕ) :
    m.Replaces none (m.malloc n).2 (some m.size) where
  size := by simp
  others q hq _ := contents_malloc_of_ne hq.ne n
  freed _ h := nomatch h
  fresh q hq := (Option.some.inj hq).le
  allocated q hq := by
    rw [Option.some.injEq]
    constructor
    · intro hsome
      by_contra hne
      rw [contents_malloc_of_ne (Ne.symm hne), contents_of_size_le hq] at hsome
      cases hsome
    · rintro rfl
      simp

/-- What is written into the new block changes nothing else. -/
lemma Replaces.write {old : Option ℕ} (h : m.Replaces old m' (some p)) (hsize : m''.size = m'.size)
    (hself : m''.contents p = some b) (hothers : ∀ q ≠ p, m''.contents q = m'.contents q) :
    m.Replaces old m'' (some p) where
  size := h.size.trans hsize.ge
  others q hq hold := by
    have hne : q ≠ p := fun heq => hq.not_ge (heq ▸ h.fresh p rfl)
    rw [hothers q hne, h.others q hq hold]
  freed q hq := by
    by_cases hne : q = p
    · subst hne
      have hdead := h.freed q hq
      have hsome := (h.allocated q (h.fresh q rfl)).mpr rfl
      rw [hdead] at hsome
      cases hsome
    · rw [hothers q hne, h.freed q hq]
  fresh := h.fresh
  allocated q hq := by
    by_cases hne : q = p
    · simp [hne, hself]
    · rw [hothers q hne, h.allocated q hq]

/-- First the one block is freed, then the other one is allocated. -/
lemma Replaces.trans {old new : Option ℕ} (h : m.Replaces old m' none)
    (hold : ∀ p, old = some p → p < m.size) (h' : m'.Replaces none m'' new) :
    m.Replaces old m'' new where
  size := h.size.trans h'.size
  others p hp hne := by rw [h'.others p (hp.trans_le h.size) (by simp), h.others p hp hne]
  freed p hp := by
    rw [h'.others p ((hold p hp).trans_le h.size) (by simp), h.freed p hp]
  fresh p hp := h.size.trans (h'.fresh p hp)
  allocated p hp := by
    by_cases hlt : p < m'.size
    · have hnone := (h.allocated p hp).not.mpr (by simp)
      rw [h'.others p hlt (by simp), iff_false_left hnone]
      exact fun hnew => hlt.not_ge (h'.fresh p hnew)
    · exact h'.allocated p (not_lt.mp hlt)

/-- A block that is not freed can be read as before. -/
lemma Replaces.read {old new : Option ℕ} (h : m.Replaces old m' new) (hp : old ≠ some p)
    (hread : m.read p n = some xs) : m'.read p n = some xs := by
  rcases read_eq_some_iff.mp hread with ⟨b, hb, -⟩
  rw [read_congr (h.others p (lt_size_of_contents hb) hp), hread]

/-- A new block and what is written to its front. -/
lemma fill_spec (m : BlockMemory β) (xs : List β) (hfit : xs.length ≤ n) :
    ∃ m' b, (m.malloc n).2.write m.size 0 xs = some m' ∧ m.Replaces none m' (some m.size) ∧
      m'.contents m.size = some b ∧ b.length = n ∧ m'.read m.size xs.length = some xs := by
  have hfit' : 0 + (xs.map some).length ≤ (List.replicate n (none : Option β)).length := by
    simpa using hfit
  have hfits : 0 + xs.length ≤ (List.replicate n (none : Option β)).length := by
    simpa using hfit
  rcases write_spec (contents_malloc_new m n) xs hfits with
    ⟨m', hwrite, hsize, hself, hothers⟩
  refine ⟨m', _, hwrite, (replaces_malloc m n).write hsize hself hothers, hself, by simp, ?_⟩
  refine read_eq_some_iff.mpr ⟨_, hself, by simpa using hfit, ?_⟩
  have htake := Block.take_overwrite hfit'
  simpa using htake

/-- A write behind the front of a block. -/
lemma write_behind {pos : ℕ} (ys : List β) (h : m.contents p = some b)
    (hfit : pos + ys.length ≤ b.length) (hread : m.read p n = some xs) (hn : n ≤ pos) :
    ∃ m', m.write p pos ys = some m' ∧ m'.read p n = some xs ∧
      ∀ {m₀ : BlockMemory β} {old : Option ℕ}, m₀.Replaces old m (some p) →
        m₀.Replaces old m' (some p) := by
  rcases write_spec h ys hfit with ⟨m', hwrite, hsize, hself, hothers⟩
  refine ⟨m', hwrite, ?_, fun hreplaces => hreplaces.write hsize hself hothers⟩
  rcases read_eq_some_iff.mp hread with ⟨b', hb', hle, htake⟩
  rw [h, Option.some.injEq] at hb'
  subst hb'
  refine read_eq_some_iff.mpr ⟨_, hself, by simpa using hle, ?_⟩
  have hpos : pos ≤ b.length := by omega
  have hlen : (b.take pos ++ ys.map some).length = pos + (ys.map some).length := by
    rw [List.length_append, List.length_take, Nat.min_eq_left hpos]
  have hcut : (Block.overwrite b pos (ys.map some)).take n =
      (b.take pos ++ ys.map some ++ b.drop (pos + (ys.map some).length)).take n := by
    rw [Block.overwrite, List.take_take, Nat.min_eq_left hle]
  rw [hcut, ← htake, List.take_append_of_le_length (by rw [hlen]; omega),
    List.take_append_of_le_length (by rw [List.length_take]; omega), List.take_take,
    Nat.min_eq_left hn]

/-! ## Owners -/

variable {ι : Type*} [DecidableEq ι] {owns : ι → Option ℕ} {i : ι}

/-- What is owned is there, and has one owner; what is there is owned. -/
structure Accounted (m : BlockMemory β) (owns : ι → Option ℕ) : Prop where
  there : ∀ i p, owns i = some p → (m.contents p).isSome
  one : ∀ i j p, owns i = some p → owns j = some p → i = j
  owned : ∀ p, (m.contents p).isSome → ∃ i, owns i = some p

omit [DecidableEq ι] in
lemma accounted_empty : (empty : BlockMemory β).Accounted fun _ : ι => none where
  there _ _ h := nomatch h
  one _ _ _ h := nomatch h
  owned p h := by simp [empty, contents, live] at h

omit [DecidableEq ι] in
lemma Accounted.lt_size (ac : m.Accounted owns) (h : owns i = some p) : p < m.size := by
  rcases Option.isSome_iff_exists.mp (ac.there i p h) with ⟨b, hb⟩
  exact lt_size_of_contents hb

/-- An owner has its block replaced. -/
theorem Accounted.replaces (ac : m.Accounted owns) {new : Option ℕ}
    (h : m.Replaces (owns i) m' new) : m'.Accounted (Function.update owns i new) where
  there j p hj := by
    by_cases hji : j = i
    · subst hji
      rw [Function.update_self] at hj
      exact (h.allocated p (h.fresh p hj)).mpr hj
    · rw [Function.update_of_ne hji] at hj
      rw [h.others p (ac.lt_size hj) fun hi => hji (ac.one j i p hj hi)]
      exact ac.there j p hj
  one j k p hj hk := by
    by_cases hji : j = i <;> by_cases hki : k = i
    · rw [hji, hki]
    · rw [hji, Function.update_self] at hj
      rw [Function.update_of_ne hki] at hk
      exact absurd (h.fresh p hj) (ac.lt_size hk).not_ge
    · rw [hki, Function.update_self] at hk
      rw [Function.update_of_ne hji] at hj
      exact absurd (h.fresh p hk) (ac.lt_size hj).not_ge
    · rw [Function.update_of_ne hji] at hj
      rw [Function.update_of_ne hki] at hk
      exact ac.one j k p hj hk
  owned p hp := by
    by_cases hlt : p < m.size
    · by_cases hold : owns i = some p
      · rw [h.freed p hold] at hp
        cases hp
      · rw [h.others p hlt hold] at hp
        rcases ac.owned p hp with ⟨j, hj⟩
        have hji : j ≠ i := fun heq => hold (heq ▸ hj)
        exact ⟨j, by rw [Function.update_of_ne hji, hj]⟩
    · exact ⟨i, by rw [Function.update_self, (h.allocated p (not_lt.mp hlt)).mp hp]⟩

end BlockMemory
