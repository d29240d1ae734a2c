import Mathlib.Data.List.Basic
import Mathlib.Data.List.TakeDrop

/-!
# Heap blocks

A block of the heap as the list of its cells, with what `realloc` and `memcpy` do to it.  The size
of a block is the length of its list; a write behind the end changes no cell of it.

* `grow` — a block of a new size with the old contents in front; `take_grow`.
* `overwrite` — a block with some cells replaced; `take_overwrite`.
-/

namespace Block

variable {α : Type*}

/-- `realloc`: the old contents as far as they fit, then cells of which nothing is known. -/
def grow (fresh : ℕ → α) (size : ℕ) (block : List α) : List α :=
  block.take size ++ (List.range (size - block.length)).map fresh

@[simp] lemma length_grow (fresh : ℕ → α) (size : ℕ) (block : List α) :
    (grow fresh size block).length = size := by
  rw [grow, List.length_append, List.length_take, List.length_map, List.length_range]
  omega

lemma take_grow (fresh : ℕ → α) {n size : ℕ} {block : List α} (hn : n ≤ block.length)
    (hsize : n ≤ size) : (grow fresh size block).take n = block.take n := by
  rw [grow, List.take_append_of_le_length (by rw [List.length_take]; omega), List.take_take,
    Nat.min_eq_left hsize]

/-- `memcpy` to the cells from `pos` on. -/
def overwrite (block : List α) (pos : ℕ) (cells : List α) : List α :=
  (block.take pos ++ cells ++ block.drop (pos + cells.length)).take block.length

@[simp] lemma length_overwrite (block : List α) (pos : ℕ) (cells : List α) :
    (overwrite block pos cells).length = block.length := by
  rw [overwrite, List.length_take, List.length_append, List.length_append, List.length_take,
    List.length_drop]
  omega

/-- A write behind known contents makes them longer. -/
lemma take_overwrite {block cells : List α} {pos : ℕ} (hfit : pos + cells.length ≤ block.length) :
    (overwrite block pos cells).take (pos + cells.length) = block.take pos ++ cells := by
  have hlen : (block.take pos ++ cells).length = pos + cells.length := by
    rw [List.length_append, List.length_take]
    omega
  rw [overwrite, List.take_take, Nat.min_eq_left hfit, ← hlen, List.take_left]

/-- The front of a block after a write inside it. -/
lemma take_overwrite_of_le {block cells : List α} {pos n : ℕ} (hpos : pos + cells.length ≤ n)
    (hn : n ≤ block.length) :
    (overwrite block pos cells).take n
      = block.take pos ++ cells ++ (block.take n).drop (pos + cells.length) := by
  have hlen : (block.take pos ++ cells).length = pos + cells.length := by
    rw [List.length_append, List.length_take]
    omega
  rw [overwrite, List.take_take, Nat.min_eq_left hn, List.take_append, hlen, List.drop_take,
    List.take_of_length_le (by omega)]

end Block
