import FFNetwork.Base.MessageLoop.Message
import Mathlib.Order.Bounds.Basic

/-!
# Reserving space in a message

`Message::Reserve` and `Resize` in both builds of the library: `FF_DCHECK` is compiled into those
without `DEBUG` and does nothing in the others, where `realloc` can be asked for a smaller block or
for none, which frees the one there is.

* `Message.reserveIn` — how `Reserve` ends; with the checks it is `Message.reserve`.
* `Message.KeepsPromise` — what `Reserve` promises.
* **`reserve_keepsPromise_iff`** — when it keeps the promise.
-/

namespace FFNetwork

namespace Message

/-- How `Reserve` ends. -/
inductive ReserveEnd
  | returned (success : Bool) (m : Message)
  /-- An `FF_DCHECK` has failed. -/
  | checkFailed
  /-- It has returned false, and `realloc` has freed the block to which `buffer_` points. -/
  | returnedFreed (m : Message)

/-- `Resize`, in a build in which the checks are compiled in or not. -/
def resizeIn (checked : Bool) (m : Message) (alloc : Allocation) (size : ℕ) : ReserveEnd :=
  match m.buffer_ with
  | none =>
      if checked && m.buffer_length_ != 0 then .checkFailed
      else
        match alloc with
        | none => .returned false m
        | some fresh =>
            .returned true
              { m with buffer_ := some (Block.grow fresh size []), buffer_length_ := size }
  | some block =>
      if checked && !decide (size > m.buffer_length_) then .checkFailed
      else if size = 0 then .returnedFreed m
      else
        match alloc with
        | none => .returned false m
        | some fresh =>
            .returned true
              { m with buffer_ := some (Block.grow fresh size block), buffer_length_ := size }

/-- `Reserve`, in a build in which the checks are compiled in or not. -/
def reserveIn (checked : Bool) (m : Message) (alloc : Allocation) (size : ℕ) : ReserveEnd :=
  if m.buffer_length_ ≥ size then .returned true m
  else m.resizeIn checked alloc (nextOfTwoSize (UInt32.ofNat size)).toNat

/-- `Reserve` with the checks, by how it ends. -/
def reserveEnd : Option (Bool × Message) → ReserveEnd
  | none => .checkFailed
  | some (success, m) => .returned success m

/-- With the checks `realloc` is never asked for no block. -/
theorem reserveIn_checked (m : Message) (alloc : Allocation) (size : ℕ) :
    m.reserveIn true alloc size = reserveEnd (m.reserve alloc size) := by
  rw [reserveIn, reserve]
  split
  · rfl
  · unfold resizeIn resize
    cases m.buffer_ with
    | none =>
        by_cases hlength : m.buffer_length_ = 0
        · cases alloc <;> simp [hlength, reserveEnd]
        · simp [hlength, reserveEnd]
    | some block =>
        by_cases hgrows : m.buffer_length_ < (nextOfTwoSize (UInt32.ofNat size)).toNat
        · have hpos : (nextOfTwoSize (UInt32.ofNat size)).toNat ≠ 0 := by omega
          cases alloc <;> simp [hgrows, hpos, reserveEnd]
        · simp [hgrows, reserveEnd]

variable {m m' : Message} {alloc : Allocation} {checked success : Bool} {size : ℕ}

/-- The buffer is as long as the message says. -/
def LengthKnown (m : Message) : Prop := m.block.length = m.buffer_length_

lemma lengthKnown_new : new.LengthKnown := rfl

lemma WellFormed.lengthKnown (wf : m.WellFormed) : m.LengthKnown := wf.block_length

lemma LengthKnown.of_null (hm : m.LengthKnown) (h : m.buffer_ = none) : m.buffer_length_ = 0 := by
  rw [← hm, block, h]
  rfl

/-- Whenever `Reserve` returns with a buffer, it is as long as the message says. -/
theorem lengthKnown_reserveIn (hm : m.LengthKnown)
    (h : m.reserveIn checked alloc size = .returned success m') : m'.LengthKnown := by
  rw [reserveIn] at h
  split at h
  · cases h
    exact hm
  · unfold resizeIn at h
    split at h
    · split at h
      · cases h
      · split at h
        · cases h
          exact hm
        · cases h
          exact Block.length_grow _ _ _
    · split at h
      · cases h
      · split at h
        · cases h
        · split at h
          · cases h
            exact hm
          · cases h
            exact Block.length_grow _ _ _

/-! ## The promise -/

/-- The powers of two with room for `size` bytes. -/
def Rooms (size : ℕ) : Set ℕ := {length | (∃ k, length = 2 ^ k) ∧ size ≤ length}

/-- The message has room for `size` bytes, in a buffer as long as before or the least power of two
that is long enough, and its data is what it was. -/
structure Reserved (m : Message) (size : ℕ) (m' : Message) : Prop where
  room : size ≤ m'.buffer_length_
  length_eq : m'.LengthKnown
  data : m.block.take m.data_length_ <+: m'.block
  data_length_eq : m'.data_length_ = m.data_length_
  size_read_eq : m'.size_read_ = m.size_read_
  least : m'.buffer_length_ = m.buffer_length_ ∨ IsLeast (Rooms size) m'.buffer_length_

/-- What `Reserve` promises: if it returns true there is room, and if it returns false nothing has
changed. -/
def KeepsPromise (m : Message) (size : ℕ) : ReserveEnd → Prop
  | .returned true m' => m.Reserved size m'
  | .returned false m' => m' = m
  | .checkFailed => False
  | .returnedFreed _ => False

/-- What `NextOfTwoSize` makes of a `size_t`, of which it sees the low 32 bits. -/
lemma blockSize_eq_ite (size : ℕ) :
    blockSize size = if size % 2 ^ 32 ≤ 2 ^ 31 then 2 ^ Nat.clog 2 (size % 2 ^ 32) else 0 := by
  rw [blockSize, nextOfTwoSize_toNat, UInt32.toNat_ofNat']

lemma isLeast_blockSize (hsize : size ≤ 2 ^ 31) : IsLeast (Rooms size) (blockSize size) := by
  rw [blockSize_eq hsize]
  refine ⟨⟨⟨_, rfl⟩, Nat.le_pow_clog Nat.one_lt_two size⟩, ?_⟩
  rintro _ ⟨⟨k, rfl⟩, hk⟩
  exact Nat.pow_le_pow_right Nat.two_pos ((Nat.clog_le_iff_le_pow Nat.one_lt_two).mpr hk)

/-- The message with a buffer of a new size. -/
def withBuffer (m : Message) (fresh : ℕ → UInt8) (size : ℕ) : Message :=
  { m with buffer_ := some (Block.grow fresh size m.block), buffer_length_ := size }

/-- `Resize` with the buffer as a list of cells, null or not. -/
lemma resizeIn_eq (hm : m.LengthKnown) (checked : Bool) (alloc : Allocation) (size : ℕ) :
    m.resizeIn checked alloc size =
      if m.buffer_ ≠ none ∧ checked = true ∧ size ≤ m.buffer_length_ then .checkFailed
      else if m.buffer_ ≠ none ∧ size = 0 then .returnedFreed m
      else
        match alloc with
        | none => .returned false m
        | some fresh => .returned true (m.withBuffer fresh size) := by
  unfold resizeIn withBuffer block
  cases hbuffer : m.buffer_ with
  | none => simp [hm.of_null hbuffer]
  | some block => simp

lemma prefix_grow (hm : m.LengthKnown) (fresh : ℕ → UInt8) (hsize : m.buffer_length_ ≤ size) :
    m.block.take m.data_length_ <+: (m.withBuffer fresh size).block := by
  refine (List.take_prefix _ _).trans ⟨(List.range (size - m.block.length)).map fresh, ?_⟩
  show _ = Block.grow fresh size m.block
  rw [Block.grow, List.take_of_length_le (hm.trans_le hsize)]

/-- Above `2 ^ 31` no block that `NextOfTwoSize` asks for is long enough. -/
lemma not_reserved_of_lt (hsize : 2 ^ 31 < size) (fresh : ℕ → UInt8) :
    ¬ m.Reserved size (m.withBuffer fresh (blockSize size)) := by
  intro h
  have hroom : size ≤ blockSize size := h.room
  have hshort : blockSize size ≤ 2 ^ 31 := nextOfTwoSize_le _
  omega

/-- When the allocation fails, it depends on what `realloc` has been asked for. -/
lemma keepsPromise_refused (hm : m.LengthKnown) (checked : Bool) (size : ℕ) :
    m.KeepsPromise size (m.resizeIn checked none (blockSize size)) ↔
      m.buffer_ = none ∨ size % 2 ^ 32 ≤ 2 ^ 31 ∧
        (checked = true → m.buffer_length_ < 2 ^ Nat.clog 2 (size % 2 ^ 32)) := by
  rw [resizeIn_eq hm, blockSize_eq_ite]
  by_cases hnull : m.buffer_ = none
  · simp [hnull, KeepsPromise]
  · by_cases hsmall : size % 2 ^ 32 ≤ 2 ^ 31
    · have hpos : 2 ^ Nat.clog 2 (size % 2 ^ 32) ≠ 0 := pow_ne_zero _ (by decide)
      rw [if_pos hsmall]
      split
      · next hcheck =>
          refine iff_of_false (fun h => h) ?_
          rintro (h | h)
          · exact hnull h
          · exact absurd (h.2 hcheck.2.1) (not_lt.mpr hcheck.2.2)
      · next hcheck =>
          rw [if_neg fun h => hpos h.2]
          refine iff_of_true rfl (Or.inr ⟨hsmall, fun hchecked => ?_⟩)
          exact not_le.mp fun hle => hcheck ⟨hnull, hchecked, hle⟩
    · rw [if_neg hsmall]
      refine iff_of_false ?_ fun h => h.elim hnull fun h => hsmall h.1
      split
      · exact fun h => h
      · rw [if_pos ⟨hnull, rfl⟩]
        exact fun h => h

/-- **When `Reserve` keeps its promise.**  There is room already, or the size is at most `2 ^ 31`,
or the allocation fails: with a buffer, only if `NextOfTwoSize` asks for a block at all, and where
there are checks for a longer one. -/
theorem reserve_keepsPromise_iff (checked : Bool) (m : Message) (hm : m.LengthKnown)
    (alloc : Allocation) (size : ℕ) :
    m.KeepsPromise size (m.reserveIn checked alloc size) ↔
      size ≤ m.buffer_length_ ∨ size ≤ 2 ^ 31 ∨
        alloc = none ∧ (m.buffer_ = none ∨ size % 2 ^ 32 ≤ 2 ^ 31 ∧
          (checked = true → m.buffer_length_ < 2 ^ Nat.clog 2 (size % 2 ^ 32))) := by
  by_cases hroom : size ≤ m.buffer_length_
  · rw [reserveIn, if_pos hroom]
    exact iff_of_true ⟨hroom, hm, List.take_prefix _ _, rfl, rfl, Or.inl rfl⟩ (Or.inl hroom)
  · rw [reserveIn, if_neg hroom, ← blockSize]
    simp only [hroom, false_or]
    by_cases hsmall : size ≤ 2 ^ 31
    · -- the next power of two is longer than the buffer
      have hleast := isLeast_blockSize hsmall
      have hlong := hleast.1.2
      refine iff_of_true ?_ (Or.inl hsmall)
      rw [resizeIn_eq hm, if_neg (by omega), if_neg (by omega)]
      cases alloc with
      | none => rfl
      | some fresh =>
          exact ⟨hlong, Block.length_grow _ _ _, prefix_grow hm fresh (by omega), rfl, rfl,
            Or.inr hleast⟩
    · simp only [hsmall, false_or]
      cases alloc with
      | none => rw [keepsPromise_refused hm, and_iff_right rfl]
      | some fresh =>
          refine iff_of_false ?_ fun h => Option.some_ne_none fresh h.1
          rw [resizeIn_eq hm]
          split
          · exact fun h => h
          · split
            · exact fun h => h
            · exact not_reserved_of_lt (not_le.mp hsmall) fresh

/-- Five bytes in a message whose block of four has three bytes of data, one of them read. -/
theorem reserve_five_withData :
    KeepsPromise ⟨some [1, 2, 3, 0], 4, 3, 1⟩ 5
      (reserveIn true ⟨some [1, 2, 3, 0], 4, 3, 1⟩ (some fun _ => 0) 5) :=
  (reserve_keepsPromise_iff true ⟨some [1, 2, 3, 0], 4, 3, 1⟩ rfl (some fun _ => 0) 5).mpr
    (Or.inr (Or.inl (by decide)))

/-- One byte more than `2 ^ 31`, for which `NextOfTwoSize` asks for a block of no bytes and `malloc`
returns one. -/
theorem not_reserve_keepsPromise :
    ¬ ∀ (checked : Bool) (m : Message) (alloc : Allocation) (size : ℕ), m.LengthKnown →
      size < 2 ^ 64 → m.KeepsPromise size (m.reserveIn checked alloc size) := by
  intro h
  have hroom := h true new (some fun _ => 0) (2 ^ 31 + 1) lengthKnown_new (by decide)
  have hzero : blockSize (2 ^ 31 + 1) = 0 := by decide
  have hend : new.reserveIn true (some fun _ => 0) (2 ^ 31 + 1) =
      .returned true { new with buffer_ := some [], buffer_length_ := 0 } := by
    rw [reserveIn, if_neg (by decide), ← blockSize, hzero]
    rfl
  rw [hend] at hroom
  exact absurd hroom.room (by decide)

end Message

end FFNetwork
