import FFNetwork.Lib.BitSmear
import FFNetwork.Lib.Block

/-!
# Message

`source/base/messageloop/message.{h,cpp}`: a growing byte buffer into which trivially copyable
values are encoded one after the other, and from which they are decoded again.  A length is a
`size_t`, kept as a number below `2 ^ 64`.  What `malloc` and `realloc` return is an argument of the
calls that may allocate, and a failing `FF_DCHECK`, which ends the process, is `none`.

* `nextOfTwoSize_toNat` — what `NextOfTwoSize` computes, and where it overflows.
* `Message.encode_eq` — what `Encode` does: grow, fail, or end the process.
* `Message.Overcommits` — an `Encode` that succeeds in a buffer too small for its value.
-/

namespace FFNetwork

open BitSmear

/-! ## NextOfTwoSize -/

/-- `NextOfTwoSize`, with the shifts of the source. -/
def nextOfTwoSize (x : UInt32) : UInt32 :=
  if x = 0 then 1
  else
    let x := x - 1
    let x := x ||| x >>> 1
    let x := x ||| x >>> 2
    let x := x ||| x >>> 4
    let x := x ||| x >>> 8
    let x := x ||| x >>> 16
    x + 1

/-- The shifts of a 32-bit word spread its bits as those of a number do. -/
lemma spread_uint32 {x : ℕ} {y : UInt32} {w : ℕ} (h : SpreadOver x w y.toNat) (k : UInt32)
    (hk : k.toNat % 32 = w) : SpreadOver x (2 * w) (y ||| y >>> k).toNat := by
  rw [UInt32.toNat_or, UInt32.toNat_shiftRight, hk]
  exact h.double

/-- Up to `2 ^ 31` it is the next power of two; above, it overflows to 0. -/
lemma nextOfTwoSize_toNat (x : UInt32) :
    (nextOfTwoSize x).toNat = if x.toNat ≤ 2 ^ 31 then 2 ^ Nat.clog 2 x.toNat else 0 := by
  by_cases hx : x = 0
  · rw [hx]
    decide
  · have hpos : 1 ≤ x.toNat := Nat.one_le_iff_ne_zero.mpr fun h => hx (UInt32.toNat_inj.mp h)
    have hpred : (x - 1).toNat = x.toNat - 1 :=
      UInt32.toNat_sub_of_le x 1 (UInt32.le_iff_toNat_le.mpr hpos)
    have hlt := x.toNat_lt
    -- the last addition, to all ones up to the highest bit
    have hlast : ∀ y : UInt32, y.toNat + 1 = 2 ^ Nat.clog 2 x.toNat →
        (y + 1).toNat = if x.toNat ≤ 2 ^ 31 then 2 ^ Nat.clog 2 x.toNat else 0 := by
      intro y hy
      rw [UInt32.toNat_add, UInt32.toNat_one, hy]
      split
      · next hle =>
          have hclog := (Nat.clog_le_iff_le_pow Nat.one_lt_two).mpr hle
          exact Nat.mod_eq_of_lt (Nat.pow_lt_pow_right Nat.one_lt_two (by omega))
      · next hgt =>
          have hlow := (Nat.lt_clog_iff_pow_lt Nat.one_lt_two).mpr (not_le.mp hgt)
          have hhigh := (Nat.clog_le_iff_le_pow Nat.one_lt_two).mpr hlt.le
          have hclog : Nat.clog 2 x.toNat = 32 := by omega
          exact (congrArg (fun k => 2 ^ k % 2 ^ 32) hclog).trans (Nat.mod_self _)
    have h32 := spread_uint32 (spread_uint32 (spread_uint32 (spread_uint32 (spread_uint32
      (spreadOver_one (x - 1).toNat) 1 rfl) 2 rfl) 4 rfl) 8 rfl) 16 rfl
    have hsum := h32.eq_two_pow (by omega)
    rw [hpred, size_pred_eq_clog] at hsum
    rw [nextOfTwoSize, if_neg hx]
    exact hlast _ hsum

lemma nextOfTwoSize_le (x : UInt32) : (nextOfTwoSize x).toNat ≤ 2 ^ 31 := by
  rw [nextOfTwoSize_toNat]
  split
  · next hle =>
      exact Nat.pow_le_pow_right Nat.two_pos ((Nat.clog_le_iff_le_pow Nat.one_lt_two).mpr hle)
  · exact Nat.zero_le _

/-- The size of the block that `Reserve(need)` asks for. -/
def blockSize (need : ℕ) : ℕ := (nextOfTwoSize (UInt32.ofNat need)).toNat

lemma blockSize_eq {need : ℕ} (h : need ≤ 2 ^ 31) : blockSize need = 2 ^ Nat.clog 2 need := by
  have hmod : (UInt32.ofNat need).toNat = need :=
    UInt32.toNat_ofNat_of_lt' (lt_of_le_of_lt h (by decide))
  rw [blockSize, nextOfTwoSize_toNat, hmod, if_pos h]

/-- A request above `2 ^ 31` gets a block smaller than what was to be added, unless the block there
is as large. -/
lemma blockSize_lt {length size : ℕ} (hlength : length ≤ 2 ^ 31) (hneed : 2 ^ 31 < length + size)
    (hgrow : length = 0 ∨ length < blockSize (length + size)) :
    blockSize (length + size) < size := by
  have hle := nextOfTwoSize_le (UInt32.ofNat (length + size))
  have hval := nextOfTwoSize_toNat (UInt32.ofNat (length + size))
  rw [UInt32.toNat_ofNat'] at hval
  rw [blockSize] at hgrow ⊢
  by_cases hsmall : length + size < 2 ^ 32
  · rw [Nat.mod_eq_of_lt hsmall, if_neg (not_le.mpr hneed)] at hval
    omega
  · omega

/-! ## The buffer -/

/-- `sizeof(T)`: at least one, and within the range of `ptrdiff_t`. -/
structure TypeSize where
  size : ℕ
  pos : 0 < size
  lt : size < 2 ^ 63

/-- A trivially copyable value, by its bytes. -/
structure Value where
  bytes : List UInt8
  pos : 0 < bytes.length
  lt : bytes.length < 2 ^ 63

/-- `sizeof` of a value. -/
def Value.size (v : Value) : TypeSize := ⟨v.bytes.length, v.pos, v.lt⟩

/-- What the allocator returns: null, or a block whose new cells hold what they hold. -/
abbrev Allocation := Option (ℕ → UInt8)

/-- A `Message`; a null `buffer_` is `none`. -/
structure Message where
  buffer_ : Option (List UInt8)
  buffer_length_ : ℕ
  data_length_ : ℕ
  size_read_ : ℕ

namespace Message

/-- `Message::Message`. -/
def new : Message := ⟨none, 0, 0, 0⟩

/-- The cells of the buffer; a null buffer has none. -/
def block (m : Message) : List UInt8 := m.buffer_.getD []

/-- `ResetRead`. -/
def resetRead (m : Message) : Message := { m with size_read_ := 0 }

/-- `Resize`, where the checks are compiled in: `none` if one fails. -/
def resize (m : Message) (alloc : Allocation) (size : ℕ) : Option (Bool × Message) :=
  match m.buffer_ with
  | none =>
      if m.buffer_length_ = 0 then
        match alloc with
        | none => some (false, m)
        | some fresh =>
            some (true,
              { m with buffer_ := some (Block.grow fresh size []), buffer_length_ := size })
      else none
  | some block =>
      if size > m.buffer_length_ then
        match alloc with
        | none => some (false, m)
        | some fresh =>
            some (true,
              { m with buffer_ := some (Block.grow fresh size block), buffer_length_ := size })
      else none

/-- `Reserve`: the argument of `NextOfTwoSize` is cut to 32 bits. -/
def reserve (m : Message) (alloc : Allocation) (size : ℕ) : Option (Bool × Message) :=
  if m.buffer_length_ ≥ size then some (true, m)
  else m.resize alloc (nextOfTwoSize (UInt32.ofNat size)).toNat

/-- `PrepareEncode`: where in the buffer the value goes, or null. -/
def prepareEncode (m : Message) (alloc : Allocation) (size : ℕ) : Option (Option ℕ × Message) :=
  match m.reserve alloc ((m.buffer_length_ + size) % 2 ^ 64) with
  | none => none
  | some (false, m) => some (none, m)
  | some (true, m) =>
      let old_length := m.data_length_
      some (m.buffer_.map fun _ => old_length,
        { m with data_length_ := (m.data_length_ + size) % 2 ^ 64 })

/-- `PrepareDecode`: where in the buffer the value is, or null. -/
def prepareDecode (m : Message) (size : ℕ) : Option ℕ × Message :=
  if (size + m.size_read_) % 2 ^ 64 > m.buffer_length_ then (none, m)
  else
    (m.buffer_.map fun _ => m.size_read_,
      { m with size_read_ := (m.size_read_ + size) % 2 ^ 64 })

/-- `Encode` of a value: whether it returns true, or `none` if a check fails. -/
def encode (m : Message) (alloc : Allocation) (value : Value) : Option (Bool × Message) :=
  match m.prepareEncode alloc value.bytes.length with
  | none => none
  | some (none, m) => some (false, m)
  | some (some buffer, m) =>
      some (true,
        { m with buffer_ := m.buffer_.map fun block => Block.overwrite block buffer value.bytes })

/-- `Decode`: the bytes it copies out, if it does. -/
def decode (m : Message) (type : TypeSize) : Option (List UInt8) × Message :=
  match m.prepareDecode type.size with
  | (none, m) => (none, m)
  | (some buffer, m) => (some ((m.block.drop buffer).take type.size), m)

/-! ## What the calls do -/

/-- The buffer is as long as it is said to be, no longer than `NextOfTwoSize` can make it, and the
read position is inside. -/
structure WellFormed (m : Message) : Prop where
  block_length : m.block.length = m.buffer_length_
  capacity : m.buffer_length_ ≤ 2 ^ 31
  read : m.size_read_ ≤ m.buffer_length_

lemma wellFormed_new : new.WellFormed := ⟨rfl, Nat.zero_le _, le_rfl⟩

lemma WellFormed.length_of_null {m : Message} (wf : m.WellFormed) (h : m.buffer_ = none) :
    m.buffer_length_ = 0 := by
  rw [← wf.block_length, block, h]
  rfl

/-- `Resize` is reached with a size it accepts: there is no buffer, or the new one is larger. -/
def Grows (m : Message) (size : ℕ) : Prop :=
  m.buffer_ = none ∨ m.buffer_length_ < blockSize (m.buffer_length_ + size)

instance (m : Message) (size : ℕ) : Decidable (m.Grows size) :=
  inferInstanceAs (Decidable (_ ∨ _))

/-- The message after a value has been encoded into a buffer that could be had. -/
def encoded (m : Message) (fresh : ℕ → UInt8) (value : Value) : Message :=
  let size := blockSize (m.buffer_length_ + value.bytes.length)
  { buffer_ := some
      (Block.overwrite (Block.grow fresh size m.block) m.data_length_ value.bytes)
    buffer_length_ := size
    data_length_ := (m.data_length_ + value.bytes.length) % 2 ^ 64
    size_read_ := m.size_read_ }

lemma resize_eq {m : Message} (wf : m.WellFormed) (alloc : Allocation) (size : ℕ) :
    m.resize alloc size =
      if m.buffer_ = none ∨ m.buffer_length_ < size then
        match alloc with
        | none => some (false, m)
        | some fresh =>
            some (true,
              { m with buffer_ := some (Block.grow fresh size m.block), buffer_length_ := size })
      else none := by
  unfold resize block
  cases hbuffer : m.buffer_ with
  | none =>
      rw [if_pos (wf.length_of_null hbuffer), if_pos (Or.inl rfl)]
      rfl
  | some block =>
      simp only [gt_iff_lt, reduceCtorEq, false_or, Option.getD_some]

/-- **What `Encode` does.**  It always grows the buffer: it ends the process when `Resize` does not
accept the new size, and otherwise succeeds when the allocation does. -/
theorem encode_eq {m : Message} (wf : m.WellFormed) (alloc : Allocation) (value : Value) :
    m.encode alloc value =
      if m.Grows value.bytes.length then
        match alloc with
        | none => some (false, m)
        | some fresh => some (true, m.encoded fresh value)
      else none := by
  have hpos := value.pos
  have hlt := value.lt
  have hcap := wf.capacity
  have hmod : (m.buffer_length_ + value.bytes.length) % 2 ^ 64
      = m.buffer_length_ + value.bytes.length := Nat.mod_eq_of_lt (by omega)
  have hreserve : m.reserve alloc (m.buffer_length_ + value.bytes.length)
      = m.resize alloc (blockSize (m.buffer_length_ + value.bytes.length)) :=
    if_neg (by omega)
  rw [encode, prepareEncode, hmod, hreserve, resize_eq wf]
  by_cases hor : m.buffer_ = none ∨
      m.buffer_length_ < blockSize (m.buffer_length_ + value.bytes.length)
  · rw [if_pos hor, if_pos (show m.Grows _ from hor)]
    cases alloc with
    | none => rfl
    | some fresh => rfl
  · rw [if_neg hor, if_neg (show ¬ m.Grows _ from hor)]

/-- **What `Decode` does.**  It asks whether the value is in the buffer. -/
theorem decode_eq {m : Message} (wf : m.WellFormed) (type : TypeSize) :
    m.decode type =
      if m.size_read_ + type.size ≤ m.buffer_length_ then
        (some ((m.block.drop m.size_read_).take type.size),
          { m with size_read_ := m.size_read_ + type.size })
      else (none, m) := by
  have hpos := type.pos
  have hlt := type.lt
  have hcap := wf.capacity
  have hread := wf.read
  have hmod : (m.size_read_ + type.size) % 2 ^ 64 = m.size_read_ + type.size :=
    Nat.mod_eq_of_lt (by omega)
  rw [decode, prepareDecode, Nat.add_comm type.size, hmod]
  by_cases hfit : m.size_read_ + type.size ≤ m.buffer_length_
  · rw [if_neg (not_lt.mpr hfit), if_pos hfit]
    cases hbuffer : m.buffer_ with
    | none =>
        have := wf.length_of_null hbuffer
        omega
    | some block =>
        simp [Message.block, hbuffer]
  · rw [if_pos (not_le.mp hfit), if_neg hfit]

/-- An `Encode` that goes through although its value and the buffer are together more than
`2 ^ 31` bytes. -/
def Overcommits (m : Message) (alloc : Allocation) (value : Value) : Prop :=
  2 ^ 31 < m.buffer_length_ + value.bytes.length ∧ alloc.isSome ∧ m.Grows value.bytes.length

lemma encoded_wellFormed {m : Message} (wf : m.WellFormed) {value : Value}
    (hgrows : m.Grows value.bytes.length) (fresh : ℕ → UInt8) :
    (m.encoded fresh value).WellFormed where
  block_length := by
    show (Block.overwrite _ _ _).length = _
    rw [Block.length_overwrite, Block.length_grow]
    rfl
  capacity := nextOfTwoSize_le _
  read := by
    show m.size_read_ ≤ blockSize _
    have hread := wf.read
    rcases hgrows with hnull | hlt
    · have := wf.length_of_null hnull
      omega
    · omega

lemma decode_wellFormed {m : Message} (wf : m.WellFormed) (type : TypeSize) :
    (m.decode type).2.WellFormed := by
  rw [decode_eq wf]
  split
  · next hfit => exact ⟨wf.block_length, wf.capacity, hfit⟩
  · exact wf

/-- Up to `2 ^ 31` bytes the new buffer has room for the old one and the value. -/
lemma room_of_not_overcommits {m : Message} {fresh : ℕ → UInt8} {value : Value}
    (hgrows : m.Grows value.bytes.length) (h : ¬ m.Overcommits (some fresh) value) :
    m.buffer_length_ + value.bytes.length ≤ (m.encoded fresh value).buffer_length_ := by
  have hle : m.buffer_length_ + value.bytes.length ≤ 2 ^ 31 := by
    by_contra hgt
    exact h ⟨not_le.mp hgt, rfl, hgrows⟩
  show _ ≤ blockSize _
  rw [blockSize_eq hle]
  exact Nat.le_pow_clog Nat.one_lt_two _

/-- Above, it has not even room for the value. -/
lemma Overcommits.no_room {m : Message} (wf : m.WellFormed) {fresh : ℕ → UInt8} {value : Value}
    (h : m.Overcommits (some fresh) value) :
    (m.encoded fresh value).buffer_length_ < value.bytes.length :=
  blockSize_lt wf.capacity h.1 (h.2.2.imp wf.length_of_null id)

lemma encoded_data_length {m : Message} (wf : m.WellFormed)
    (hdata : m.data_length_ ≤ m.buffer_length_) (fresh : ℕ → UInt8) (value : Value) :
    (m.encoded fresh value).data_length_ = m.data_length_ + value.bytes.length := by
  have hcap := wf.capacity
  have hlt := value.lt
  exact Nat.mod_eq_of_lt (by omega)

end Message

end FFNetwork
