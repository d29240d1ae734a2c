import FFNetwork.Base.MessageLoop.Message

/-!
# The space a message takes

`PrepareEncode` reserves room for the value behind the whole buffer, not behind the data, so every
`Encode` makes the buffer grow, also one whose value would have fitted.  Here every allocation
succeeds, and the question is whether a buffer of less than twice the data is enough.

* `Frugal` — it is, after each of the values.
* `Aligned` — the sizes for which growing the buffer comes to the same as growing the data.
* **`frugal_iff_aligned`** — these are the sizes for which it is.
-/

namespace FFNetwork

open BitSmear

namespace Message

/-- The sum of the sizes of the values. -/
def totalSize : List (Value × (ℕ → UInt8)) → ℕ
  | [] => 0
  | (value, _) :: values => value.bytes.length + totalSize values

/-- Every `Encode` of the values returns true, none ends the process, and after each of them the
buffer is shorter than twice the data, and no longer than before if the value fitted in. -/
def Frugal : Message → List (Value × (ℕ → UInt8)) → Prop
  | _, [] => True
  | m, (value, fresh) :: values =>
      ∃ m', m.encode (some fresh) value = some (true, m') ∧
        m'.buffer_length_ < 2 * m'.data_length_ ∧
        (m.data_length_ + value.bytes.length ≤ m.buffer_length_ →
          m'.buffer_length_ = m.buffer_length_) ∧
        Frugal m' values

/-- Behind `length` bytes of data, `NextOfTwoSize` makes the same of the buffer and a value as of
the data and the value, for one value after the other. -/
def Aligned : ℕ → List (Value × (ℕ → UInt8)) → Prop
  | _, [] => True
  | length, (value, _) :: values =>
      (length ≠ 0 → blockSize (blockSize length + value.bytes.length)
        = blockSize (length + value.bytes.length)) ∧
      Aligned (length + value.bytes.length) values

/-- A message whose buffer is as long as `NextOfTwoSize` makes the data; there is none without
data. -/
structure Tight (m : Message) : Prop where
  wf : m.WellFormed
  null : m.data_length_ = 0 → m.buffer_ = none
  buffer : m.data_length_ ≠ 0 → m.buffer_length_ = blockSize m.data_length_

lemma tight_new : new.Tight := ⟨wellFormed_new, fun _ => rfl, fun h => absurd rfl h⟩

/-- The next value has its place: the condition of `Aligned` for one value. -/
def Fits (length : ℕ) (value : Value) : Prop :=
  length ≠ 0 → blockSize (blockSize length + value.bytes.length)
    = blockSize (length + value.bytes.length)

lemma blockSize_bounds {length : ℕ} (hpos : 0 < length) (hle : length ≤ 2 ^ 31) :
    length ≤ blockSize length ∧ blockSize length < 2 * length := by
  rw [blockSize_eq hle]
  exact ⟨Nat.le_pow_clog Nat.one_lt_two length, two_pow_clog_lt hpos⟩

lemma blockSize_overflow {need : ℕ} (h : 2 ^ 31 < need) (hlt : need < 2 ^ 32) :
    blockSize need = 0 := by
  rw [blockSize, nextOfTwoSize_toNat, UInt32.toNat_ofNat', Nat.mod_eq_of_lt hlt,
    if_neg (not_le.mpr h)]

lemma le_of_blockSize_pos {need : ℕ} (hpos : 0 < blockSize need) (hlt : need < 2 ^ 32) :
    need ≤ 2 ^ 31 := by
  by_contra hgt
  have hzero := blockSize_overflow (not_le.mp hgt) hlt
  omega

/-- With data in the message, an `Encode` succeeds and stays below twice the data only if the new
buffer is what `NextOfTwoSize` makes of the new data. -/
lemma fits_of_frugal {length size : ℕ} (hpos : 0 < length) (hle : length + size ≤ 2 ^ 31)
    (hsize : 0 < size) (hgrows : blockSize length < blockSize (blockSize length + size))
    (hsmall : blockSize (blockSize length + size) < 2 * (length + size)) :
    blockSize (blockSize length + size) = blockSize (length + size) := by
  have hold := blockSize_bounds hpos (by omega)
  have hcap := nextOfTwoSize_le (UInt32.ofNat length)
  have hlt : blockSize length + size < 2 ^ 32 := by
    rw [blockSize]
    omega
  have hneed := le_of_blockSize_pos (by omega) hlt
  have hroom := blockSize_bounds (by omega) hneed
  rw [blockSize_eq hneed] at hroom hsmall ⊢
  rw [blockSize_eq hle]
  exact two_pow_clog_unique (by omega) hsmall

/-- Where the new buffer is what `NextOfTwoSize` makes of the new data, the old one had to grow and
had no room for the value. -/
lemma grows_of_fits {length size : ℕ} (hpos : 0 < length) (hle : length + size ≤ 2 ^ 31)
    (hsize : 0 < size)
    (hfits : blockSize (blockSize length + size) = blockSize (length + size)) :
    blockSize length < blockSize (blockSize length + size) ∧ blockSize length < length + size := by
  have hold := blockSize_bounds hpos (by omega)
  have hcap := nextOfTwoSize_le (UInt32.ofNat length)
  have hnew := blockSize_bounds (by omega) hle
  have hlt : blockSize length + size < 2 ^ 32 := by
    rw [blockSize]
    omega
  have hneed := le_of_blockSize_pos (by omega) hlt
  have hroom := blockSize_bounds (by omega) hneed
  refine ⟨by omega, ?_⟩
  by_contra hin
  rw [blockSize_eq (show length ≤ 2 ^ 31 by omega)] at hin hroom hfits
  have hmono := Nat.pow_le_pow_right (n := 2) Nat.two_pos
    ((Nat.clog_le_iff_le_pow Nat.one_lt_two).mpr (not_lt.mp hin))
  rw [← blockSize_eq hle] at hmono
  omega

variable {m : Message} {value : Value}

lemma Tight.data_le (tight : m.Tight) (hle : m.data_length_ ≤ 2 ^ 31) :
    m.data_length_ ≤ m.buffer_length_ := by
  by_cases hzero : m.data_length_ = 0
  · omega
  · rw [tight.buffer hzero]
    exact (blockSize_bounds (by omega) hle).1

/-- One `Encode` of a tight message, with an allocation that succeeds. -/
lemma Tight.encode_iff (tight : m.Tight) (hle : m.data_length_ + value.bytes.length ≤ 2 ^ 31)
    (fresh : ℕ → UInt8) :
    (m.Grows value.bytes.length ∧
      (m.encoded fresh value).buffer_length_ < 2 * (m.encoded fresh value).data_length_ ∧
      (m.data_length_ + value.bytes.length ≤ m.buffer_length_ →
        (m.encoded fresh value).buffer_length_ = m.buffer_length_)) ↔
      Fits m.data_length_ value := by
  have hpos := value.pos
  have hlen := encoded_data_length tight.wf (tight.data_le (by omega)) fresh value
  have hbuffer : (m.encoded fresh value).buffer_length_
      = blockSize (m.buffer_length_ + value.bytes.length) := rfl
  rw [hlen, hbuffer]
  by_cases hzero : m.data_length_ = 0
  · have hnull := tight.null hzero
    have hempty := tight.wf.length_of_null hnull
    have hbounds := blockSize_bounds hpos (by omega)
    refine iff_of_true ⟨Or.inl hnull, ?_, fun h => ?_⟩ fun h => absurd hzero h
    · rw [hempty, hzero, zero_add]
      exact hbounds.2
    · omega
  · have hdata : 0 < m.data_length_ := Nat.pos_of_ne_zero hzero
    have hold := blockSize_bounds hdata (by omega)
    have hsize := tight.buffer hzero
    rw [Grows, hsize]
    constructor
    · rintro ⟨hgrows, hsmall, _⟩ _
      refine fits_of_frugal hdata hle hpos (hgrows.resolve_left fun hnull => ?_) hsmall
      have := tight.wf.length_of_null hnull
      omega
    · intro hfits
      have hfits := hfits hzero
      obtain ⟨hgrows, hroom⟩ := grows_of_fits hdata hle hpos hfits
      have hnew := blockSize_bounds (by omega) hle
      exact ⟨Or.inr hgrows, by omega, fun h => by omega⟩

/-- It leaves a tight message. -/
lemma Tight.encoded (tight : m.Tight) (hle : m.data_length_ + value.bytes.length ≤ 2 ^ 31)
    {fresh : ℕ → UInt8} (hgrows : m.Grows value.bytes.length) (hfits : Fits m.data_length_ value) :
    (m.encoded fresh value).Tight := by
  have hpos := value.pos
  have hlen := encoded_data_length tight.wf (tight.data_le (by omega)) fresh value
  refine ⟨encoded_wellFormed tight.wf hgrows fresh, fun h => by omega, fun _ => ?_⟩
  rw [hlen]
  show blockSize _ = blockSize _
  by_cases hzero : m.data_length_ = 0
  · rw [tight.wf.length_of_null (tight.null hzero), hzero]
  · rw [tight.buffer hzero]
    exact hfits hzero

/-- From a tight message on.  The induction is on the values; where one fits, the message stays
tight. -/
lemma frugal_iff_aligned_from (values : List (Value × (ℕ → UInt8))) (tight : m.Tight)
    (hle : m.data_length_ + totalSize values ≤ 2 ^ 31) :
    m.Frugal values ↔ Aligned m.data_length_ values := by
  induction values generalizing m with
  | nil => exact Iff.rfl
  | cons head values ih =>
      obtain ⟨value, fresh⟩ := head
      rw [totalSize] at hle
      have hlen := encoded_data_length tight.wf (tight.data_le (by omega)) fresh value
      have hroom : m.data_length_ + value.bytes.length ≤ 2 ^ 31 := by omega
      have hiff := tight.encode_iff hroom fresh
      have hrest (hgrows : m.Grows value.bytes.length) (hfits : Fits m.data_length_ value) :
          (m.encoded fresh value).Frugal values ↔
            Aligned (m.data_length_ + value.bytes.length) values := by
        rw [← hlen]
        exact ih (tight.encoded (by omega) hgrows hfits) (by omega)
      rw [Frugal, Aligned]
      constructor
      · rintro ⟨m', henc, hsmall, hin, hnext⟩
        rw [encode_eq tight.wf] at henc
        by_cases hgrows : m.Grows value.bytes.length
        · rw [if_pos hgrows] at henc
          cases henc
          have hfits := hiff.mp ⟨hgrows, hsmall, hin⟩
          exact ⟨hfits, (hrest hgrows hfits).mp hnext⟩
        · rw [if_neg hgrows] at henc
          cases henc
      · rintro ⟨hfits, hnext⟩
        obtain ⟨hgrows, hsmall, hin⟩ := hiff.mpr hfits
        refine ⟨m.encoded fresh value, ?_, hsmall, hin, (hrest hgrows hfits).mpr hnext⟩
        rw [encode_eq tight.wf, if_pos hgrows]

/-- **When a message takes less than twice its data.**  For any values of at most `2 ^ 31` bytes
together, encoded into a fresh message with allocations that succeed: every `Encode` succeeds and
the buffer stays below twice the data, if and only if for each value but the first the old buffer
and the value are rounded up to the same power of two as the old data and the value. -/
theorem frugal_iff_aligned (values : List (Value × (ℕ → UInt8)))
    (hle : totalSize values ≤ 2 ^ 31) : new.Frugal values ↔ Aligned 0 values :=
  frugal_iff_aligned_from values tight_new (by rwa [show new.data_length_ = 0 from rfl, zero_add])

/-- Three bytes and then two, which fill a buffer of four and need one of eight. -/
theorem frugal_three_two :
    new.Frugal [(⟨[1, 2, 3], by decide, by decide⟩, fun _ => 0),
      (⟨[4, 5], by decide, by decide⟩, fun _ => 0)] :=
  (frugal_iff_aligned _ (by decide)).mpr
    ⟨fun h => absurd rfl h, fun _ => by decide, trivial⟩

/-- A single byte. -/
def oneByte : Value := ⟨[0], by decide, by decide⟩

/-- Four single bytes take a buffer of eight. -/
theorem four_bytes_take_eight :
    ¬ ∀ values : List (Value × (ℕ → UInt8)), totalSize values ≤ 2 ^ 31 → new.Frugal values := by
  intro hall
  obtain ⟨m₁, h₁, -, -, m₂, h₂, -, -, m₃, h₃, -, -, m₄, h₄, hsmall, -⟩ :=
    hall (List.replicate 4 (oneByte, fun _ => 0)) (by decide)
  cases h₁
  cases h₂
  cases h₃
  cases h₄
  exact absurd hsmall (by decide)

end Message

end FFNetwork
