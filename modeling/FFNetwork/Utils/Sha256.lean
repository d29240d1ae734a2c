import FFNetwork.Lib.Block

/-!
# sha256

`source/utils/sha256.{h,cpp}`: the digest of a string as 64 hexadecimal digits.  The lengths are
32-bit numbers, as in the source, so that a string of `2 ^ 32` bytes or more loses its front part's
count.

* `SHA256.update`, `SHA256.final` — the two halves of a digest.
* `sha256` — the function that requests are hashed with; `sha256_isHex`.
-/

namespace FFNetwork

/-! ## Words -/

/-- The macro `SHA2_SHFR`: a shift to the right. -/
def SHA2_SHFR (x n : UInt32) : UInt32 := x >>> n

/-- The macro `SHA2_ROTR`: a rotation to the right. -/
def SHA2_ROTR (x n : UInt32) : UInt32 := (x >>> n) ||| (x <<< (32 - n))

/-- The macro `SHA2_CH`. -/
def SHA2_CH (x y z : UInt32) : UInt32 := (x &&& y) ^^^ (~~~x &&& z)

/-- The macro `SHA2_MAJ`. -/
def SHA2_MAJ (x y z : UInt32) : UInt32 := (x &&& y) ^^^ (x &&& z) ^^^ (y &&& z)

/-- The macros `SHA256_F1` and `SHA256_F2`, for the rounds. -/
def SHA256_F1 (x : UInt32) : UInt32 := SHA2_ROTR x 2 ^^^ SHA2_ROTR x 13 ^^^ SHA2_ROTR x 22

@[inherit_doc SHA256_F1]
def SHA256_F2 (x : UInt32) : UInt32 := SHA2_ROTR x 6 ^^^ SHA2_ROTR x 11 ^^^ SHA2_ROTR x 25

/-- The macros `SHA256_F3` and `SHA256_F4`, for the schedule. -/
def SHA256_F3 (x : UInt32) : UInt32 := SHA2_ROTR x 7 ^^^ SHA2_ROTR x 18 ^^^ SHA2_SHFR x 3

@[inherit_doc SHA256_F3]
def SHA256_F4 (x : UInt32) : UInt32 := SHA2_ROTR x 17 ^^^ SHA2_ROTR x 19 ^^^ SHA2_SHFR x 10

/-- The bytes of a word, the highest first. -/
def SHA2_UNPACK32 (x : UInt32) : List UInt8 :=
  [(x >>> 24).toUInt8, (x >>> 16).toUInt8, (x >>> 8).toUInt8, x.toUInt8]

/-- The macro `SHA2_PACK32`: a word from the first four bytes, the highest of them first. -/
def SHA2_PACK32 (str : List UInt8) : UInt32 :=
  (str.getD 3 0).toUInt32 ||| ((str.getD 2 0).toUInt32 <<< 8) |||
    ((str.getD 1 0).toUInt32 <<< 16) ||| ((str.getD 0 0).toUInt32 <<< 24)

/-- The table `sha256_k`. -/
def sha256_k : List UInt32 :=
  [0x428a2f98, 0x71374491, 0xb5c0fbcf, 0xe9b5dba5, 0x3956c25b, 0x59f111f1,
   0x923f82a4, 0xab1c5ed5, 0xd807aa98, 0x12835b01, 0x243185be, 0x550c7dc3,
   0x72be5d74, 0x80deb1fe, 0x9bdc06a7, 0xc19bf174, 0xe49b69c1, 0xefbe4786,
   0x0fc19dc6, 0x240ca1cc, 0x2de92c6f, 0x4a7484aa, 0x5cb0a9dc, 0x76f988da,
   0x983e5152, 0xa831c66d, 0xb00327c8, 0xbf597fc7, 0xc6e00bf3, 0xd5a79147,
   0x06ca6351, 0x14292967, 0x27b70a85, 0x2e1b2138, 0x4d2c6dfc, 0x53380d13,
   0x650a7354, 0x766a0abb, 0x81c2c92e, 0x92722c85, 0xa2bfe8a1, 0xa81a664b,
   0xc24b8b70, 0xc76c51a3, 0xd192e819, 0xd6990624, 0xf40e3585, 0x106aa070,
   0x19a4c116, 0x1e376c08, 0x2748774c, 0x34b0bcb5, 0x391c0cb3, 0x4ed8aa4a,
   0x5b9cca4f, 0x682e6ff3, 0x748f82ee, 0x78a5636f, 0x84c87814, 0x8cc70208,
   0x90befffa, 0xa4506ceb, 0xbef9a3f7, 0xc67178f2]

/-- The bytes of a block. -/
def SHA224_256_BLOCK_SIZE : UInt32 := 64

/-- The bytes of a digest. -/
def DIGEST_SIZE : ℕ := 32

/-! ## The compression of blocks -/

/-- Eight words: the array `m_h` and its working copy `wv`. -/
structure EightWords where
  w0 : UInt32
  w1 : UInt32
  w2 : UInt32
  w3 : UInt32
  w4 : UInt32
  w5 : UInt32
  w6 : UInt32
  w7 : UInt32
deriving DecidableEq, Repr

namespace EightWords

/-- The words in order. -/
def toList (v : EightWords) : List UInt32 := [v.w0, v.w1, v.w2, v.w3, v.w4, v.w5, v.w6, v.w7]

/-- `m_h[j] += wv[j]`, for all of them. -/
def add (m_h wv : EightWords) : EightWords :=
  ⟨m_h.w0 + wv.w0, m_h.w1 + wv.w1, m_h.w2 + wv.w2, m_h.w3 + wv.w3, m_h.w4 + wv.w4, m_h.w5 + wv.w5,
    m_h.w6 + wv.w6, m_h.w7 + wv.w7⟩

/-- One of the 64 rounds, with its `sha256_k[j]` and `w[j]`. -/
def round (wv : EightWords) (kw : UInt32 × UInt32) : EightWords :=
  let t1 := wv.w7 + SHA256_F2 wv.w4 + SHA2_CH wv.w4 wv.w5 wv.w6 + kw.1 + kw.2
  let t2 := SHA256_F1 wv.w0 + SHA2_MAJ wv.w0 wv.w1 wv.w2
  ⟨t1 + t2, wv.w0, wv.w1, wv.w2, wv.w3 + t1, wv.w4, wv.w5, wv.w6⟩

end EightWords

/-- The first 16 entries of `w`, from the bytes of a block. -/
def packBlock : ℕ → List UInt8 → List UInt32
  | 0, _ => []
  | n + 1, sub_block => SHA2_PACK32 sub_block :: packBlock n (sub_block.drop 4)

/-- The rest of `w`, one entry a round. -/
def extendBlock : ℕ → List UInt32 → List UInt32
  | 0, w => w
  | n + 1, w =>
      let j := w.length
      extendBlock n (w ++ [SHA256_F4 (w.getD (j - 2) 0) + w.getD (j - 7) 0 +
        SHA256_F3 (w.getD (j - 15) 0) + w.getD (j - 16) 0])

/-- `SHA256::transform`, for a number of blocks at the front of the message.  Its `int` offset
`i << 6` overflows from `2 ^ 31` bytes on, which is left out here. -/
def transform (m_h : EightWords) : ℕ → List UInt8 → EightWords
  | 0, _ => m_h
  | block_nb + 1, message =>
      let w := extendBlock 48 (packBlock 16 message)
      transform (m_h.add ((sha256_k.zip w).foldl EightWords.round m_h)) block_nb (message.drop 64)

/-! ## A digest -/

/-- A `SHA256`: how many bytes have been hashed, how many wait in `m_block`, and the words. -/
structure SHA256 where
  m_tot_len : UInt32
  m_len : UInt32
  m_block : List UInt8
  m_h : EightWords

namespace SHA256

/-- `SHA256()` followed by `init`. -/
def init : SHA256 where
  m_tot_len := 0
  m_len := 0
  m_block := List.replicate 128 0
  m_h := ⟨0x6a09e667, 0xbb67ae85, 0x3c6ef372, 0xa54ff53a, 0x510e527f, 0x9b05688c, 0x1f83d9ab,
    0x5be0cd19⟩

/-- `SHA256::update`, for the first `len` bytes of the message. -/
def update (ctx : SHA256) (message : List UInt8) (len : UInt32) : SHA256 :=
  let tmp_len := SHA224_256_BLOCK_SIZE - ctx.m_len
  let rem_len := if len < tmp_len then len else tmp_len
  let m_block := Block.overwrite ctx.m_block ctx.m_len.toNat (message.take rem_len.toNat)
  if ctx.m_len + len < SHA224_256_BLOCK_SIZE then
    { ctx with m_block := m_block, m_len := ctx.m_len + len }
  else
    let new_len := len - rem_len
    let block_nb := new_len / SHA224_256_BLOCK_SIZE
    let shifted_message := message.drop rem_len.toNat
    let m_h := transform (transform ctx.m_h 1 m_block) block_nb.toNat shifted_message
    let rem_len := new_len % SHA224_256_BLOCK_SIZE
    { m_tot_len := ctx.m_tot_len + ((block_nb + 1) <<< 6)
      m_len := rem_len
      m_block := Block.overwrite m_block 0
        ((shifted_message.drop (block_nb <<< 6).toNat).take rem_len.toNat)
      m_h := m_h }

/-- `SHA256::final`: the digest. -/
def final (ctx : SHA256) : List UInt8 :=
  let block_nb : UInt32 :=
    if SHA224_256_BLOCK_SIZE - 9 < ctx.m_len % SHA224_256_BLOCK_SIZE then 2 else 1
  let len_b := (ctx.m_tot_len + ctx.m_len) <<< 3
  let pm_len := block_nb <<< 6
  let m_block := Block.overwrite ctx.m_block ctx.m_len.toNat
    (List.replicate (pm_len - ctx.m_len).toNat 0)
  let m_block := Block.overwrite m_block ctx.m_len.toNat [0x80]
  let m_block := Block.overwrite m_block (pm_len - 4).toNat (SHA2_UNPACK32 len_b)
  (transform ctx.m_h block_nb.toNat m_block).toList.flatMap SHA2_UNPACK32

end SHA256

/-- A digit of `%x`. -/
def hexDigit (n : UInt8) : UInt8 := if n < 10 then '0'.toUInt8 + n else 'a'.toUInt8 + (n - 10)

/-- `sprintf` with `%02x`. -/
def sprintf02x (c : UInt8) : List UInt8 := [hexDigit (c / 16), hexDigit (c % 16)]

/-- `sha256`; the length of the text is cut to an `unsigned int`. -/
def sha256 (input : List UInt8) : List UInt8 :=
  (SHA256.init.update input (UInt32.ofNat input.length)).final.flatMap sprintf02x

/-! ## What a digest looks like -/

/-- The digits `0` to `9` and `a` to `f`. -/
def isHex (c : UInt8) : Bool :=
  ('0'.toUInt8 ≤ c && c ≤ '9'.toUInt8) || ('a'.toUInt8 ≤ c && c ≤ 'f'.toUInt8)

lemma isHex_hexDigit {n : UInt8} (hn : n < 16) : isHex (hexDigit n) = true := by
  have h0 : '0'.toUInt8.toNat = 48 := rfl
  have h9 : '9'.toUInt8.toNat = 57 := rfl
  have ha : 'a'.toUInt8.toNat = 97 := rfl
  have hf : 'f'.toUInt8.toNat = 102 := rfl
  have h10 : (10 : UInt8).toNat = 10 := rfl
  have h16 : (16 : UInt8).toNat = 16 := rfl
  rw [UInt8.lt_iff_toNat_lt] at hn
  simp only [isHex, hexDigit, Bool.or_eq_true, Bool.and_eq_true, decide_eq_true_eq,
    UInt8.le_iff_toNat_le]
  split
  · next hlt =>
      rw [UInt8.lt_iff_toNat_lt] at hlt
      rw [UInt8.toNat_add]
      omega
  · next hge =>
      rw [UInt8.lt_iff_toNat_lt] at hge
      have hsub : (n - 10).toNat = n.toNat - 10 :=
        UInt8.toNat_sub_of_le _ _ (UInt8.le_iff_toNat_le.mpr (by omega))
      rw [UInt8.toNat_add, hsub]
      omega

/-- A digest is a text of 64 lower-case hexadecimal digits. -/
theorem sha256_isHex (input : List UInt8) :
    (sha256 input).length = 2 * DIGEST_SIZE ∧ ∀ c ∈ sha256 input, isHex c = true := by
  refine ⟨rfl, fun c hc => ?_⟩
  obtain ⟨byte, _, hc⟩ := List.mem_flatMap.mp hc
  simp only [sprintf02x, List.mem_cons, List.not_mem_nil, or_false] at hc
  have hbyte := byte.toNat_lt
  rcases hc with rfl | rfl
  · refine isHex_hexDigit ?_
    rw [UInt8.lt_iff_toNat_lt, UInt8.toNat_div]
    show byte.toNat / 16 < 16
    omega
  · refine isHex_hexDigit ?_
    rw [UInt8.lt_iff_toNat_lt, UInt8.toNat_mod]
    exact Nat.mod_lt _ (by decide)

example : sha256 ['a'.toUInt8, 'b'.toUInt8, 'c'.toUInt8] =
    "ba7816bf8f01cfea414140de5dae2223b00361a396177a9cb410ff61f20015ad".toList.map Char.toUInt8 := by
  decide +kernel

end FFNetwork
