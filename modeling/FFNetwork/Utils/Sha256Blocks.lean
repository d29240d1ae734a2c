import FFNetwork.Lib.Fips180
import FFNetwork.Utils.Sha256

/-!
# The digest and the standard

`SHA256::transform` against the compression function of FIPS 180, and `update` and `final` against
the padding of a whole message.  `update` keeps the bytes of an unfinished block in `m_block`, and
counts the others in 32 bits; `final` writes the lowest 32 bits of the length only.

* `transform_value` — `transform` chains the blocks of a message.
* `Taken` — what a `SHA256` holds after a message; `Taken.update`.
* **`sha256_eq_digest`** — the digest is the standard's for messages of fewer than `2 ^ 29` bytes.
* **`update_pieces`** — a message may come in pieces of any lengths.
* **`sha256_eq_iff`** — two short texts have one digest when `transform` merges their blocks.
-/

namespace FFNetwork

open BlockHash Fips180

/-! ## Functions on words -/

lemma SHA2_ROTR_eq {n : UInt32} (hpos : 0 < n.toNat) (hlt : n.toNat < 32) (x : UInt32) :
    SHA2_ROTR x n = rotr n.toNat x := by
  have hn : n.toBitVec.toNat = n.toNat := rfl
  have hsub : (32 - n).toBitVec.toNat = 32 - n.toNat :=
    UInt32.toNat_sub_of_le 32 n (UInt32.le_iff_toNat_le.mpr hlt.le)
  have h32 : BitVec.toNat (32 : BitVec 32) = 32 := rfl
  refine UInt32.toBitVec_inj.mp ?_
  rw [SHA2_ROTR, rotr, UInt32.toBitVec_or, UInt32.toBitVec_shiftRight, UInt32.toBitVec_shiftLeft,
    BitVec.rotateRight_def, BitVec.shiftLeft_eq', BitVec.ushiftRight_eq', BitVec.toNat_umod,
    BitVec.toNat_umod, hn, hsub, h32, Nat.mod_eq_of_lt hlt, Nat.mod_eq_of_lt (by omega)]

lemma SHA256_F1_eq (x : UInt32) : SHA256_F1 x = bigSigma0 x := by
  rw [SHA256_F1, SHA2_ROTR_eq (by decide) (by decide), SHA2_ROTR_eq (by decide) (by decide),
    SHA2_ROTR_eq (by decide) (by decide)]
  rfl

lemma SHA256_F2_eq (x : UInt32) : SHA256_F2 x = bigSigma1 x := by
  rw [SHA256_F2, SHA2_ROTR_eq (by decide) (by decide), SHA2_ROTR_eq (by decide) (by decide),
    SHA2_ROTR_eq (by decide) (by decide)]
  rfl

lemma SHA256_F3_eq (x : UInt32) : SHA256_F3 x = smallSigma0 x := by
  rw [SHA256_F3, SHA2_ROTR_eq (by decide) (by decide), SHA2_ROTR_eq (by decide) (by decide)]
  rfl

lemma SHA256_F4_eq (x : UInt32) : SHA256_F4 x = smallSigma1 x := by
  rw [SHA256_F4, SHA2_ROTR_eq (by decide) (by decide), SHA2_ROTR_eq (by decide) (by decide)]
  rfl

lemma sha256_k_eq : sha256_k = (List.range 64).map constant := by decide +kernel

/-! ## The compression of a block -/

/-- The words as the standard numbers them. -/
def EightWords.value (v : EightWords) : HashValue :=
  ![v.w0, v.w1, v.w2, v.w3, v.w4, v.w5, v.w6, v.w7]

lemma EightWords.value_injective : Function.Injective EightWords.value := by
  intro v v' heq
  have hlist := congrArg List.ofFn heq
  cases v
  cases v'
  simpa [EightWords.value, and_assoc] using hlist

lemma init_value : SHA256.init.m_h.value = initial :=
  List.ofFn_injective (by decide +kernel)

lemma round_value (v : EightWords) (k w : UInt32) :
    (v.round (k, w)).value = Fips180.round v.value k w := by
  rw [EightWords.round, SHA256_F1_eq, SHA256_F2_eq]
  rfl

lemma add_value (v v' : EightWords) : (v.add v').value = v.value + v'.value :=
  List.ofFn_injective rfl

/-- A byte shifted behind the bits of a number. -/
lemma toNat_or_shiftLeft {x i : UInt32} (hi : i.toNat ≤ 24) (hx : x.toNat < 2 ^ i.toNat)
    (byte : UInt8) :
    (x ||| byte.toUInt32 <<< i).toNat = byte.toNat * 2 ^ i.toNat + x.toNat := by
  have hbyte := byte.toNat_lt
  have hpow : 2 ^ i.toNat ≤ 2 ^ 24 := Nat.pow_le_pow_right Nat.two_pos hi
  have hfit : byte.toNat * 2 ^ i.toNat < 2 ^ 32 :=
    lt_of_le_of_lt (Nat.mul_le_mul (Nat.le_of_lt_succ hbyte) hpow) (by decide)
  rw [UInt32.toNat_or, UInt32.toNat_shiftLeft, UInt8.toNat_toUInt32,
    Nat.mod_eq_of_lt (show i.toNat < 32 by omega), Nat.shiftLeft_eq, Nat.mod_eq_of_lt hfit,
    ← Nat.shiftLeft_eq, Nat.or_comm, ← Nat.shiftLeft_add_eq_or_of_lt hx]

lemma SHA2_PACK32_eq {str : List UInt8} (hlength : 4 ≤ str.length) :
    SHA2_PACK32 str = UInt32.ofNat (ofBigEndian (str.take 4)) := by
  obtain ⟨a, b, c, d, rest, rfl⟩ : ∃ a b c d rest, str = a :: b :: c :: d :: rest := by
    match str, hlength with
    | a :: b :: c :: d :: rest, _ => exact ⟨a, b, c, d, rest, rfl⟩
  have ha := a.toNat_lt
  have hb := b.toNat_lt
  have hc := c.toNat_lt
  have hd := d.toNat_lt
  have h8 : UInt32.toNat 8 = 8 := rfl
  have h16 : UInt32.toNat 16 = 16 := rfl
  have h24 : UInt32.toNat 24 = 24 := rfl
  have h1 : d.toUInt32.toNat = d.toNat := UInt8.toNat_toUInt32 d
  have h2 := toNat_or_shiftLeft (i := 8) (by decide) (by rw [h1, h8]; exact hd) c
  rw [h8, h1] at h2
  have h3 := toNat_or_shiftLeft (i := 16) (by decide) (by rw [h2, h16]; omega) b
  rw [h16, h2] at h3
  have h4 := toNat_or_shiftLeft (i := 24) (by decide) (by rw [h3, h24]; omega) a
  rw [h24, h3] at h4
  refine UInt32.toNat_inj.mp (h4.trans ?_)
  simp only [ofBigEndian, List.take_succ_cons, List.take_zero, List.foldl_cons, List.foldl_nil,
    UInt32.toNat_ofNat']
  omega

lemma packBlock_eq {n : ℕ} {block : List UInt8} (hlength : 4 * n ≤ block.length) :
    packBlock n block = (List.range n).map (word block) := by
  induction n generalizing block with
  | zero => rfl
  | succ n ih =>
      have hword : ∀ t, word (block.drop 4) t = word block (t + 1) := by
        intro t
        rw [word, word, List.drop_drop, Nat.mul_add_one, Nat.add_comm 4]
      rw [packBlock, SHA2_PACK32_eq (by omega), ih (by rw [List.length_drop]; omega),
        List.range_succ_eq_map, List.map_cons, List.map_map]
      refine congrArg₂ _ rfl (List.map_congr_left fun t _ => ?_)
      exact hword t

/-- The array `w` is filled as the schedule says. -/
lemma extendBlock_eq (block : List UInt8) (n : ℕ) {j : ℕ} (hj : 16 ≤ j) :
    extendBlock n ((List.range j).map (schedule block))
      = (List.range (j + n)).map (schedule block) := by
  induction n generalizing j with
  | zero => rfl
  | succ n ih =>
      have hget : ∀ i < j, ((List.range j).map (schedule block)).getD i 0 = schedule block i := by
        intro i hi
        rw [List.getD_eq_getElem?_getD, List.getElem?_map, List.getElem?_range hi]
        rfl
      rw [extendBlock, List.length_map, List.length_range]
      simp only [hget _ (show j - 2 < j by omega), hget _ (show j - 7 < j by omega),
        hget _ (show j - 15 < j by omega), hget _ (show j - 16 < j by omega), SHA256_F3_eq,
        SHA256_F4_eq, ← schedule_of_le hj]
      rw [← List.map_singleton, ← List.map_append, ← List.range_succ, ih (by omega)]
      congr 2
      omega

lemma word_take {block : List UInt8} {t : ℕ} (ht : t < 16) :
    word (block.take 64) t = word block t := by
  rw [word, word, List.drop_take, List.take_take, Nat.min_eq_left (by omega)]

lemma schedule_take {block : List UInt8} (t : ℕ) :
    schedule (block.take 64) t = schedule block t := by
  induction t using Nat.strong_induction_on with
  | _ t ih =>
      by_cases ht : t < 16
      · rw [schedule_of_lt ht, schedule_of_lt ht, word_take ht]
      · rw [schedule_of_le (not_lt.mp ht), schedule_of_le (not_lt.mp ht), ih (t - 2) (by omega),
          ih (t - 7) (by omega), ih (t - 15) (by omega), ih (t - 16) (by omega)]

/-- **One block.** -/
theorem transform_one_value (m_h : EightWords) {message : List UInt8}
    (hlength : 64 ≤ message.length) :
    (transform m_h 1 message).value = compress m_h.value (message.take 64) := by
  have hwords : packBlock 16 message = (List.range 16).map (schedule message) := by
    rw [packBlock_eq hlength]
    refine List.map_congr_left fun t ht => ?_
    rw [schedule_of_lt (List.mem_range.mp ht)]
  have hrounds : ∀ (ts : List ℕ) (wv : EightWords),
      (((ts.map fun t => (constant t, schedule message t)).foldl EightWords.round wv).value
        = ts.foldl (fun v t => Fips180.round v (constant t) (schedule message t)) wv.value) := by
    intro ts
    induction ts with
    | nil => exact fun wv => rfl
    | cons t ts ih =>
        intro wv
        rw [List.map_cons, List.foldl_cons, List.foldl_cons, ih, round_value]
  rw [transform, transform, hwords, extendBlock_eq message 48 (le_refl 16), sha256_k_eq,
    List.zip_map', add_value, hrounds, compress]
  simp only [schedule_take]

lemma transform_succ (m_h : EightWords) (n : ℕ) (message : List UInt8) :
    transform m_h (n + 1) message = transform (transform m_h 1 message) n (message.drop 64) := by
  simp only [transform]

/-- **`transform`.**  It chains blocks as the standard does. -/
theorem transform_value (m_h : EightWords) {n : ℕ} {message : List UInt8}
    (hlength : n * 64 ≤ message.length) :
    (transform m_h n message).value = chain compress 64 m_h.value n message := by
  induction n generalizing m_h message with
  | zero => rfl
  | succ n ih =>
      have hblock : 64 ≤ message.length := by omega
      have hone := transform_one_value m_h hblock
      rw [chain, ← hone, transform_succ, ih _ (by rw [List.length_drop]; omega)]

/-! ## Words as bytes -/

lemma SHA2_UNPACK32_eq (x : UInt32) : SHA2_UNPACK32 x = wordBytes x := by
  have hbyte : ∀ n : UInt32, n.toNat < 32 →
      (x >>> n).toUInt8 = UInt8.ofNat (x.toNat / 2 ^ n.toNat) := by
    intro n hn
    refine UInt8.toNat_inj.mp ?_
    rw [UInt32.toNat_toUInt8, UInt32.toNat_shiftRight, Nat.mod_eq_of_lt hn,
      Nat.shiftRight_eq_div_pow, UInt8.toNat_ofNat']
  have hlast : x.toUInt8 = UInt8.ofNat x.toNat := UInt8.toNat_inj.mp (by simp)
  rw [SHA2_UNPACK32, hbyte 24 (by decide), hbyte 16 (by decide), hbyte 8 (by decide), hlast]
  simp only [wordBytes, bigEndian, Nat.div_div_eq_div_mul, List.nil_append, List.cons_append]
  rfl

lemma unpack_toList (v : EightWords) :
    v.toList.flatMap SHA2_UNPACK32 = (List.ofFn v.value).flatMap wordBytes := by
  have hlist : v.toList = List.ofFn v.value := rfl
  rw [hlist]
  exact List.flatMap_congr fun x _ => SHA2_UNPACK32_eq x

/-! ## A message in pieces -/

namespace SHA256

variable {ctx : SHA256} {message piece : List UInt8} {len : UInt32}

/-- What a `SHA256` holds after it has taken in a message. -/
structure Taken (message : List UInt8) (ctx : SHA256) : Prop where
  room : ctx.m_block.length = 128
  m_len : ctx.m_len.toNat = message.length % 64
  m_tot_len : ctx.m_tot_len = UInt32.ofNat (message.length / 64 * 64)
  absorbed : Absorbed compress 64 initial message ctx.m_h.value (ctx.m_block.take ctx.m_len.toNat)

lemma taken_init : Taken [] init where
  room := List.length_replicate
  m_len := rfl
  m_tot_len := rfl
  absorbed := by
    rw [init_value]
    exact absorbed_nil initial

/-- A piece that does not fill the block. -/
lemma Taken.store (tk : Taken message ctx) (hlen : piece.length = len.toNat)
    (hsmall : ctx.m_len.toNat + len.toNat < 64) :
    Taken (message ++ piece) (ctx.update piece len) := by
  have hsum : (ctx.m_len + len).toNat = ctx.m_len.toNat + len.toNat := by
    rw [UInt32.toNat_add, Nat.mod_eq_of_lt (by omega)]
  have htmp : (SHA224_256_BLOCK_SIZE - ctx.m_len).toNat = 64 - ctx.m_len.toNat :=
    UInt32.toNat_sub_of_le _ _ (UInt32.le_iff_toNat_le.mpr (show _ ≤ 64 by omega))
  have hrem : len < SHA224_256_BLOCK_SIZE - ctx.m_len := by
    rw [UInt32.lt_iff_toNat_lt, htmp]
    omega
  have hupdate : ctx.update piece len = { ctx with
      m_block := Block.overwrite ctx.m_block ctx.m_len.toNat piece
      m_len := ctx.m_len + len } := by
    rw [update, if_pos (UInt32.lt_iff_toNat_lt.mpr (by rw [hsum]; exact hsmall)), if_pos hrem,
      ← hlen, List.take_length]
  have hbuffer := tk.absorbed.length_buffer
  have hroom := tk.room
  have hm := tk.m_len
  rw [hupdate]
  refine ⟨by rw [Block.length_overwrite]; exact tk.room, ?_, ?_, ?_⟩
  · show (ctx.m_len + len).toNat = _
    rw [hsum, List.length_append]
    omega
  · show ctx.m_tot_len = _
    rw [tk.m_tot_len, List.length_append]
    congr 1
    omega
  · have happend := tk.absorbed.append (by decide) piece
    have hzero : (ctx.m_block.take ctx.m_len.toNat ++ piece).length / 64 = 0 := by
      rw [List.length_append, hbuffer]
      omega
    rw [hzero, Nat.zero_mul, List.drop_zero] at happend
    have hfits : ctx.m_len.toNat + piece.length ≤ ctx.m_block.length := by omega
    have htake := Block.take_overwrite hfits
    rw [hlen] at htake
    show Absorbed compress 64 initial (message ++ piece) ctx.m_h.value
      ((Block.overwrite ctx.m_block ctx.m_len.toNat piece).take (ctx.m_len + len).toNat)
    rw [hsum, htake]
    exact happend

lemma toNat_shiftLeft_six (x : UInt32) : (x <<< 6).toNat = x.toNat * 64 % 2 ^ 32 := by
  have h6 : UInt32.toNat 6 % 32 = 6 := rfl
  rw [UInt32.toNat_shiftLeft, h6, Nat.shiftLeft_eq]

/-- What `update` computes when the piece fills the block. -/
lemma update_fill (hm : ctx.m_len.toNat < 64) (hfit : ctx.m_len.toNat + len.toNat < 2 ^ 32)
    (hlarge : 64 ≤ ctx.m_len.toNat + len.toNat) :
    let fill := 64 - ctx.m_len.toNat
    let blocks := (len.toNat - fill) / 64
    let rest := (len.toNat - fill) % 64
    let front := Block.overwrite ctx.m_block ctx.m_len.toNat (piece.take fill)
    ctx.update piece len =
      { m_tot_len := ctx.m_tot_len + UInt32.ofNat ((blocks + 1) * 64)
        m_len := UInt32.ofNat rest
        m_block := Block.overwrite front 0 ((piece.drop (fill + blocks * 64)).take rest)
        m_h := transform (transform ctx.m_h 1 front) blocks (piece.drop fill) } := by
  intro fill blocks rest front
  have h64 : SHA224_256_BLOCK_SIZE.toNat = 64 := rfl
  have hsum : (ctx.m_len + len).toNat = ctx.m_len.toNat + len.toNat := by
    rw [UInt32.toNat_add, Nat.mod_eq_of_lt hfit]
  have hfill : (SHA224_256_BLOCK_SIZE - ctx.m_len).toNat = fill :=
    UInt32.toNat_sub_of_le _ _ (UInt32.le_iff_toNat_le.mpr (show _ ≤ 64 by omega))
  have hnot : ¬ ctx.m_len + len < SHA224_256_BLOCK_SIZE := by
    rw [UInt32.lt_iff_toNat_lt, hsum, h64]
    omega
  have hrem : ¬ len < SHA224_256_BLOCK_SIZE - ctx.m_len := by
    rw [UInt32.lt_iff_toNat_lt, hfill]
    omega
  have hnew : (len - (SHA224_256_BLOCK_SIZE - ctx.m_len)).toNat = len.toNat - fill := by
    rw [UInt32.toNat_sub_of_le _ _ (UInt32.le_iff_toNat_le.mpr (by rw [hfill]; omega)), hfill]
  have hblocks : ((len - (SHA224_256_BLOCK_SIZE - ctx.m_len)) / SHA224_256_BLOCK_SIZE).toNat
      = blocks := by
    rw [UInt32.toNat_div, hnew, h64]
  have hrest' : (UInt32.ofNat rest).toNat = rest := by
    rw [UInt32.toNat_ofNat']
    exact Nat.mod_eq_of_lt (by omega)
  have hrest : (len - (SHA224_256_BLOCK_SIZE - ctx.m_len)) % SHA224_256_BLOCK_SIZE
      = UInt32.ofNat rest := by
    refine UInt32.toNat_inj.mp ?_
    rw [UInt32.toNat_mod, hnew, h64, hrest']
  have hshift : (((len - (SHA224_256_BLOCK_SIZE - ctx.m_len)) / SHA224_256_BLOCK_SIZE) <<< 6).toNat
      = blocks * 64 := by
    rw [toNat_shiftLeft_six, hblocks, Nat.mod_eq_of_lt (by omega)]
  have htotal : ((len - (SHA224_256_BLOCK_SIZE - ctx.m_len)) / SHA224_256_BLOCK_SIZE + 1) <<< 6
      = UInt32.ofNat ((blocks + 1) * 64) := by
    refine UInt32.toNat_inj.mp ?_
    rw [toNat_shiftLeft_six, UInt32.toNat_add, hblocks, UInt32.toNat_ofNat']
    show (blocks + 1) % 2 ^ 32 * 64 % 2 ^ 32 = _
    omega
  rw [update, if_neg hnot, if_neg hrem]
  simp only [hfill, hblocks, hshift, htotal, hrest, hrest', List.drop_drop]
  rfl

/-- A piece that fills the block: its first bytes complete the block, then come the whole blocks of
the piece, and its last bytes go into the block again. -/
lemma Taken.fill (tk : Taken message ctx) (hlen : piece.length = len.toNat)
    (hfit : ctx.m_len.toNat + len.toNat < 2 ^ 32) (hlarge : 64 ≤ ctx.m_len.toNat + len.toNat) :
    Taken (message ++ piece) (ctx.update piece len) := by
  have hm := tk.m_len
  have hroom := tk.room
  have hlen32 := len.toNat_lt
  have hm64 : ctx.m_len.toNat < 64 := by omega
  have hfill : (piece.take (64 - ctx.m_len.toNat)).length = 64 - ctx.m_len.toNat := by
    rw [List.length_take]
    omega
  have hbuffer : (ctx.m_block.take ctx.m_len.toNat).length = ctx.m_len.toNat := by
    rw [List.length_take]
    omega
  have hblocks : (ctx.m_block.take ctx.m_len.toNat ++ piece).length / 64
      = 1 + (len.toNat - (64 - ctx.m_len.toNat)) / 64 := by
    rw [List.length_append, hbuffer]
    omega
  have hdrop : ∀ n, (ctx.m_block.take ctx.m_len.toNat ++ piece).drop (64 + n)
      = piece.drop (64 - ctx.m_len.toNat + n) := by
    intro n
    rw [List.drop_append, hbuffer, List.drop_eq_nil_of_le (by rw [hbuffer]; omega), List.nil_append]
    congr 1
    omega
  have hfront : (Block.overwrite ctx.m_block ctx.m_len.toNat
      (piece.take (64 - ctx.m_len.toNat))).take 64
        = (ctx.m_block.take ctx.m_len.toNat ++ piece).take 64 := by
    have hfits : ctx.m_len.toNat + (piece.take (64 - ctx.m_len.toNat)).length
        ≤ ctx.m_block.length := by omega
    have htake := Block.take_overwrite hfits
    rw [hfill, Nat.add_sub_cancel' hm64.le] at htake
    rw [htake, List.take_append, hbuffer, List.take_take, Nat.min_eq_right hm64.le]
  have happend := tk.absorbed.append (by decide) piece
  rw [hblocks, chain_add, chain_one, ← hfront, Nat.one_mul, hdrop 0, Nat.add_mul, Nat.one_mul,
    hdrop] at happend
  rw [update_fill hm64 hfit hlarge]
  refine ⟨by simpa using hroom, ?_, ?_, ?_⟩
  · rw [UInt32.toNat_ofNat', List.length_append]
    omega
  · show ctx.m_tot_len + _ = _
    rw [tk.m_tot_len, ← UInt32.ofNat_add, List.length_append]
    congr 1
    omega
  · have hrest : (UInt32.ofNat ((len.toNat - (64 - ctx.m_len.toNat)) % 64)).toNat
        = (len.toNat - (64 - ctx.m_len.toNat)) % 64 := by
      rw [UInt32.toNat_ofNat']
      omega
    have hcells : (piece.drop (64 - ctx.m_len.toNat +
        (len.toNat - (64 - ctx.m_len.toNat)) / 64 * 64)).length
          = (len.toNat - (64 - ctx.m_len.toNat)) % 64 := by
      rw [List.length_drop]
      omega
    rw [transform_value _ (by rw [List.length_drop]; omega), transform_one_value _
      (by rw [Block.length_overwrite]; omega), hrest, List.take_of_length_le hcells.le]
    have hfits : 0 + (piece.drop (64 - ctx.m_len.toNat +
        (len.toNat - (64 - ctx.m_len.toNat)) / 64 * 64)).length ≤ (Block.overwrite ctx.m_block
          ctx.m_len.toNat (piece.take (64 - ctx.m_len.toNat))).length := by
      rw [Block.length_overwrite]
      omega
    have htake := Block.take_overwrite hfits
    rw [Nat.zero_add, hcells, List.take_zero, List.nil_append] at htake
    rw [htake]
    exact happend

/-- `update` takes the piece in, unless the two lengths overflow 32 bits. -/
theorem Taken.update (tk : Taken message ctx) (hlen : piece.length = len.toNat)
    (hfit : ctx.m_len.toNat + len.toNat < 2 ^ 32) :
    Taken (message ++ piece) (ctx.update piece len) := by
  by_cases hsmall : ctx.m_len.toNat + len.toNat < 64
  · exact tk.store hlen hsmall
  · exact tk.fill hlen hfit (not_lt.mp hsmall)

/-! ## The end of a message -/

/-- The padding with the lowest 32 bits of the length. -/
def shortPadded (message : List UInt8) : List UInt8 :=
  opening message ++ (bigEndian 4 0 ++ bigEndian 4 (8 * message.length))

/-- The digest with this padding. -/
def shortDigest (message : List UInt8) : List UInt8 :=
  (List.ofFn (chain compress 64 initial (blocksBefore message + 1) (shortPadded message))).flatMap
    wordBytes

lemma shortDigest_eq (hshort : message.length < 2 ^ 29) : shortDigest message = digest message := by
  have hbytes : bigEndian 8 (8 * message.length)
      = bigEndian 4 0 ++ bigEndian 4 (8 * message.length) := by
    rw [bigEndian_add 4 4, Nat.div_eq_of_lt (show _ < 256 ^ 4 by omega)]
  rw [shortDigest, digest, shortPadded, padded, hbytes]

/-- The last blocks of a message, as `final` puts them together in `m_block`. -/
lemma Taken.lastBlocks (tk : Taken message ctx) {pm_len : ℕ} {bytes : List UInt8}
    (hpm : pm_len = message.length % 64 + zeros message.length + 9) (hle : pm_len ≤ 128)
    (hbytes : bytes.length = 4) :
    (Block.overwrite (Block.overwrite (Block.overwrite ctx.m_block ctx.m_len.toNat
        (List.replicate (pm_len - ctx.m_len.toNat) 0)) ctx.m_len.toNat [0x80]) (pm_len - 4)
        bytes).take pm_len
      = (opening message ++ (bigEndian 4 0 ++ bytes)).drop (message.length / 64 * 64) := by
  have hm := tk.m_len
  have hroom := tk.room
  have hbuffer : (ctx.m_block.take ctx.m_len.toNat).length = ctx.m_len.toNat := by
    rw [List.length_take]
    omega
  have hfits : ctx.m_len.toNat + (List.replicate (pm_len - ctx.m_len.toNat) (0 : UInt8)).length
      ≤ ctx.m_block.length := by
    rw [List.length_replicate]
    omega
  have hcleared := Block.take_overwrite hfits
  rw [List.length_replicate, Nat.add_sub_cancel' (by omega)] at hcleared
  set cleared := Block.overwrite ctx.m_block ctx.m_len.toNat
    (List.replicate (pm_len - ctx.m_len.toNat) 0)
  have hfront : ∀ n ≤ pm_len, cleared.take n = (ctx.m_block.take ctx.m_len.toNat
      ++ List.replicate (pm_len - ctx.m_len.toNat) 0).take n := by
    intro n hn
    rw [← hcleared, List.take_take, Nat.min_eq_left hn]
  have hlength : cleared.length = ctx.m_block.length := Block.length_overwrite ..
  have hfitsOne : ctx.m_len.toNat + [(0x80 : UInt8)].length ≤ pm_len - 4 := by
    rw [List.length_singleton]
    omega
  have hone := Block.take_overwrite_of_le hfitsOne (show pm_len - 4 ≤ cleared.length by omega)
  have hfitsLast : pm_len - 4 + bytes.length
      ≤ (Block.overwrite cleared ctx.m_len.toNat [0x80]).length := by
    rw [Block.length_overwrite]
    omega
  have hlast := Block.take_overwrite hfitsLast
  rw [hbytes, Nat.sub_add_cancel (by omega)] at hlast
  have hzeros : (cleared.take (pm_len - 4)).drop (ctx.m_len.toNat + 1)
      = List.replicate (zeros message.length) 0 ++ bigEndian 4 0 := by
    have hfour : bigEndian 4 0 = List.replicate 4 0 := rfl
    rw [hfront _ (Nat.sub_le pm_len 4), List.drop_take, List.drop_append, hbuffer,
      List.drop_eq_nil_of_le (by omega), List.nil_append, List.drop_replicate, List.take_replicate,
      hfour, List.replicate_append_replicate]
    congr 1
    omega
  have hmessage : (opening message ++ (bigEndian 4 0 ++ bytes)).drop (message.length / 64 * 64)
      = ctx.m_block.take ctx.m_len.toNat ++ ([0x80] ++
        (List.replicate (zeros message.length) 0 ++ (bigEndian 4 0 ++ bytes))) := by
    rw [opening, List.append_assoc, List.drop_append_of_le_length (by omega),
      ← tk.absorbed.buffered]
    rfl
  rw [hmessage, hlast, hone, hfront _ (by omega), List.take_left' hbuffer, List.length_singleton,
    hzeros, List.append_assoc, List.append_assoc, List.append_assoc]

/-- **`final`.**  The digest of what has been taken in. -/
theorem Taken.final (tk : Taken message ctx) : ctx.final = shortDigest message := by
  have hm := tk.m_len
  have hm64 : ctx.m_len.toNat < 64 := by omega
  have hbits : (ctx.m_tot_len + ctx.m_len) <<< 3 = UInt32.ofNat (8 * message.length) := by
    refine UInt32.toNat_inj.mp ?_
    have h3 : UInt32.toNat 3 % 32 = 3 := rfl
    rw [UInt32.toNat_shiftLeft, h3, Nat.shiftLeft_eq, UInt32.toNat_add, tk.m_tot_len,
      UInt32.toNat_ofNat', UInt32.toNat_ofNat', hm]
    omega
  have hbytes : SHA2_UNPACK32 ((ctx.m_tot_len + ctx.m_len) <<< 3)
      = bigEndian 4 (8 * message.length) := by
    rw [hbits, SHA2_UNPACK32_eq, wordBytes, UInt32.toNat_ofNat']
    exact bigEndian_mod 4 _
  obtain ⟨block_nb, hblock_nb, hpm⟩ : ∃ block_nb : UInt32,
      (if SHA224_256_BLOCK_SIZE - 9 < ctx.m_len % SHA224_256_BLOCK_SIZE then 2 else 1) = block_nb ∧
        block_nb.toNat * 64 = message.length % 64 + zeros message.length + 9 := by
    refine ⟨_, rfl, ?_⟩
    have hmod : (ctx.m_len % SHA224_256_BLOCK_SIZE).toNat = message.length % 64 := by
      rw [UInt32.toNat_mod, hm]
      exact Nat.mod_mod _ _
    have h55 : (SHA224_256_BLOCK_SIZE - 9).toNat = 55 := rfl
    split
    · next hlong =>
        rw [UInt32.lt_iff_toNat_lt, hmod, h55] at hlong
        show 2 * 64 = _
        rw [zeros]
        omega
    · next hshort =>
        rw [UInt32.lt_iff_toNat_lt, hmod, h55] at hshort
        show 1 * 64 = _
        rw [zeros]
        omega
  have hblocks : blocksBefore message + 1 = message.length / 64 + block_nb.toNat := by
    rw [blocksBefore]
    rw [zeros] at hpm
    omega
  have hle : block_nb.toNat * 64 ≤ 128 := by
    rw [hpm, zeros]
    omega
  have hshift : (block_nb <<< 6).toNat = block_nb.toNat * 64 := by
    rw [toNat_shiftLeft_six, Nat.mod_eq_of_lt (by omega)]
  have hclear : (block_nb <<< 6 - ctx.m_len).toNat = block_nb.toNat * 64 - ctx.m_len.toNat := by
    rw [UInt32.toNat_sub_of_le _ _ (UInt32.le_iff_toNat_le.mpr (by omega)), hshift]
  have hend : (block_nb <<< 6 - 4).toNat = block_nb.toNat * 64 - 4 := by
    rw [UInt32.toNat_sub_of_le _ _ (UInt32.le_iff_toNat_le.mpr (show 4 ≤ _ by omega)), hshift]
    rfl
  have hlast := tk.lastBlocks hpm hle (length_bigEndian 4 (8 * message.length))
  have hwhole : ∀ rest, chain compress 64 initial (message.length / 64) (message ++ rest)
      = ctx.m_h.value := by
    intro rest
    rw [chain_append initial (by omega), tk.absorbed.chained]
  have hroom : block_nb.toNat * 64 ≤ (Block.overwrite (Block.overwrite (Block.overwrite ctx.m_block
      ctx.m_len.toNat (List.replicate (block_nb.toNat * 64 - ctx.m_len.toNat) 0)) ctx.m_len.toNat
      [0x80]) (block_nb.toNat * 64 - 4) (bigEndian 4 (8 * message.length))).length := by
    rw [Block.length_overwrite, Block.length_overwrite, Block.length_overwrite, tk.room]
    exact hle
  rw [SHA256.final, hblock_nb, hclear, hend, hbytes, unpack_toList, transform_value _ hroom,
    shortDigest, hblocks, chain_add, shortPadded, ← hlast, chain_take _ (le_refl _), opening,
    List.append_assoc, hwhole]

/-- `update` for each of the pieces. -/
def updates (ctx : SHA256) (pieces : List (List UInt8)) : SHA256 :=
  pieces.foldl (fun ctx piece => ctx.update piece (UInt32.ofNat piece.length)) ctx

lemma Taken.updates {pieces : List (List UInt8)} (tk : Taken message ctx)
    (hpieces : ∀ piece ∈ pieces, piece.length < 2 ^ 31) :
    Taken (message ++ pieces.flatten) (ctx.updates pieces) := by
  induction pieces generalizing message ctx with
  | nil => simpa [SHA256.updates] using tk
  | cons piece pieces ih =>
      have hpiece := hpieces piece (List.mem_cons_self ..)
      have hlen : piece.length = (UInt32.ofNat piece.length).toNat := by
        rw [UInt32.toNat_ofNat', Nat.mod_eq_of_lt (by omega)]
      have hm := tk.m_len
      have htaken := tk.update hlen (by omega)
      have hrest := ih htaken fun p hp => hpieces p (List.mem_cons_of_mem _ hp)
      rwa [List.append_assoc] at hrest

/-- **Pieces.**  A message may be given to `update` in any pieces, each shorter than `2 ^ 31` bytes:
the digest is that of the whole message, and the standard's if it has fewer than `2 ^ 29` bytes. -/
theorem update_pieces {pieces : List (List UInt8)}
    (hpieces : ∀ piece ∈ pieces, piece.length < 2 ^ 31) :
    (init.updates pieces).final = shortDigest pieces.flatten ∧
      (pieces.flatten.length < 2 ^ 29 →
        (init.updates pieces).final = digest pieces.flatten) := by
  have hfinal := (taken_init.updates hpieces).final
  rw [List.nil_append] at hfinal
  exact ⟨hfinal, fun hshort => hfinal.trans (shortDigest_eq hshort)⟩

/-- A message in two pieces, the second of which fills a block and another one. -/
theorem update_two_pieces :
    (init.updates [List.replicate 60 1, List.replicate 70 2]).final
      = digest (List.replicate 60 1 ++ List.replicate 70 2) := by
  have hshort : ∀ piece ∈ [List.replicate 60 (1 : UInt8), List.replicate 70 2],
      piece.length < 2 ^ 31 := by decide
  have hdigest := (update_pieces hshort).2 (by simp)
  rwa [List.flatten_cons, List.flatten_cons, List.flatten_nil, List.append_nil] at hdigest

/-- Bytes behind the length are not read. -/
lemma update_append (hm : ctx.m_len.toNat < 64) (hlen : piece.length = len.toNat)
    (hfit : ctx.m_len.toNat + len.toNat < 2 ^ 32) (more : List UInt8) :
    ctx.update (piece ++ more) len = ctx.update piece len := by
  have hlen32 := len.toNat_lt
  have hsum : (ctx.m_len + len).toNat = ctx.m_len.toNat + len.toNat := by
    rw [UInt32.toNat_add, Nat.mod_eq_of_lt hfit]
  have htake : ∀ n ≤ len.toNat, (piece ++ more).take n = piece.take n :=
    fun n hn => List.take_append_of_le_length (by omega)
  by_cases hsmall : ctx.m_len.toNat + len.toNat < 64
  · have hlt : ctx.m_len + len < SHA224_256_BLOCK_SIZE :=
      UInt32.lt_iff_toNat_lt.mpr (by rw [hsum]; exact hsmall)
    have hrem : (if len < SHA224_256_BLOCK_SIZE - ctx.m_len then len
        else SHA224_256_BLOCK_SIZE - ctx.m_len).toNat ≤ len.toNat := by
      split
      · exact le_refl _
      · next hge => exact UInt32.le_iff_toNat_le.mp (UInt32.not_lt.mp hge)
    rw [update, update, if_pos hlt, if_pos hlt, htake _ hrem]
  · have hdrop : ∀ n ≤ len.toNat, (piece ++ more).drop n = piece.drop n ++ more :=
      fun n hn => List.drop_append_of_le_length (by omega)
    have hblocks : ∀ (m_h : EightWords) (n : ℕ) (front : List UInt8), n * 64 ≤ front.length →
        transform m_h n (front ++ more) = transform m_h n front := by
      intro m_h n front hn
      refine EightWords.value_injective ?_
      rw [transform_value _ (by rw [List.length_append]; omega), transform_value _ hn,
        chain_append _ hn]
    rw [update_fill hm hfit (not_lt.mp hsmall), update_fill hm hfit (not_lt.mp hsmall),
      htake _ (by omega), hdrop _ (by omega), hdrop _ (by omega),
      hblocks _ _ _ (by rw [List.length_drop]; omega),
      List.take_append_of_le_length (by rw [List.length_drop]; omega)]

end SHA256

/-! ## `sha256` -/

variable {input text text' : List UInt8}

/-- What `sha256` computes for a text: `update` is given the lowest 32 bits of its length. -/
lemma sha256_eq_shortDigest (input : List UInt8) :
    sha256 input
      = (SHA256.shortDigest (input.take (input.length % 2 ^ 32))).flatMap sprintf02x := by
  have hlen : (input.take (input.length % 2 ^ 32)).length = (UInt32.ofNat input.length).toNat := by
    rw [List.length_take, UInt32.toNat_ofNat']
    exact Nat.min_eq_left (Nat.mod_le _ _)
  have hlt := (UInt32.ofNat input.length).toNat_lt
  have hfit : SHA256.init.m_len.toNat + (UInt32.ofNat input.length).toNat < 2 ^ 32 := by
    show 0 + _ < _
    omega
  have hfinal := (SHA256.taken_init.update hlen hfit).final
  rw [← SHA256.update_append (by decide) hlen hfit (input.drop (input.length % 2 ^ 32)),
    List.take_append_drop, List.nil_append] at hfinal
  rw [sha256, hfinal]

/-- **The digest is the standard's.**  For every text of fewer than `2 ^ 29` bytes, `sha256` writes
the SHA-256 digest of FIPS 180 in hexadecimal digits. -/
theorem sha256_eq_digest (hshort : input.length < 2 ^ 29) :
    sha256 input = (digest input).flatMap sprintf02x := by
  have hlen : input.length % 2 ^ 32 = input.length := Nat.mod_eq_of_lt (by omega)
  rw [sha256_eq_shortDigest, hlen, List.take_length, SHA256.shortDigest_eq hshort]

/-- A text that fills a block and has more bytes. -/
theorem sha256_eq_digest_hundred :
    sha256 (List.replicate 100 97) = (digest (List.replicate 100 97)).flatMap sprintf02x :=
  sha256_eq_digest (by rw [List.length_replicate]; decide)

/-- **A length of 32 bits.**  A multiple of `2 ^ 32` bytes behind a text is not hashed, so that long
texts collide.  The length that `update` is given, the text's modulo `2 ^ 32`, must be below
`2 ^ 31`: from there on the `int` offset `i << 6` of `transform` overflows, and the source says
nothing about the digest. -/
theorem sha256_append_wrap (_htext : text.length % 2 ^ 32 < 2 ^ 31) (more : List UInt8)
    (hmore : more.length % 2 ^ 32 = 0) : sha256 (text ++ more) = sha256 text := by
  have hlen : (text ++ more).length % 2 ^ 32 = text.length % 2 ^ 32 := by
    rw [List.length_append]
    omega
  rw [sha256_eq_shortDigest, sha256_eq_shortDigest text, hlen,
    List.take_append_of_le_length (Nat.mod_le _ _)]

theorem sha256_append_wrap_zeros :
    sha256 ([97, 98, 99] ++ List.replicate (2 ^ 32) 0) = sha256 [97, 98, 99] :=
  sha256_append_wrap (by decide) _ (by rw [List.length_replicate, Nat.mod_self])

lemma hexDigit_injOn {n n' : UInt8} (hn : n.toNat < 16) (hn' : n'.toNat < 16)
    (heq : hexDigit n = hexDigit n') : n = n' := by
  have hall : ∀ i < 16, ∀ j < 16, hexDigit (UInt8.ofNat i) = hexDigit (UInt8.ofNat j) → i = j := by
    decide
  have hnat := hall n.toNat hn n'.toNat hn'
  rw [UInt8.ofNat_toNat, UInt8.ofNat_toNat] at hnat
  exact UInt8.toNat_inj.mp (hnat heq)

lemma sprintf02x_injective {c c' : UInt8} (heq : sprintf02x c = sprintf02x c') : c = c' := by
  have hc := c.toNat_lt
  have hc' := c'.toNat_lt
  have h16 : UInt8.toNat 16 = 16 := rfl
  simp only [sprintf02x, List.cons.injEq, and_true] at heq
  have hdiv := congrArg UInt8.toNat (hexDigit_injOn
    (by rw [UInt8.toNat_div, h16]; omega) (by rw [UInt8.toNat_div, h16]; omega) heq.1)
  have hmod := congrArg UInt8.toNat (hexDigit_injOn
    (by rw [UInt8.toNat_mod, h16]; omega) (by rw [UInt8.toNat_mod, h16]; omega) heq.2)
  rw [UInt8.toNat_div, UInt8.toNat_div, h16] at hdiv
  rw [UInt8.toNat_mod, UInt8.toNat_mod, h16] at hmod
  exact UInt8.toNat_inj.mp (by omega)

/-- The blocks taken one at a time. -/
lemma chain_transform (m_h : EightWords) {n : ℕ} {message : List UInt8}
    (hlength : n * 64 ≤ message.length) :
    chain (fun m_h block => transform m_h 1 block) 64 m_h n message = transform m_h n message := by
  induction n generalizing m_h message with
  | zero => rfl
  | succ n ih =>
      have hblock : transform m_h 1 (message.take 64) = transform m_h 1 message := by
        refine EightWords.value_injective ?_
        rw [transform_one_value _ (by rw [List.length_take]; omega),
          transform_one_value _ (by omega), List.take_take, Nat.min_self]
      rw [chain, hblock, ih _ (by rw [List.length_drop]; omega), ← transform_succ]

lemma sha256_eq_iff_transform (hshort : text.length < 2 ^ 29) (hshort' : text'.length < 2 ^ 29) :
    sha256 text = sha256 text' ↔
      transform SHA256.init.m_h (blocksBefore text + 1) (padded text)
        = transform SHA256.init.m_h (blocksBefore text' + 1) (padded text') := by
  have hdigits : (digest text).flatMap sprintf02x = (digest text').flatMap sprintf02x ↔
      digest text = digest text' := by
    refine ⟨flatMap_inj (n := 2) (fun _ => rfl) (fun _ _ => sprintf02x_injective) ?_, fun h => ?_⟩
    · rw [length_digest, length_digest]
    · rw [h]
  rw [sha256_eq_digest hshort, sha256_eq_digest hshort', hdigits, digest_eq_iff_chain,
    ← EightWords.value_injective.eq_iff, transform_value _ (length_padded text).ge,
    transform_value _ (length_padded text').ge, init_value]

/-- **Collisions.**  Two texts of fewer than `2 ^ 29` bytes have one digest exactly when they are
the same, or `transform` makes one value of two different inputs on the way through their blocks. -/
theorem sha256_eq_iff (hshort : text.length < 2 ^ 29) (hshort' : text'.length < 2 ^ 29) :
    sha256 text = sha256 text' ↔ text = text' ∨ ∃ k,
      MergesAt (fun m_h block => transform m_h 1 block) 64 SHA256.init.m_h
        (blocksBefore text + 1) (padded text) (blocksBefore text' + 1) (padded text') k := by
  rw [sha256_eq_iff_transform hshort hshort', ← chain_transform _ (length_padded text).ge,
    ← chain_transform _ (length_padded text').ge]
  exact padding.chain_eq_iff (by omega) (by omega)

theorem sha256_eq_iff_letters :
    sha256 [97] = sha256 [98] ↔ ([97] : List UInt8) = [98] ∨ ∃ k,
      MergesAt (fun m_h block => transform m_h 1 block) 64 SHA256.init.m_h
        (blocksBefore [97] + 1) (padded [97]) (blocksBefore [98] + 1) (padded [98]) k :=
  sha256_eq_iff (by decide) (by decide)

end FFNetwork
