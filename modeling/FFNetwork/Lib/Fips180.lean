import FFNetwork.Lib.BlockHash
import Mathlib.Algebra.Group.Pi.Basic
import Mathlib.Data.Fin.VecNotation
import Mathlib.Data.List.OfFn
import Mathlib.Data.Nat.NthRoot.Defs
import Mathlib.Data.Nat.Prime.Basic
import Mathlib.Order.Bounds.Defs
import Mathlib.Tactic.NormNum.Prime

/-!
# SHA-256 as FIPS 180 defines it

The standard's functions on words of 32 bits, its message schedule as a recursion, its constants as
the fractional parts of roots of primes, and its padding to whole blocks of 64 bytes.

* `compress`, `padded`, `digest` — the hash of a message of bytes.
* `padding` — the padding is one in the sense of `BlockHash`, for the lengths that the standard
  allows.
* `digest_eq_iff_chain` — two messages have one digest when they end in one chaining value.
-/

namespace Fips180

open BlockHash

/-! ## Functions on words -/

/-- `ROTR`. -/
def rotr (n : ℕ) (x : UInt32) : UInt32 := ⟨x.toBitVec.rotateRight n⟩

/-- `Ch`. -/
def ch (x y z : UInt32) : UInt32 := (x &&& y) ^^^ (~~~x &&& z)

/-- `Maj`. -/
def maj (x y z : UInt32) : UInt32 := (x &&& y) ^^^ (x &&& z) ^^^ (y &&& z)

/-- `Σ₀`, `Σ₁`, `σ₀` and `σ₁`. -/
def bigSigma0 (x : UInt32) : UInt32 := rotr 2 x ^^^ rotr 13 x ^^^ rotr 22 x

@[inherit_doc bigSigma0]
def bigSigma1 (x : UInt32) : UInt32 := rotr 6 x ^^^ rotr 11 x ^^^ rotr 25 x

@[inherit_doc bigSigma0]
def smallSigma0 (x : UInt32) : UInt32 := rotr 7 x ^^^ rotr 18 x ^^^ x >>> 3

@[inherit_doc bigSigma0]
def smallSigma1 (x : UInt32) : UInt32 := rotr 17 x ^^^ rotr 19 x ^^^ x >>> 10

/-! ## Constants -/

/-- The first 64 primes. -/
def primes : List ℕ := (List.range 312).filter fun p => p.Prime

/-- The first 32 bits of the fractional part of a root of `p`. -/
def rootFraction (degree p : ℕ) : UInt32 :=
  UInt32.ofNat (Nat.nthRoot degree (p * 2 ^ (32 * degree)))

/-- The constants of the rounds, from the cube roots of the primes. -/
def constant (t : ℕ) : UInt32 := rootFraction 3 (primes.getD t 0)

/-- The eight words of a hash value. -/
abbrev HashValue := Fin 8 → UInt32

/-- The first hash value, from the square roots of the first eight primes. -/
def initial : HashValue := fun i => rootFraction 2 (primes.getD i 0)

/-! ## Numbers as bytes -/

/-- The lowest `n` bytes of a number, the highest of them first. -/
def bigEndian : ℕ → ℕ → List UInt8
  | 0, _ => []
  | n + 1, x => bigEndian n (x / 256) ++ [UInt8.ofNat x]

/-- The number that the bytes stand for, the highest of them first. -/
def ofBigEndian (bytes : List UInt8) : ℕ := bytes.foldl (fun x byte => 256 * x + byte.toNat) 0

@[simp] lemma length_bigEndian (n x : ℕ) : (bigEndian n x).length = n := by
  induction n generalizing x with
  | zero => rfl
  | succ n ih => rw [bigEndian, List.length_append, ih, List.length_singleton]

lemma ofBigEndian_bigEndian (n x : ℕ) : ofBigEndian (bigEndian n x) = x % 256 ^ n := by
  induction n generalizing x with
  | zero => rw [pow_zero, Nat.mod_one]; rfl
  | succ n ih =>
      have hlast : (UInt8.ofNat x).toNat = x % 256 := UInt8.toNat_ofNat'
      rw [bigEndian, ofBigEndian, List.foldl_append, ← ofBigEndian, ih, List.foldl_cons,
        List.foldl_nil, hlast, pow_succ, mul_comm (256 ^ n), Nat.mod_mul, add_comm]

lemma bigEndian_injOn {n x y : ℕ} (hx : x < 256 ^ n) (hy : y < 256 ^ n)
    (heq : bigEndian n x = bigEndian n y) : x = y := by
  have hval := congrArg ofBigEndian heq
  rwa [ofBigEndian_bigEndian, ofBigEndian_bigEndian, Nat.mod_eq_of_lt hx, Nat.mod_eq_of_lt hy]
    at hval

lemma bigEndian_add (n k x : ℕ) :
    bigEndian (n + k) x = bigEndian n (x / 256 ^ k) ++ bigEndian k x := by
  induction k generalizing x with
  | zero => simp [bigEndian]
  | succ k ih =>
      rw [← Nat.add_assoc, bigEndian, ih, bigEndian, List.append_assoc, Nat.div_div_eq_div_mul,
        pow_succ']

/-- Higher bytes do not matter. -/
lemma bigEndian_mod (n x : ℕ) : bigEndian n (x % 256 ^ n) = bigEndian n x := by
  induction n generalizing x with
  | zero => rfl
  | succ n ih =>
      have hlast : UInt8.ofNat (x % 256 ^ (n + 1)) = UInt8.ofNat x := by
        refine UInt8.toNat_inj.mp ?_
        rw [UInt8.toNat_ofNat', UInt8.toNat_ofNat', pow_succ']
        exact Nat.mod_mod_of_dvd x (Dvd.intro _ rfl)
      rw [bigEndian, bigEndian, hlast, pow_succ', Nat.mod_mul_right_div_self, ih]

/-! ## The compression function -/

/-- The words of a block. -/
def word (block : List UInt8) (t : ℕ) : UInt32 :=
  UInt32.ofNat (ofBigEndian ((block.drop (4 * t)).take 4))

/-- The message schedule `W`. -/
def schedule (block : List UInt8) (t : ℕ) : UInt32 :=
  if t < 16 then word block t
  else
    smallSigma1 (schedule block (t - 2)) + schedule block (t - 7) +
      smallSigma0 (schedule block (t - 15)) + schedule block (t - 16)
termination_by t

lemma schedule_of_lt {block : List UInt8} {t : ℕ} (ht : t < 16) :
    schedule block t = word block t := by
  rw [schedule, if_pos ht]

lemma schedule_of_le {block : List UInt8} {t : ℕ} (ht : 16 ≤ t) :
    schedule block t = smallSigma1 (schedule block (t - 2)) + schedule block (t - 7) +
      smallSigma0 (schedule block (t - 15)) + schedule block (t - 16) := by
  rw [schedule, if_neg (not_lt.mpr ht)]

/-- One round on the working variables `a` to `h`. -/
def round (v : HashValue) (k w : UInt32) : HashValue :=
  let t1 := v 7 + bigSigma1 (v 4) + ch (v 4) (v 5) (v 6) + k + w
  let t2 := bigSigma0 (v 0) + maj (v 0) (v 1) (v 2)
  ![t1 + t2, v 0, v 1, v 2, v 3 + t1, v 4, v 5, v 6]

/-- The hash value after a block. -/
def compress (h : HashValue) (block : List UInt8) : HashValue :=
  h + (List.range 64).foldl (fun v t => round v (constant t) (schedule block t)) h

/-! ## Padding -/

/-- How many zeros stand between the bit 1 and the length. -/
def zeros (length : ℕ) : ℕ := (119 - length % 64) % 64

/-- The message without the last eight bytes of its padding. -/
def opening (message : List UInt8) : List UInt8 :=
  message ++ 0x80 :: List.replicate (zeros message.length) 0

/-- The message with its padding: whole blocks. -/
def padded (message : List UInt8) : List UInt8 :=
  opening message ++ bigEndian 8 (8 * message.length)

/-- The number of whole blocks before the last one. -/
def blocksBefore (message : List UInt8) : ℕ := (message.length + 8) / 64

/-- The bytes of a word in the digest. -/
def wordBytes (w : UInt32) : List UInt8 := bigEndian 4 w.toNat

/-- The digest: the hash value after all blocks of the padded message. -/
def digest (message : List UInt8) : List UInt8 :=
  (List.ofFn (chain compress 64 initial (blocksBefore message + 1) (padded message))).flatMap
    wordBytes

/-- It is the smallest number that makes the message, the bit 1, the zeros and the length fill
whole blocks. -/
lemma isLeast_zeros (length : ℕ) : IsLeast {k | (length + 1 + k + 8) % 64 = 0} (zeros length) := by
  constructor
  · show (length + 1 + zeros length + 8) % 64 = 0
    rw [zeros]
    omega
  · intro k hk
    have hk : (length + 1 + k + 8) % 64 = 0 := hk
    rw [zeros]
    omega

variable {message message' : List UInt8}

lemma length_opening (message : List UInt8) :
    (opening message).length = blocksBefore message * 64 + 56 := by
  rw [opening, List.length_append, List.length_cons, List.length_replicate, zeros, blocksBefore]
  omega

lemma length_padded (message : List UInt8) :
    (padded message).length = (blocksBefore message + 1) * 64 := by
  rw [padded, List.length_append, length_opening, length_bigEndian]
  omega

/-- The last block ends with the length. -/
lemma lastBlock_padded (message : List UInt8) :
    ((padded message).drop (blocksBefore message * 64)).drop 56
      = bigEndian 8 (8 * message.length) := by
  rw [List.drop_drop, ← length_opening, padded, List.drop_left]

lemma length_eq_of_lastBlock (hshort : message.length < 2 ^ 61) (hshort' : message'.length < 2 ^ 61)
    (hlast : (padded message).drop (blocksBefore message * 64)
      = (padded message').drop (blocksBefore message' * 64)) :
    message.length = message'.length := by
  have hbytes := congrArg (List.drop 56) hlast
  rw [lastBlock_padded, lastBlock_padded] at hbytes
  have heq := bigEndian_injOn (by omega) (by omega) hbytes
  omega

/-- The standard's padding tells messages of fewer than `2 ^ 64` bits apart. -/
theorem padding : Padding 64 (fun message => message.length < 2 ^ 61) padded blocksBefore where
  length_eq := length_padded
  injective m m' hshort hshort' heq := by
    have hblocks : blocksBefore m = blocksBefore m' := by
      have hlength := congrArg List.length heq
      rw [length_padded, length_padded] at hlength
      omega
    have hlength := length_eq_of_lastBlock hshort hshort' (by rw [heq, hblocks])
    rw [padded, padded, opening, opening, List.append_assoc, List.append_assoc] at heq
    exact (List.append_inj heq hlength).1
  lastBlock m m' hshort hshort' hblocks hlast := by
    have hlength := length_eq_of_lastBlock hshort hshort' hlast
    rw [blocksBefore, blocksBefore, hlength] at hblocks
    exact hblocks rfl

/-! ## Collisions -/

lemma length_wordBytes (w : UInt32) : (wordBytes w).length = 4 := length_bigEndian 4 w.toNat

lemma wordBytes_injective (w w' : UInt32) (heq : wordBytes w = wordBytes w') : w = w' :=
  UInt32.toNat_inj.mp (bigEndian_injOn w.toNat_lt w'.toNat_lt heq)

lemma length_digest (message : List UInt8) : (digest message).length = 32 := by
  simp [digest, length_wordBytes]

lemma digest_eq_iff_chain :
    digest message = digest message' ↔
      chain compress 64 initial (blocksBefore message + 1) (padded message)
        = chain compress 64 initial (blocksBefore message' + 1) (padded message') := by
  constructor
  · intro heq
    refine List.ofFn_injective (flatMap_inj length_wordBytes wordBytes_injective ?_ heq)
    rw [List.length_ofFn, List.length_ofFn]
  · intro heq
    rw [digest, digest, heq]

end Fips180
