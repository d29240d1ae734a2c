import Mathlib.Data.List.Basic
import Mathlib.Data.List.TakeDrop

/-!
# Hashing by blocks

A message is cut into blocks of `b` symbols, and a compression function takes them into a chaining
value, one after the other.  A machine that gets its message in pieces keeps the last, unfinished
block in a buffer.

* `chain` — the chaining value after a number of blocks; `chain_add`, `chain_take`.
* `Absorbed` — chaining value and buffer of a machine after a message; `Absorbed.append`.
* `MergesAt` — on its way through two messages the compression function makes one value of two
  different inputs.
* **`Padding.chain_eq_iff`** — the hashes of two padded messages agree exactly when the messages do,
  or there is such a place.
-/

namespace BlockHash

variable {α σ : Type*} {compress : σ → List α → σ} {b n n' k : ℕ} {h iv : σ}
  {message message' piece buffer : List α}

/-- The chaining value after the first `n` blocks of the message. -/
def chain (compress : σ → List α → σ) (b : ℕ) : σ → ℕ → List α → σ
  | h, 0, _ => h
  | h, n + 1, message => chain compress b (compress h (message.take b)) n (message.drop b)

lemma chain_one (h : σ) (message : List α) :
    chain compress b h 1 message = compress h (message.take b) := rfl

lemma chain_add (h : σ) (n k : ℕ) (message : List α) :
    chain compress b h (n + k) message
      = chain compress b (chain compress b h n message) k (message.drop (n * b)) := by
  induction n generalizing h message with
  | zero => simp [chain]
  | succ n ih =>
      rw [Nat.succ_add, chain, chain, ih, List.drop_drop, Nat.succ_mul, Nat.add_comm b]

/-- Only the blocks that are asked for are read. -/
lemma chain_take (h : σ) (hk : n * b ≤ k) :
    chain compress b h n (message.take k) = chain compress b h n message := by
  induction n generalizing h message k with
  | zero => rfl
  | succ n ih =>
      rw [Nat.succ_mul] at hk
      have hb : b ≤ k := by omega
      rw [chain, chain, List.take_take, Nat.min_eq_left hb, List.drop_take, ih _ (by omega)]

lemma chain_append (h : σ) (hn : n * b ≤ message.length) (more : List α) :
    chain compress b h n (message ++ more) = chain compress b h n message := by
  rw [← chain_take h hn, List.take_left]

/-- A list is determined by its symbols written with `n` symbols each, if one symbol is. -/
lemma flatMap_inj {β : Type*} {encode : α → List β} (hlength : ∀ a, (encode a).length = n)
    (hinj : ∀ a a', encode a = encode a' → a = a') {l l' : List α} (hl : l.length = l'.length)
    (heq : l.flatMap encode = l'.flatMap encode) : l = l' := by
  induction l generalizing l' with
  | nil => exact (List.eq_nil_of_length_eq_zero hl.symm).symm
  | cons a l ih =>
      cases l' with
      | nil => cases hl
      | cons a' l' =>
          rw [List.flatMap_cons, List.flatMap_cons] at heq
          obtain ⟨ha, hrest⟩ := List.append_inj heq (by rw [hlength, hlength])
          rw [hinj a a' ha, ih (Nat.succ.inj hl) hrest]

/-! ## Messages in pieces -/

/-- What a machine that has taken in `message` holds: the chaining value of its whole blocks, and
the rest of it. -/
structure Absorbed (compress : σ → List α → σ) (b : ℕ) (iv : σ) (message : List α) (h : σ)
    (buffer : List α) : Prop where
  chained : h = chain compress b iv (message.length / b) message
  buffered : buffer = message.drop (message.length / b * b)

lemma absorbed_nil (iv : σ) : Absorbed compress b iv [] iv [] := by
  refine ⟨?_, by simp⟩
  rw [List.length_nil, Nat.zero_div]
  rfl

lemma Absorbed.length_buffer (abs : Absorbed compress b iv message h buffer) :
    buffer.length = message.length % b := by
  have hmod := Nat.div_add_mod' message.length b
  rw [abs.buffered, List.length_drop]
  omega

/-- The blocks completed by the next piece go into the chaining value, and what is left of them
becomes the buffer. -/
theorem Absorbed.append (abs : Absorbed compress b iv message h buffer) (hb : 0 < b)
    (piece : List α) :
    Absorbed compress b iv (message ++ piece)
      (chain compress b h ((buffer ++ piece).length / b) (buffer ++ piece))
      ((buffer ++ piece).drop ((buffer ++ piece).length / b * b)) := by
  have hbuffer := abs.length_buffer
  have hmod := Nat.div_add_mod' message.length b
  have hle : message.length / b * b ≤ message.length := by omega
  have hblocks : (message ++ piece).length / b
      = message.length / b + (buffer ++ piece).length / b := by
    rw [List.length_append, List.length_append, hbuffer, ← hmod, Nat.add_assoc, Nat.add_comm,
      Nat.add_mul_div_right _ _ hb, Nat.add_comm, hmod]
  have hrest : (message ++ piece).drop (message.length / b * b) = buffer ++ piece := by
    rw [List.drop_append_of_le_length hle, abs.buffered]
  refine ⟨?_, ?_⟩
  · rw [hblocks, chain_add, hrest, chain_append iv hle, ← abs.chained]
  · rw [hblocks, Nat.add_mul, ← List.drop_drop, hrest]

/-! ## Collisions -/

/-- What the compression function is given for a block of the message. -/
def input (compress : σ → List α → σ) (b : ℕ) (iv : σ) (message : List α) (i : ℕ) : σ × List α :=
  (chain compress b iv i message, (message.drop (i * b)).take b)

/-- Before the last `k` blocks of two messages, the compression function makes one value of two
different inputs, and the last `k` blocks are the same. -/
structure MergesAt (compress : σ → List α → σ) (b : ℕ) (iv : σ) (n : ℕ) (message : List α) (n' : ℕ)
    (message' : List α) (k : ℕ) : Prop where
  lt : k < n
  lt' : k < n'
  input_ne : input compress b iv message (n - k - 1) ≠ input compress b iv message' (n' - k - 1)
  chain_eq : chain compress b iv (n - k) message = chain compress b iv (n' - k) message'
  rest_eq : message.drop ((n - k) * b) = message'.drop ((n' - k) * b)

lemma MergesAt.chains_eq (h : MergesAt compress b iv n message n' message' k) :
    chain compress b iv n message = chain compress b iv n' message' := by
  rw [← Nat.sub_add_cancel (Nat.le_of_lt h.lt), ← Nat.sub_add_cancel (Nat.le_of_lt h.lt'),
    chain_add, chain_add, h.chain_eq, h.rest_eq]

/-- Back from the end, while the inputs are the same: the induction is on the number of blocks. -/
lemma same_of_not_mergesAt (hmessage : message.length = n * b)
    (hmessage' : message'.length = n' * b)
    (heq : chain compress b iv n message = chain compress b iv n' message')
    (hnot : ∀ k, ¬ MergesAt compress b iv n message n' message' k) (hk : k ≤ n) (hk' : k ≤ n') :
    chain compress b iv (n - k) message = chain compress b iv (n' - k) message' ∧
      message.drop ((n - k) * b) = message'.drop ((n' - k) * b) := by
  induction k with
  | zero => exact ⟨heq, by simp [← hmessage, ← hmessage']⟩
  | succ k ih =>
      obtain ⟨hchain, hrest⟩ := ih (Nat.le_of_succ_le hk) (Nat.le_of_succ_le hk')
      have hinput : input compress b iv message (n - k - 1)
          = input compress b iv message' (n' - k - 1) := by
        by_contra hne
        exact hnot k ⟨hk, hk', hne, hchain, hrest⟩
      obtain ⟨hbefore, hblock⟩ := Prod.mk.inj hinput
      have hsplit : ∀ {l : List α} {m : ℕ}, k + 1 ≤ m →
          l.drop ((m - (k + 1)) * b)
            = (l.drop ((m - k - 1) * b)).take b ++ l.drop ((m - k) * b) := by
        intro l m hm
        have hdrop : (m - k) * b = (m - k - 1) * b + b := by
          rw [← Nat.succ_mul]
          congr 1
          omega
        rw [hdrop, ← List.drop_drop, List.take_append_drop, Nat.sub_sub]
      exact ⟨hbefore, by rw [hsplit hk, hsplit hk', hblock, hrest]⟩

/-- A way to fill up the valid messages to whole blocks: no two become the same, and those that
take a different number of blocks differ in their last one. -/
structure Padding (b : ℕ) (valid : List α → Prop) (pad : List α → List α) (blocks : List α → ℕ) :
    Prop where
  length_eq : ∀ m, (pad m).length = (blocks m + 1) * b
  injective : ∀ m m', valid m → valid m' → pad m = pad m' → m = m'
  lastBlock : ∀ m m', valid m → valid m' → blocks m ≠ blocks m' →
    (pad m).drop (blocks m * b) ≠ (pad m').drop (blocks m' * b)

/-- **When two messages have one hash.**  Two valid messages end in the same chaining value exactly
when they are the same, or the compression function makes one value of two different inputs on the
way. -/
theorem Padding.chain_eq_iff {valid : List α → Prop} {pad : List α → List α} {blocks : List α → ℕ}
    (hpad : Padding b valid pad blocks) (hvalid : valid message) (hvalid' : valid message') :
    chain compress b iv (blocks message + 1) (pad message)
        = chain compress b iv (blocks message' + 1) (pad message') ↔
      message = message' ∨ ∃ k, MergesAt compress b iv (blocks message + 1) (pad message)
        (blocks message' + 1) (pad message') k := by
  constructor
  · intro heq
    by_contra hnot
    rw [not_or, not_exists] at hnot
    obtain ⟨hne, hnot⟩ := hnot
    have hsame : ∀ k, k ≤ blocks message + 1 → k ≤ blocks message' + 1 →
        (pad message).drop ((blocks message + 1 - k) * b)
          = (pad message').drop ((blocks message' + 1 - k) * b) := fun k hk hk' =>
      (same_of_not_mergesAt (hpad.length_eq message) (hpad.length_eq message') heq hnot hk hk').2
    by_cases hblocks : blocks message = blocks message'
    · have hwhole := hsame (blocks message + 1) (Nat.le_refl _) (by omega)
      rw [hblocks, Nat.sub_self, Nat.zero_mul, List.drop_zero, List.drop_zero] at hwhole
      exact hne (hpad.injective _ _ hvalid hvalid' hwhole)
    · exact hpad.lastBlock _ _ hvalid hvalid' hblocks
        (hsame 1 (Nat.le_add_left 1 _) (Nat.le_add_left 1 _))
  · rintro (rfl | ⟨k, hmerges⟩)
    · rfl
    · exact hmerges.chains_eq

end BlockHash
