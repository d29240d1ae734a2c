import Mathlib.Algebra.Order.Group.Multiset

/-!
# Priority queues, by their laws

`std::priority_queue<T, Container, Compare>` promises only what its comparator sees: `top` is an
element that no other element beats, and which one is at the top among equivalent elements is left
open.  `PriorityQueue Q comp` is that promise and nothing more, so what is proved from it holds of
every correct queue; `comp a b` reads "`a` comes out after `b`", as with `std::greater`.

* `StrictWeakOrder` — what the standard asks of a comparator.
* `PriorityQueue` — a queue type with its contents as a multiset, and the laws of `push`, `pop`
  and `top`.
* `Respects` — the top of the queue is never beaten in some other comparator.
* `popWhile` — take elements off the top while they satisfy a test; `popWhile_spec` says what
  comes out and what stays, `popWhile_sorted` in which order.
* `SortedQueue` — one queue with these laws, a sorted list, to run the model on.
* `RankedQueue` — one that breaks ties in a given way, to show what the laws leave open.
-/

/-- What the standard asks of a comparator: it is asymmetric, and being incomparable or before
is transitive. -/
class StrictWeakOrder {α : Type*} (comp : α → α → Bool) : Prop where
  asymm : ∀ {a b}, comp a b = true → comp b a = false
  negTrans : ∀ {a b c}, comp a b = false → comp b c = false → comp a c = false

/-- A queue whose `top` is never beaten: `comp a b = true` says that `a` comes out after `b`. -/
class PriorityQueue (Q : Type*) {α : outParam Type*} (comp : outParam (α → α → Bool)) where
  empty : Q
  push : α → Q → Q
  pop : Q → Q
  top? : Q → Option α
  /-- The contents, without the order in which the queue keeps them. -/
  elems : Q → Multiset α
  elems_empty : elems empty = 0
  elems_push : ∀ a q, elems (push a q) = a ::ₘ elems q
  top?_none : ∀ q, top? q = none → elems q = 0
  top?_some : ∀ q a, top? q = some a → elems q = a ::ₘ elems (pop q)
  top?_first : ∀ q a, top? q = some a → ∀ b ∈ elems q, comp a b = false

namespace PriorityQueue

variable {Q α : Type*} {comp : α → α → Bool} [PriorityQueue Q comp]

attribute [simp] elems_empty elems_push

/-- `std::priority_queue::size`. -/
def size (q : Q) : ℕ := Multiset.card (elems q)

lemma top?_eq_none {q : Q} : top? q = none ↔ elems q = 0 := by
  refine ⟨top?_none q, fun h => ?_⟩
  cases htop : top? q with
  | none => rfl
  | some a =>
      have := top?_some q a htop
      rw [h] at this
      exact absurd this.symm (Multiset.cons_ne_zero)

lemma mem_of_top? {q : Q} {a : α} (h : top? q = some a) : a ∈ elems q := by
  rw [top?_some q a h]; exact Multiset.mem_cons_self a _

lemma mem_of_mem_pop {q : Q} {a b : α} (h : top? q = some a) (hb : b ∈ elems (pop q)) :
    b ∈ elems q := by
  rw [top?_some q a h]; exact Multiset.mem_cons_of_mem hb

lemma size_pop {q : Q} {a : α} (h : top? q = some a) : size q = size (pop q) + 1 := by
  rw [size, top?_some q a h, Multiset.card_cons, size]

lemma size_eq_zero {q : Q} : size q = 0 ↔ elems q = 0 := Multiset.card_eq_zero

/-- The top of the queue is never beaten in `r`, which may say more than `comp`. -/
def Respects (Q : Type*) {α : Type*} {comp : α → α → Bool} [PriorityQueue Q comp]
    (r : α → α → Bool) : Prop :=
  ∀ (q : Q) (a : α), top? q = some a → ∀ b ∈ elems q, r a b = false

lemma respects_comp : Respects Q comp := top?_first

/-! ## Taking elements off the top -/

/-- Pop while the element at the top satisfies `p`: what was popped, in order, and the queue
left.  The fuel bounds the number of pops; `size q` is always enough. -/
def popWhile (p : α → Bool) : ℕ → Q → List α × Q
  | 0, q => ([], q)
  | n + 1, q =>
      match top? q with
      | none => ([], q)
      | some a =>
          if p a then
            let r := popWhile p n (pop q)
            (a :: r.1, r.2)
          else ([], q)

/-- What `popWhile` takes out and what it leaves are together what was there. -/
lemma popWhile_elems (p : α → Bool) (n : ℕ) (q : Q) :
    elems q = ↑(popWhile p n q).1 + elems (popWhile p n q).2 := by
  induction n generalizing q with
  | zero => simp [popWhile]
  | succ n ih =>
      rw [popWhile]
      split
      · simp
      · next a htop =>
          split
          · rw [top?_some q a htop, ih (pop q), ← Multiset.cons_add]
            rfl
          · simp

lemma popWhile_mem (p : α → Bool) (n : ℕ) (q : Q) : ∀ a ∈ (popWhile p n q).1, p a = true := by
  induction n generalizing q with
  | zero => simp [popWhile]
  | succ n ih =>
      rw [popWhile]
      split
      · simp
      · next a htop =>
          split
          · next hp =>
              intro b hb
              rcases List.mem_cons.mp hb with rfl | hb
              · exact hp
              · exact ih (pop q) b hb
          · simp

/-- Each element popped is beaten neither by one popped later nor by one left behind, in any
comparator that the queue respects. -/
lemma popWhile_sorted {r : α → α → Bool} (hr : Respects Q r) (p : α → Bool) (n : ℕ) (q : Q) :
    (popWhile p n q).1.Pairwise (fun a b => r a b = false) ∧
      ∀ a ∈ (popWhile p n q).1, ∀ b ∈ elems (popWhile p n q).2, r a b = false := by
  induction n generalizing q with
  | zero => simp [popWhile]
  | succ n ih =>
      rw [popWhile]
      split
      · simp
      · next a htop =>
          split
          · obtain ⟨hsorted, hrest⟩ := ih (pop q)
            have hfirst : ∀ b ∈ elems (pop q), r a b = false := fun b hb =>
              hr q a htop b (mem_of_mem_pop htop hb)
            rw [popWhile_elems p n (pop q)] at hfirst
            refine ⟨List.pairwise_cons.mpr ⟨fun b hb => ?_, hsorted⟩, fun b hb c hc => ?_⟩
            · exact hfirst b (Multiset.mem_add.mpr (Or.inl (Multiset.mem_coe.mpr hb)))
            · rcases List.mem_cons.mp hb with rfl | hb
              · exact hfirst c (Multiset.mem_add.mpr (Or.inr hc))
              · exact hrest b hb c hc
          · simp

/-- With enough fuel and a test that holds of everything before an element it holds of, nothing
left behind satisfies the test. -/
lemma popWhile_rest {p : α → Bool} (hp : ∀ a b, comp a b = false → p b = true → p a = true)
    {n : ℕ} {q : Q} (hn : size q ≤ n) : ∀ b ∈ elems (popWhile p n q).2, p b = false := by
  induction n generalizing q with
  | zero =>
      intro b hb
      rw [popWhile, size_eq_zero.mp (Nat.le_zero.mp hn)] at hb
      exact absurd hb (Multiset.notMem_zero b)
  | succ n ih =>
      intro b hb
      rw [popWhile] at hb
      split at hb
      · next htop =>
          rw [top?_none q htop] at hb
          exact absurd hb (Multiset.notMem_zero b)
      · next a htop =>
          split at hb
          · have hsize := size_pop htop
            exact ih (by omega) b hb
          · next hpa =>
              cases hpb : p b with
              | false => rfl
              | true => exact absurd (hp a b (top?_first q a htop b hb) hpb) hpa

/-- **What comes off the top.**  For a test that is closed towards the top, `popWhile` takes out
exactly the elements that satisfy it and leaves exactly those that do not. -/
theorem popWhile_spec {p : α → Bool} (hp : ∀ a b, comp a b = false → p b = true → p a = true)
    (q : Q) :
    (↑(popWhile p (size q) q).1 : Multiset α) = (elems q).filter (fun a => p a = true) ∧
      elems (popWhile p (size q) q).2 = (elems q).filter (fun a => ¬ p a = true) := by
  have hall := popWhile_elems p (size q) q
  have hin := popWhile_mem p (size q) q
  have hout := popWhile_rest hp (le_refl (size q))
  constructor
  · rw [hall, Multiset.filter_add, Multiset.filter_eq_self.mpr fun a ha => hin a ha,
      Multiset.filter_eq_nil.mpr fun a ha => by simp [hout a ha], Multiset.add_zero]
  · rw [hall, Multiset.filter_add, Multiset.filter_eq_nil.mpr fun a ha => by simpa using hin a ha,
      Multiset.filter_eq_self.mpr fun a ha => by simp [hout a ha], Multiset.zero_add]

end PriorityQueue

/-! ## A queue with these laws -/

/-- A list in the order in which its elements come out. -/
structure SortedQueue {α : Type*} (comp : α → α → Bool) where
  toList : List α
  sorted : toList.Pairwise fun a b => comp a b = false

namespace SortedQueue

variable {α : Type*} {comp : α → α → Bool}

/-- Insert behind every element that does not come out after `a`. -/
def insert (comp : α → α → Bool) (a : α) : List α → List α
  | [] => [a]
  | b :: l => if comp b a then a :: b :: l else b :: insert comp a l

lemma coe_insert (a : α) (l : List α) : (↑(insert comp a l) : Multiset α) = a ::ₘ ↑l := by
  induction l with
  | nil => rfl
  | cons b l ih =>
      rw [insert]
      split
      · rfl
      · rw [← Multiset.cons_coe, ih, Multiset.cons_swap, Multiset.cons_coe]

lemma mem_insert {a b : α} {l : List α} : b ∈ insert comp a l ↔ b = a ∨ b ∈ l := by
  rw [← Multiset.mem_coe, coe_insert, Multiset.mem_cons, Multiset.mem_coe]

lemma sorted_insert [StrictWeakOrder comp] (a : α) {l : List α}
    (h : l.Pairwise fun a b => comp a b = false) :
    (insert comp a l).Pairwise fun a b => comp a b = false := by
  induction l with
  | nil => simp [insert]
  | cons b l ih =>
      rw [List.pairwise_cons] at h
      rw [insert]
      split
      · next hba =>
          have hab : comp a b = false := StrictWeakOrder.asymm hba
          refine List.pairwise_cons.mpr ⟨fun c hc => ?_, List.pairwise_cons.mpr h⟩
          rcases List.mem_cons.mp hc with rfl | hc
          · exact hab
          · exact StrictWeakOrder.negTrans hab (h.1 c hc)
      · next hba =>
          refine List.pairwise_cons.mpr ⟨fun c hc => ?_, ih h.2⟩
          rcases mem_insert.mp hc with rfl | hc
          · exact Bool.eq_false_iff.mpr hba
          · exact h.1 c hc

lemma irrefl [StrictWeakOrder comp] (a : α) : comp a a = false := by
  cases h : comp a a with
  | false => rfl
  | true => rw [← h]; exact StrictWeakOrder.asymm h

instance [StrictWeakOrder comp] : PriorityQueue (SortedQueue comp) comp where
  empty := ⟨[], List.Pairwise.nil⟩
  push a q := ⟨insert comp a q.toList, sorted_insert a q.sorted⟩
  pop q := ⟨q.toList.tail, q.sorted.tail⟩
  top? q := q.toList.head?
  elems q := ↑q.toList
  elems_empty := rfl
  elems_push a q := coe_insert a q.toList
  top?_none q h := by simpa using h
  top?_some q a h := by
    obtain ⟨l, hl⟩ := List.head?_eq_some_iff.mp h
    simp [hl]
  top?_first q a h b hb := by
    obtain ⟨l, hl⟩ := List.head?_eq_some_iff.mp h
    have hsorted := q.sorted
    rw [hl, List.pairwise_cons] at hsorted
    rw [Multiset.mem_coe, hl, List.mem_cons] at hb
    rcases hb with rfl | hb
    · exact irrefl b
    · exact hsorted.1 b hb

end SortedQueue

/-! ## Breaking ties -/

section Ties

variable {α : Type*} {comp : α → α → Bool} {rank : α → ℕ}

/-- `comp`, with the elements it takes for equivalent in the order of a rank. -/
def thenBy (comp : α → α → Bool) (rank : α → ℕ) (a b : α) : Bool :=
  comp a b || (!comp b a && decide (rank b < rank a))

lemma thenBy_eq_false_iff {a b : α} :
    thenBy comp rank a b = false ↔ comp a b = false ∧ (comp b a = true ∨ rank a ≤ rank b) := by
  rw [thenBy, Bool.or_eq_false_iff, Bool.and_eq_false_iff, Bool.not_eq_false',
    decide_eq_false_iff_not, not_lt]

instance [StrictWeakOrder comp] : StrictWeakOrder (thenBy comp rank) where
  asymm {a b} h := by
    rw [thenBy, Bool.or_eq_true, Bool.and_eq_true, Bool.not_eq_true', decide_eq_true_iff] at h
    rw [thenBy_eq_false_iff]
    rcases h with h | ⟨hba, hlt⟩
    · exact ⟨StrictWeakOrder.asymm h, Or.inl h⟩
    · exact ⟨hba, Or.inr hlt.le⟩
  negTrans {a b c} hab hbc := by
    rw [thenBy_eq_false_iff] at hab hbc ⊢
    obtain ⟨hab, hab'⟩ := hab
    obtain ⟨hbc, hbc'⟩ := hbc
    refine ⟨StrictWeakOrder.negTrans hab hbc, ?_⟩
    cases hca : comp c a with
    | true => exact Or.inl rfl
    | false =>
        -- then all three are equivalent, and the ranks decide
        have hba : comp b a = false := StrictWeakOrder.negTrans hbc hca
        have hcb : comp c b = false := StrictWeakOrder.negTrans hca hab
        rw [hba] at hab'
        rw [hcb] at hbc'
        exact Or.inr (le_trans (hab'.resolve_left nofun) (hbc'.resolve_left nofun))

/-- A sorted queue that takes the elements of low rank first among equivalent ones. -/
def RankedQueue (comp : α → α → Bool) (rank : α → ℕ) := SortedQueue (thenBy comp rank)

instance [StrictWeakOrder comp] : PriorityQueue (RankedQueue comp rank) comp :=
  let queue : PriorityQueue (SortedQueue (thenBy comp rank)) (thenBy comp rank) := inferInstance
  { queue with
    top?_first := fun q a htop b hb => (thenBy_eq_false_iff.mp (queue.top?_first q a htop b hb)).1 }

lemma RankedQueue.respects_thenBy [StrictWeakOrder comp] :
    PriorityQueue.Respects (RankedQueue comp rank) (thenBy comp rank) :=
  PriorityQueue.top?_first (Q := SortedQueue (thenBy comp rank))

end Ties
