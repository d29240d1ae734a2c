import FFNetwork.Lib.Slots
import FFNetwork.Lib.StepSystem

/-!
# `UniqueObject`

`source/base/unique_object.h`: an object that holds a handle and passes it to `Traits::Free` when it
is destroyed or given another one.  Any number of them are created, moved, swapped and destroyed in
any order; an object is known by its number, in the order of their creation.

A handle is any value other than `InvalidValue()`.  It may be given to an object when no other one
holds it, so one that has been freed or released can come back.

* `UniqueObject.reset`, `release`, `swap`, ... — the members; `HandleHistory.step` — the objects.
* `HandleHistory.Balanced` — the invariant, for a handle on its way from one object to another.
* **`handles_accounted`** — every handle is held, released or freed, as often as it has come in.
-/

namespace FFNetwork

open StepSystem Slots

/-! ## One object -/

/-- The static members of `Traits`.  The states of traits objects are the values of the type. -/
class UniqueObjectTraits (T : outParam Type) (Traits : Type) where
  invalidValue : T
  isValid : T → Bool
  isValid_ne {value : T} : isValid value = true → value ≠ invalidValue

/-- A `UniqueObject`: the value, and the traits object that frees it. -/
structure UniqueObject (T Traits : Type) where
  traits : Traits
  generic_data : T

namespace UniqueObject

variable {T Traits : Type} [DecidableEq T] [UniqueObjectTraits T Traits]

/-- `UniqueObject(value, traits)`. -/
def create (value : T) (traits : Traits) : UniqueObject T Traits := ⟨traits, value⟩

/-- `FreeIfNecessary`: the object, and what it has passed to `Free`. -/
def freeIfNecessary (o : UniqueObject T Traits) : UniqueObject T Traits × List (Traits × T) :=
  if o.generic_data ≠ UniqueObjectTraits.invalidValue Traits then
    ({ o with generic_data := UniqueObjectTraits.invalidValue Traits },
      [(o.traits, o.generic_data)])
  else (o, [])

/-- `reset`: the object, and what it has passed to `Free`, or none if the `FF_CHECK` fails. -/
def reset (o : UniqueObject T Traits) (value : T) :
    Option (UniqueObject T Traits × List (Traits × T)) :=
  if o.generic_data = UniqueObjectTraits.invalidValue Traits ∨ o.generic_data ≠ value then
    let (o, freed) := o.freeIfNecessary
    some ({ o with generic_data := value }, freed)
  else none

/-- `release`: the value, and the object with the invalid one. -/
def release (o : UniqueObject T Traits) : T × UniqueObject T Traits :=
  (o.generic_data, { o with generic_data := UniqueObjectTraits.invalidValue Traits })

omit [DecidableEq T] in
/-- `is_valid`. -/
def isValid (o : UniqueObject T Traits) : Bool := UniqueObjectTraits.isValid Traits o.generic_data

omit [DecidableEq T] [UniqueObjectTraits T Traits] in
/-- `swap`: the values and the traits objects change places. -/
def swap (o other : UniqueObject T Traits) : UniqueObject T Traits × UniqueObject T Traits :=
  (⟨other.traits, other.generic_data⟩, ⟨o.traits, o.generic_data⟩)

/-- `UniqueObject(UniqueObject &&other)`: the new object and the other one. -/
def moveConstruct (other : UniqueObject T Traits) :
    UniqueObject T Traits × UniqueObject T Traits :=
  let (value, other) := other.release
  (create value other.traits, other)

end UniqueObject

/-! ## All objects -/

/-- The objects, with the handles that have come in, those that `release` has returned and what has
been passed to `Free`. -/
structure HandleHistory (T Traits : Type) where
  objects : List (Option (UniqueObject T Traits))
  entered : List T
  released : List T
  freed : List (Traits × T)
  /-- An `FF_CHECK` has ended the process. -/
  checkFailed : Bool

/-- The operations on the objects, which are named by their numbers. -/
inductive HandleAction (T Traits : Type)
  | construct (value : T) (traits : Traits)
  | moveConstruct (other : ℕ)
  | moveAssign (object other : ℕ)
  | reset (object : ℕ) (value : T)
  | swap (object other : ℕ)
  | release (object : ℕ)
  | destroy (object : ℕ)

namespace HandleHistory

variable {T Traits : Type} [DecidableEq T] [UniqueObjectTraits T Traits]

omit [DecidableEq T] [UniqueObjectTraits T Traits] in
/-- No objects yet. -/
def init : HandleHistory T Traits := ⟨[], [], [], [], false⟩

omit [UniqueObjectTraits T Traits] in
/-- How many live objects hold the handle. -/
def held (s : HandleHistory T Traits) (handle : T) : ℕ :=
  number (fun o => decide (o.generic_data = handle)) s.objects

omit [UniqueObjectTraits T Traits] in
/-- How often the handle has been passed to `Free`. -/
def freedCount (s : HandleHistory T Traits) (handle : T) : ℕ :=
  (s.freed.map Prod.snd).count handle

/-- No object holds the value, or it is not a handle. -/
def Fresh (s : HandleHistory T Traits) (value : T) : Prop :=
  value = UniqueObjectTraits.invalidValue Traits ∨ s.held value = 0

instance (s : HandleHistory T Traits) (value : T) : Decidable (s.Fresh value) :=
  inferInstanceAs (Decidable (_ ∨ _))

omit [DecidableEq T] [UniqueObjectTraits T Traits] in
/-- A handle comes in from outside. -/
def enter (s : HandleHistory T Traits) (value : T) : HandleHistory T Traits :=
  { s with entered := s.entered ++ [value] }

/-- `reset` on a live object. -/
def resetObject (s : HandleHistory T Traits) (object : ℕ) (value : T) :
    Option (HandleHistory T Traits) :=
  (live s.objects object).map fun o =>
    match o.reset value with
    | none => { s with checkFailed := true }
    | some (o, freed) =>
        { s with objects := s.objects.set object (some o), freed := s.freed ++ freed }

/-- The step function.  A handle that comes in is in no object yet; after a failed check there is no
next step. -/
def step (s : HandleHistory T Traits) (a : HandleAction T Traits) :
    Option (HandleHistory T Traits) :=
  if s.checkFailed then none
  else
    match a with
    | .construct value traits =>
        if s.Fresh value then
          some { s.enter value with objects := s.objects ++ [some (.create value traits)] }
        else none
    | .moveConstruct other =>
        (live s.objects other).map fun o =>
          let (new, o) := o.moveConstruct
          { s with objects := s.objects.set other (some o) ++ [some new] }
    | .moveAssign object other =>
        (live s.objects other).bind fun o =>
          let (value, o) := o.release
          { s with objects := s.objects.set other (some o) }.resetObject object value
    | .reset object value =>
        if s.Fresh value then (s.enter value).resetObject object value else none
    | .swap object other =>
        (live s.objects object).bind fun o =>
          (live s.objects other).map fun o' =>
            let (o, o') := o.swap o'
            { s with objects := (s.objects.set object (some o)).set other (some o') }
    | .release object =>
        (live s.objects object).map fun o =>
          let (value, o) := o.release
          { s with
            objects := s.objects.set object (some o)
            released := s.released ++ [value] }
    | .destroy object =>
        (live s.objects object).map fun o =>
          { s with
            objects := s.objects.set object none
            freed := s.freed ++ o.freeIfNecessary.2 }

/-! ## The ledger -/

variable {s s' : HandleHistory T Traits} {hand handle value : T} {o : UniqueObject T Traits}
  {i : ℕ}

omit [UniqueObjectTraits T Traits] in
/-- Whether this value is the handle, as a number. -/
def mark (value handle : T) : ℕ := (decide (value = handle)).toNat

omit [UniqueObjectTraits T Traits] in
@[simp] lemma mark_self (handle : T) : mark handle handle = 1 := by simp [mark]

lemma mark_invalid (hhandle : handle ≠ UniqueObjectTraits.invalidValue Traits) :
    mark (UniqueObjectTraits.invalidValue Traits) handle = 0 := by
  simp [mark, hhandle.symm]

omit [UniqueObjectTraits T Traits] in
@[simp] lemma count_append_singleton (l : List T) (value handle : T) :
    (l ++ [value]).count handle = l.count handle + mark value handle := by
  rw [List.count_append, List.count_singleton, mark]
  by_cases hvalue : value = handle
  · simp [hvalue]
  · simp [hvalue]

omit [UniqueObjectTraits T Traits] in
/-- An object has come in the place of another one. -/
lemma held_set (hlive : live s.objects i = some o) (o' : UniqueObject T Traits) (handle : T) :
    number (fun o => decide (o.generic_data = handle)) (s.objects.set i (some o')) +
      mark o.generic_data handle = s.held handle + mark o'.generic_data handle :=
  number_set _ (getElem?_of_live hlive) (some o')

omit [UniqueObjectTraits T Traits] in
/-- An object is gone. -/
lemma held_clear (hlive : live s.objects i = some o) (handle : T) :
    number (fun o => decide (o.generic_data = handle)) (s.objects.set i none) +
      mark o.generic_data handle = s.held handle :=
  number_set _ (getElem?_of_live hlive) none

omit [UniqueObjectTraits T Traits] in
/-- An object is new. -/
lemma held_append (s : HandleHistory T Traits) (o : UniqueObject T Traits) (handle : T) :
    number (fun o => decide (o.generic_data = handle)) (s.objects ++ [some o]) =
      s.held handle + mark o.generic_data handle :=
  number_append _ s.objects o

/-- What `FreeIfNecessary` frees is what the object holds. -/
lemma count_freeIfNecessary (o : UniqueObject T Traits)
    (hhandle : handle ≠ UniqueObjectTraits.invalidValue Traits) :
    (o.freeIfNecessary.2.map Prod.snd).count handle = mark o.generic_data handle := by
  rw [UniqueObject.freeIfNecessary]
  split
  · exact (count_append_singleton [] o.generic_data handle).trans (Nat.zero_add _)
  · next hinvalid =>
      rw [not_not.mp hinvalid, mark_invalid hhandle]
      rfl

/-- No check has failed, and every handle is held, released, freed or in hand as often as it has
come in, but not held or in hand twice. -/
structure Balanced (s : HandleHistory T Traits) (hand : T) : Prop where
  checks : s.checkFailed = false
  ledger : ∀ handle ≠ UniqueObjectTraits.invalidValue Traits, s.entered.count handle =
    s.held handle + s.released.count handle + s.freedCount handle + mark hand handle
  unique : ∀ handle ≠ UniqueObjectTraits.invalidValue Traits,
    s.held handle + mark hand handle ≤ 1

lemma balanced_init :
    (init : HandleHistory T Traits).Balanced (UniqueObjectTraits.invalidValue Traits) where
  checks := rfl
  ledger handle hhandle := by
    rw [mark_invalid hhandle]
    rfl
  unique handle hhandle := by
    rw [mark_invalid hhandle]
    exact Nat.zero_le _

/-- A fresh value comes into the hand. -/
lemma Balanced.enter (hs : s.Balanced (UniqueObjectTraits.invalidValue Traits))
    (hfresh : s.Fresh value) : (s.enter value).Balanced value where
  checks := hs.checks
  ledger handle hhandle := by
    have hledger := hs.ledger handle hhandle
    simp only [HandleHistory.enter, held, freedCount, mark_invalid hhandle,
      count_append_singleton] at hledger ⊢
    omega
  unique handle hhandle := by
    have hunique := hs.unique handle hhandle
    rw [mark_invalid hhandle] at hunique
    show s.held handle + mark value handle ≤ 1
    by_cases hvalue : value = handle
    · rcases hfresh with hinvalid | hzero
      · exact absurd (hvalue.symm.trans hinvalid) hhandle
      · rw [hvalue] at hzero
        rw [hzero, hvalue, mark_self]
    · simpa [mark, hvalue] using hunique

/-- Handles go from one place to another, and none comes in. -/
lemma Balanced.move {hand' : T} (hs : s.Balanced hand) (hchecks : s'.checkFailed = false)
    (hentered : s'.entered = s.entered)
    (hmove : ∀ handle ≠ UniqueObjectTraits.invalidValue Traits,
      s'.held handle + s'.released.count handle + s'.freedCount handle + mark hand' handle =
        s.held handle + s.released.count handle + s.freedCount handle + mark hand handle ∧
      s'.held handle + mark hand' handle ≤ s.held handle + mark hand handle) :
    s'.Balanced hand' where
  checks := hchecks
  ledger handle hhandle := by
    rw [hentered, (hmove handle hhandle).1]
    exact hs.ledger handle hhandle
  unique handle hhandle := (hmove handle hhandle).2.trans (hs.unique handle hhandle)

/-- `release` takes what an object holds into the hand. -/
lemma Balanced.take (hs : s.Balanced (UniqueObjectTraits.invalidValue Traits))
    (hlive : live s.objects i = some o) :
    { s with objects := s.objects.set i (some o.release.2) }.Balanced o.release.1 := by
  refine hs.move hs.checks rfl fun handle hhandle => ?_
  have hheld := held_set hlive o.release.2 handle
  simp only [UniqueObject.release, held, freedCount, mark_invalid hhandle] at hheld ⊢
  omega

/-- A new object takes the handle. -/
lemma Balanced.append (hs : s.Balanced hand) (traits : Traits) :
    { s with objects := s.objects ++ [some (UniqueObject.create hand traits)] }.Balanced
      (UniqueObjectTraits.invalidValue Traits) := by
  refine hs.move hs.checks rfl fun handle hhandle => ?_
  have hheld := held_append s (UniqueObject.create hand traits) handle
  simp only [UniqueObject.create, held, freedCount, mark_invalid hhandle] at hheld ⊢
  omega

/-- `release` returns the handle. -/
lemma Balanced.giveBack (hs : s.Balanced hand) :
    { s with released := s.released ++ [hand] }.Balanced
      (UniqueObjectTraits.invalidValue Traits) := by
  refine hs.move hs.checks rfl fun handle hhandle => ?_
  simp only [held, freedCount, mark_invalid hhandle, count_append_singleton]
  omega

/-- What is in hand is not held by any object, so the `FF_CHECK` of `reset` holds. -/
lemma Balanced.check (hs : s.Balanced hand) (hlive : live s.objects i = some o) :
    o.generic_data = UniqueObjectTraits.invalidValue Traits ∨ o.generic_data ≠ hand := by
  by_cases hinvalid : o.generic_data = UniqueObjectTraits.invalidValue Traits
  · exact Or.inl hinvalid
  · refine Or.inr fun heq => ?_
    have hunique := hs.unique o.generic_data hinvalid
    have hpos : 0 < s.held o.generic_data := number_pos_of_live hlive (by simp)
    rw [← heq, mark_self] at hunique
    omega

/-- `reset` frees what the object holds and puts the handle in its place. -/
lemma Balanced.resetObject (hs : s.Balanced hand) (ht : s.resetObject i hand = some s') :
    s'.Balanced (UniqueObjectTraits.invalidValue Traits) := by
  rcases Option.map_eq_some_iff.mp ht with ⟨o, hlive, hreset⟩
  rw [UniqueObject.reset, if_pos (hs.check hlive)] at hreset
  subst hreset
  refine hs.move hs.checks rfl fun handle hhandle => ?_
  have hheld := held_set hlive { o.freeIfNecessary.1 with generic_data := hand } handle
  simp only [held, freedCount, List.map_append, List.count_append,
    count_freeIfNecessary o hhandle, mark_invalid hhandle] at hheld ⊢
  omega

/-- The destructor frees what the object holds. -/
lemma Balanced.destroy (hs : s.Balanced hand) (hlive : live s.objects i = some o) :
    { s with
      objects := s.objects.set i none
      freed := s.freed ++ o.freeIfNecessary.2 }.Balanced hand := by
  refine hs.move hs.checks rfl fun handle hhandle => ?_
  have hheld := held_clear hlive handle
  simp only [held, freedCount, List.map_append, List.count_append,
    count_freeIfNecessary o hhandle] at hheld ⊢
  omega

/-- Two objects, or one with itself, exchange what they hold. -/
lemma Balanced.swap (hs : s.Balanced hand) {j : ℕ} {o' : UniqueObject T Traits}
    (hi : live s.objects i = some o) (hj : live s.objects j = some o') :
    { s with objects := (s.objects.set i (some o')).set j (some o) }.Balanced hand := by
  by_cases hij : i = j
  -- with itself nothing changes
  · subst hij
    rw [hi] at hj
    cases hj
    rw [set_live hi, set_live hi]
    exact hs
  · have hj' : live (s.objects.set i (some o')) j = some o' := by rw [live_set_of_ne hij, hj]
    refine hs.move hs.checks rfl fun handle hhandle => ?_
    have hfirst := held_set hi o' handle
    have hsecond := held_set (s := { s with objects := s.objects.set i (some o') }) hj' o handle
    simp only [held, freedCount] at hfirst hsecond ⊢
    omega

lemma balanced_step {a : HandleAction T Traits}
    (hs : s.Balanced (UniqueObjectTraits.invalidValue Traits)) (ht : s.step a = some s') :
    s'.Balanced (UniqueObjectTraits.invalidValue Traits) := by
  unfold step at ht
  rw [if_neg (by rw [hs.checks]; exact Bool.false_ne_true)] at ht
  cases a with
  | construct value traits =>
      simp only [Option.ite_none_right_eq_some, Option.some.injEq] at ht
      rcases ht with ⟨hfresh, rfl⟩
      exact (hs.enter hfresh).append traits
  | moveConstruct other =>
      rcases Option.map_eq_some_iff.mp ht with ⟨o, hlive, rfl⟩
      exact (hs.take hlive).append o.traits
  | moveAssign object other =>
      rcases Option.bind_eq_some_iff.mp ht with ⟨o, hlive, hreset⟩
      exact (hs.take hlive).resetObject hreset
  | reset object value =>
      simp only [Option.ite_none_right_eq_some] at ht
      exact (hs.enter ht.1).resetObject ht.2
  | swap object other =>
      rcases Option.bind_eq_some_iff.mp ht with ⟨o, hlive, ht⟩
      rcases Option.map_eq_some_iff.mp ht with ⟨o', hlive', rfl⟩
      exact hs.swap hlive hlive'
  | release object =>
      rcases Option.map_eq_some_iff.mp ht with ⟨o, hlive, rfl⟩
      exact (hs.take hlive).giveBack
  | destroy object =>
      rcases Option.map_eq_some_iff.mp ht with ⟨o, hlive, rfl⟩
      exact hs.destroy hlive

/-! ## Where a handle is -/

/-- A handle is held by one object, or `release` has returned it, or it has been freed once. -/
inductive InOnePlace (s : HandleHistory T Traits) (handle : T) : Prop
  | held (hheld : s.held handle = 1) (hreleased : s.released.count handle = 0)
      (hfreed : s.freedCount handle = 0)
  | released (hheld : s.held handle = 0) (hreleased : s.released.count handle = 1)
      (hfreed : s.freedCount handle = 0)
  | freed (hheld : s.held handle = 0) (hreleased : s.released.count handle = 0)
      (hfreed : s.freedCount handle = 1)

/-- All that has happened to a handle. -/
structure Accounted (s : HandleHistory T Traits) (handle : T) : Prop where
  /-- It is held, released or freed as often as it has come in, and never held twice. -/
  ledger : s.entered.count handle =
    s.held handle + s.released.count handle + s.freedCount handle
  unique : s.held handle ≤ 1
  onePlace : s.entered.count handle = 1 → s.InOnePlace handle
  destroyed : (∀ i, live s.objects i = none) →
    s.entered.count handle = s.released.count handle + s.freedCount handle

lemma Balanced.accounted (hs : s.Balanced (UniqueObjectTraits.invalidValue Traits))
    (hhandle : handle ≠ UniqueObjectTraits.invalidValue Traits) : s.Accounted handle := by
  have hledger := hs.ledger handle hhandle
  have hunique := hs.unique handle hhandle
  rw [mark_invalid hhandle] at hledger hunique
  refine ⟨hledger, hunique, fun honce => ?_, fun hnone => ?_⟩
  · have hsum : s.held handle + s.released.count handle + s.freedCount handle = 1 := by omega
    rcases Nat.eq_zero_or_pos (s.held handle) with hheld | hheld
    · rcases Nat.eq_zero_or_pos (s.released.count handle) with hreleased | hreleased
      · exact .freed hheld hreleased (by omega)
      · exact .released hheld (by omega) (by omega)
    · exact .held (by omega) (by omega) (by omega)
  · have hheld : s.held handle = 0 := number_eq_zero _ hnone
    omega

/-- **Every handle is freed exactly once.**  In every run no `FF_CHECK` fails, and every handle is
held by one object, released or freed as often as it has come in; when all objects are destroyed it
is released or freed. -/
theorem handles_accounted {actions : List (HandleAction T Traits)}
    (hrun : run step init actions = some s) :
    s.checkFailed = false ∧
      ∀ handle ≠ UniqueObjectTraits.invalidValue Traits, s.Accounted handle := by
  have hs := run_invariant
    (I := fun s : HandleHistory T Traits => s.Balanced (UniqueObjectTraits.invalidValue Traits))
    (fun s a t hs ht => balanced_step hs ht) balanced_init hrun
  exact ⟨hs.checks, fun handle hhandle => hs.accounted hhandle⟩

end HandleHistory

/-! ## File descriptors -/

/-- `internal::UniqueFDTraits`. -/
structure UniqueFDTraits

instance : UniqueObjectTraits Int32 UniqueFDTraits where
  invalidValue := -1
  isValid value := value ≥ 0
  isValid_ne := by
    rintro value hvalid rfl
    revert hvalid
    decide

/-- `UniqueFD`. -/
abbrev UniqueFD := UniqueObject Int32 UniqueFDTraits

/-- Two descriptors: one is moved onto itself and swapped with itself, then the other is assigned to
it, and both objects are destroyed. -/
theorem HandleHistory.handles_accounted_fd :
    ∃ s : HandleHistory Int32 UniqueFDTraits,
      run step init [.construct 3 ⟨⟩, .construct 4 ⟨⟩, .moveAssign 0 0, .swap 0 0, .moveAssign 0 1,
        .destroy 0, .destroy 1] = some s ∧
      s.freed.map Prod.snd = [3, 4] ∧ s.checkFailed = false ∧
      ∀ handle ≠ UniqueObjectTraits.invalidValue UniqueFDTraits, s.Accounted handle := by
  rcases Option.map_eq_some_iff.mp (show (run step (init : HandleHistory Int32 UniqueFDTraits)
    [.construct 3 ⟨⟩, .construct 4 ⟨⟩, .moveAssign 0 0, .swap 0 0, .moveAssign 0 1, .destroy 0,
      .destroy 1]).map (fun s => s.freed.map Prod.snd) = some [3, 4] by decide) with
    ⟨s, hrun, hfreed⟩
  exact ⟨s, hrun, hfreed, handles_accounted hrun⟩

end FFNetwork
