import FFNetwork.Lib.StepSystem
import Mathlib.Logic.Function.Basic

/-!
# Sections under locks

A store has a cell behind each of many locks, and one word that all share.  A call takes a lock,
reads and writes the shared word once, works on the cell in any number of small steps, and lets the
lock go.  The small steps of calls under different locks interleave.

* `Machine` — the small steps of the calls, with what they come to.
* `serial` — the calls one after the other.
* `Simulates` — the invariant: each cell will be what it is after the calls in the order of their
  accesses to the shared word.
* **`serial_of_run`** — so every call returns what it does in that order, and when nobody is inside
  the store is the same, too.
* `cells_of_run` — what the small steps of the calls keep of a cell holds at any time.
-/

namespace LockedSections

open StepSystem

/-- The calls: `enter` is the access to the shared word, `next` a small step on the cell, with
nothing left to do when it is `none`, and `finish` what the remaining steps come to. -/
structure Machine (Op Word Cell Control : Type*) where
  enter : Word → Op → Word × Control
  next : Cell → Control → Option (Cell × Control)
  finish : Cell → Control → Cell × Control
  finish_of_next : ∀ cell control r, next cell control = some r →
    finish r.1 r.2 = finish cell control
  finish_of_none : ∀ cell control, next cell control = none →
    finish cell control = (cell, control)

/-- The word that all calls share, and the cell behind each lock. -/
structure Store (Key Word Cell : Type*) where
  word : Word
  cells : Key → Cell

/-- Where a thread is: outside, behind its lock, or behind its access to the shared word, as number
`i` of all calls. -/
inductive Progress (Key Op Control : Type*) where
  | outside
  | locked (key : Key) (op : Op)
  | inside (key : Key) (control : Control) (i : ℕ)

/-- The store, the locks and the threads. -/
structure Sections (Thread Key Op Word Cell Control : Type*) where
  store : Store Key Word Cell
  owner : Key → Option Thread
  progress : Thread → Progress Key Op Control
  /-- The calls in the order of their accesses to the shared word. -/
  log : List (Key × Op)
  /-- The calls that have returned, by their numbers, with what they returned. -/
  returned : List (ℕ × Control)

/-- The steps of a thread: taking a lock for a call, the access to the shared word, a small step on
the cell, and letting the lock go. -/
inductive Action (Thread Key Op : Type*) where
  | acquire (thread : Thread) (key : Key) (op : Op)
  | enter (thread : Thread)
  | advance (thread : Thread)
  | release (thread : Thread)

variable {Thread Key Op Word Cell Control : Type*} [DecidableEq Thread] [DecidableEq Key]

/-! ## One call after the other -/

/-- A call that nothing interleaves with. -/
def Machine.call (m : Machine Op Word Cell Control) (store : Store Key Word Cell) (key : Key)
    (op : Op) : Store Key Word Cell × Control :=
  let entered := m.enter store.word op
  let finished := m.finish (store.cells key) entered.2
  (⟨entered.1, Function.update store.cells key finished.1⟩, finished.2)

/-- The calls one after the other, and what they return. -/
def serial (m : Machine Op Word Cell Control) (store : Store Key Word Cell)
    (log : List (Key × Op)) : Store Key Word Cell × List Control :=
  log.foldl (fun r call => ((m.call r.1 call.1 call.2).1, r.2 ++ [(m.call r.1 call.1 call.2).2]))
    (store, [])

variable {m : Machine Op Word Cell Control} {start : Store Key Word Cell} {log : List (Key × Op)}

omit [DecidableEq Thread] in
lemma serial_concat (key : Key) (op : Op) :
    serial m start (log ++ [(key, op)])
      = ((m.call (serial m start log).1 key op).1,
          (serial m start log).2 ++ [(m.call (serial m start log).1 key op).2]) := by
  rw [serial, List.foldl_append]
  rfl

lemma length_serial : (serial m start log).2.length = log.length := by
  induction log using List.reverseRecOn with
  | nil => rfl
  | append_singleton log call ih =>
      rw [serial_concat, List.length_append, List.length_append, ih]
      rfl

/-- What a call returns does not depend on the calls behind it. -/
lemma getElem?_serial_concat {i : ℕ} {control : Control} (key : Key) (op : Op)
    (hi : (serial m start log).2[i]? = some control) :
    (serial m start (log ++ [(key, op)])).2[i]? = some control := by
  rw [serial_concat]
  exact List.getElem?_append_left (List.getElem?_eq_some_iff.mp hi).1 ▸ hi

/-! ## The system -/

/-- Nobody is inside. -/
def created (start : Store Key Word Cell) : Sections Thread Key Op Word Cell Control :=
  ⟨start, fun _ => none, fun _ => .outside, [], []⟩

/-- The step function; a lock is let go when the call has nothing left to do. -/
def step (m : Machine Op Word Cell Control) (s : Sections Thread Key Op Word Cell Control) :
    Action Thread Key Op → Option (Sections Thread Key Op Word Cell Control)
  | .acquire thread key op =>
      match s.progress thread, s.owner key with
      | .outside, none =>
          some { s with
            owner := Function.update s.owner key (some thread)
            progress := Function.update s.progress thread (.locked key op) }
      | _, _ => none
  | .enter thread =>
      match s.progress thread with
      | .locked key op =>
          let entered := m.enter s.store.word op
          some { s with
            store := ⟨entered.1, s.store.cells⟩
            progress := Function.update s.progress thread (.inside key entered.2 s.log.length)
            log := s.log ++ [(key, op)] }
      | _ => none
  | .advance thread =>
      match s.progress thread with
      | .inside key control i =>
          (m.next (s.store.cells key) control).map fun r =>
            { s with
              store := ⟨s.store.word, Function.update s.store.cells key r.1⟩
              progress := Function.update s.progress thread (.inside key r.2 i) }
      | _ => none
  | .release thread =>
      match s.progress thread with
      | .inside key control i =>
          match m.next (s.store.cells key) control with
          | some _ => none
          | none =>
              some { s with
                owner := Function.update s.owner key none
                progress := Function.update s.progress thread .outside
                returned := s.returned ++ [(i, control)] }
      | _ => none

/-- The lock that a thread has. -/
def Progress.lock : Progress Key Op Control → Option Key
  | .outside => none
  | .locked key _ => some key
  | .inside key _ _ => some key

variable {s t u : Sections Thread Key Op Word Cell Control} {a : Action Thread Key Op}

/-- What a step can be. -/
inductive Moves (m : Machine Op Word Cell Control) (s : Sections Thread Key Op Word Cell Control) :
    Action Thread Key Op → Sections Thread Key Op Word Cell Control → Prop
  | acquire {thread : Thread} {key : Key} {op : Op} (hout : s.progress thread = .outside)
      (hfree : s.owner key = none) :
      Moves m s (.acquire thread key op) { s with
        owner := Function.update s.owner key (some thread)
        progress := Function.update s.progress thread (.locked key op) }
  | enter {thread : Thread} {key : Key} {op : Op} (hlocked : s.progress thread = .locked key op) :
      Moves m s (.enter thread) { s with
        store := ⟨(m.enter s.store.word op).1, s.store.cells⟩
        progress := Function.update s.progress thread
          (.inside key (m.enter s.store.word op).2 s.log.length)
        log := s.log ++ [(key, op)] }
  | advance {thread : Thread} {key : Key} {control control' : Control} {cell : Cell} {i : ℕ}
      (hinside : s.progress thread = .inside key control i)
      (hnext : m.next (s.store.cells key) control = some (cell, control')) :
      Moves m s (.advance thread) { s with
        store := ⟨s.store.word, Function.update s.store.cells key cell⟩
        progress := Function.update s.progress thread (.inside key control' i) }
  | release {thread : Thread} {key : Key} {control : Control} {i : ℕ}
      (hinside : s.progress thread = .inside key control i)
      (hdone : m.next (s.store.cells key) control = none) :
      Moves m s (.release thread) { s with
        owner := Function.update s.owner key none
        progress := Function.update s.progress thread .outside
        returned := s.returned ++ [(i, control)] }

lemma moves_of_step (ht : step m s a = some t) : Moves m s a t := by
  cases a with
  | acquire thread key op =>
      simp only [step] at ht
      split at ht
      · next hout hfree =>
          obtain rfl := Option.some.inj ht
          exact .acquire hout hfree
      · cases ht
  | enter thread =>
      simp only [step] at ht
      split at ht
      · next key op hlocked =>
          obtain rfl := Option.some.inj ht
          exact .enter hlocked
      · cases ht
  | advance thread =>
      simp only [step] at ht
      split at ht
      · next key control i hinside =>
          obtain ⟨⟨cell, control'⟩, hnext, rfl⟩ := Option.map_eq_some_iff.mp ht
          exact .advance hinside hnext
      · cases ht
  | release thread =>
      simp only [step] at ht
      split at ht
      · next key control i hinside =>
          split at ht
          · cases ht
          · next hdone =>
              obtain rfl := Option.some.inj ht
              exact .release hinside hdone
      · cases ht

/-! ## The invariant -/

/-- The store will be what it is after the calls of the log, one after the other: under a free lock,
or one that has just been taken, the cell is so already. -/
structure Simulates (m : Machine Op Word Cell Control) (start : Store Key Word Cell)
    (s : Sections Thread Key Op Word Cell Control) : Prop where
  owned : ∀ thread key, s.owner key = some thread ↔ (s.progress thread).lock = some key
  word : (serial m start s.log).1.word = s.store.word
  resting : ∀ key, (∀ thread control i, s.progress thread ≠ .inside key control i) →
    (serial m start s.log).1.cells key = s.store.cells key
  working : ∀ thread key control i, s.progress thread = .inside key control i →
    (serial m start s.log).1.cells key = (m.finish (s.store.cells key) control).1 ∧
      (serial m start s.log).2[i]? = some (m.finish (s.store.cells key) control).2
  returned : ∀ r ∈ s.returned, (serial m start s.log).2[r.1]? = some r.2

omit [DecidableEq Thread] in
lemma simulates_created (start : Store Key Word Cell) :
    Simulates m start (created start : Sections Thread Key Op Word Cell Control) where
  owned thread key := by simp [created, Progress.lock]
  word := rfl
  resting _ _ := rfl
  working thread key control i h := by simp [created] at h
  returned := by simp [created]

omit [DecidableEq Thread] in
/-- Two threads behind one lock are one. -/
lemma Simulates.thread_unique (hs : Simulates m start s) {thread thread' : Thread} {key : Key}
    (h : (s.progress thread).lock = some key) (h' : (s.progress thread').lock = some key) :
    thread = thread' := by
  have howner := (hs.owned thread key).mpr h
  rw [(hs.owned thread' key).mpr h'] at howner
  exact (Option.some.inj howner).symm

/-- A thread after one of them has moved. -/
lemma update_eq_iff {Value : Type*} {f : Thread → Value} {thread thread' : Thread}
    {value value' : Value} :
    Function.update f thread value thread' = value' ↔
      (thread' = thread ∧ value = value') ∨ (thread' ≠ thread ∧ f thread' = value') := by
  rw [Function.update_apply]
  split <;> simp [*]

/-- Taking a free lock. -/
lemma Simulates.owned_acquire (hs : Simulates m start s) {thread : Thread} {key : Key} {op : Op}
    (hout : s.progress thread = .outside) (hfree : s.owner key = none) (thread' : Thread)
    (key' : Key) :
    Function.update s.owner key (some thread) key' = some thread' ↔
      (Function.update s.progress thread (.locked key op) thread').lock = some key' := by
  rcases eq_or_ne thread' thread with rfl | hne
  · rw [Function.update_self, Progress.lock, Option.some.injEq, update_eq_iff]
    have hnot : s.owner key' ≠ some thread' := by simp [hs.owned, hout, Progress.lock]
    simp [hnot, eq_comm]
  · rw [Function.update_of_ne hne, ← hs.owned, update_eq_iff]
    constructor
    · rintro (⟨_, heq⟩ | ⟨_, howner⟩)
      · exact absurd (Option.some.inj heq).symm hne
      · exact howner
    · intro howner
      refine Or.inr ⟨?_, howner⟩
      rintro rfl
      rw [hfree] at howner
      cases howner

/-- Letting a lock go. -/
lemma Simulates.owned_release (hs : Simulates m start s) {thread : Thread} {key : Key}
    (hlock : (s.progress thread).lock = some key) (thread' : Thread) (key' : Key) :
    Function.update s.owner key none key' = some thread' ↔
      (Function.update s.progress thread .outside thread').lock = some key' := by
  rcases eq_or_ne thread' thread with rfl | hne
  · rw [Function.update_self, Progress.lock, update_eq_iff]
    have hother : s.owner key' = some thread' → key' = key := by
      rw [hs.owned, hlock, Option.some.injEq]
      exact Eq.symm
    simpa using fun hne howner => hne (hother howner)
  · rw [Function.update_of_ne hne, ← hs.owned, update_eq_iff]
    have hother : s.owner key' = some thread' → key' ≠ key := by
      rintro howner rfl
      exact hne (hs.thread_unique ((hs.owned _ _).mp howner) hlock)
    simpa using hother

/-- Moving on behind a lock. -/
lemma Simulates.owned_move (hs : Simulates m start s) {thread : Thread}
    {progress : Progress Key Op Control} (hlock : progress.lock = (s.progress thread).lock)
    (thread' : Thread) (key' : Key) :
    s.owner key' = some thread' ↔
      (Function.update s.progress thread progress thread').lock = some key' := by
  rcases eq_or_ne thread' thread with rfl | hne
  · rw [Function.update_self, hlock, hs.owned]
  · rw [Function.update_of_ne hne, hs.owned]

omit [DecidableEq Thread] in
/-- What the log comes to with a call that has just accessed the shared word. -/
lemma Simulates.serial_enter (hs : Simulates m start s) {thread : Thread} {key : Key} {op : Op}
    (hlocked : s.progress thread = .locked key op) :
    serial m start (s.log ++ [(key, op)]) =
      (⟨(m.enter s.store.word op).1, Function.update (serial m start s.log).1.cells key
          (m.finish (s.store.cells key) (m.enter s.store.word op).2).1⟩,
        (serial m start s.log).2 ++
          [(m.finish (s.store.cells key) (m.enter s.store.word op).2).2]) := by
  have hcell : (serial m start s.log).1.cells key = s.store.cells key := by
    refine hs.resting key fun thread' control i hinside => ?_
    obtain rfl := hs.thread_unique (congrArg Progress.lock hinside)
      (congrArg Progress.lock hlocked)
    rw [hlocked] at hinside
    cases hinside
  rw [serial_concat, Machine.call, hs.word, hcell]

omit [DecidableEq Thread] in
/-- Another thread is behind another lock. -/
lemma Simulates.working_other (hs : Simulates m start s) {thread thread' : Thread} {key key' : Key}
    {control' : Control} {i : ℕ} (hlock : (s.progress thread).lock = some key)
    (hne : thread' ≠ thread) (hinside : s.progress thread' = .inside key' control' i) :
    key' ≠ key := by
  rintro rfl
  exact hne (hs.thread_unique (congrArg Progress.lock hinside) hlock)

theorem simulates_step (s : Sections Thread Key Op Word Cell Control) (a : Action Thread Key Op)
    (t : Sections Thread Key Op Word Cell Control) (hs : Simulates m start s)
    (ht : step m s a = some t) : Simulates m start t := by
  cases moves_of_step ht with
  | acquire hout hfree =>
      refine ⟨hs.owned_acquire hout hfree, hs.word, ?_, ?_, hs.returned⟩
      · intro key' hnobody
        refine hs.resting key' fun thread' control i hinside => ?_
        refine hnobody thread' control i (update_eq_iff.mpr (Or.inr ⟨?_, hinside⟩))
        rintro rfl
        rw [hout] at hinside
        cases hinside
      · intro thread' key' control i hinside
        rcases update_eq_iff.mp hinside with ⟨_, hlocked⟩ | ⟨_, hinside⟩
        · cases hlocked
        · exact hs.working thread' key' control i hinside
  | enter hlocked =>
      rename_i thread key op
      have hlock : (s.progress thread).lock = some key := congrArg Progress.lock hlocked
      have hserial := hs.serial_enter hlocked
      refine ⟨hs.owned_move hlock.symm, by rw [hserial], ?_, ?_, ?_⟩
      · intro key' hnobody
        have hkey : key' ≠ key := by
          rintro rfl
          exact hnobody thread _ _ (Function.update_self ..)
        rw [hserial]
        refine (Function.update_of_ne hkey ..).trans (hs.resting key' ?_)
        intro thread' control i hinside
        refine hnobody thread' control i (update_eq_iff.mpr (Or.inr ⟨?_, hinside⟩))
        rintro rfl
        rw [hlocked] at hinside
        cases hinside
      · intro thread' key' control i hinside
        rcases update_eq_iff.mp hinside with ⟨rfl, heq⟩ | ⟨hne, hinside⟩
        · cases heq
          have hlength : (serial m start s.log).2.length = s.log.length := length_serial
          rw [hserial, ← hlength, List.getElem?_concat_length]
          exact ⟨Function.update_self .., rfl⟩
        · obtain ⟨hcell, hresult⟩ := hs.working thread' key' control i hinside
          refine ⟨?_, getElem?_serial_concat key op hresult⟩
          rw [hserial]
          exact (Function.update_of_ne (hs.working_other hlock hne hinside) ..).trans hcell
      · exact fun r hr => getElem?_serial_concat key op (hs.returned r hr)
  | advance hinside hnext =>
      rename_i thread key control control' cell i
      have hlock : (s.progress thread).lock = some key := congrArg Progress.lock hinside
      have hfate := m.finish_of_next _ _ _ hnext
      refine ⟨hs.owned_move hlock.symm, hs.word, ?_, ?_, hs.returned⟩
      · intro key' hnobody
        have hkey : key' ≠ key := by
          rintro rfl
          exact hnobody thread _ _ (Function.update_self ..)
        refine (hs.resting key' ?_).trans (Function.update_of_ne hkey ..).symm
        intro thread' control i hinside'
        refine hnobody thread' control i (update_eq_iff.mpr (Or.inr ⟨?_, hinside'⟩))
        rintro rfl
        rw [hinside] at hinside'
        cases hinside'
        exact hkey rfl
      · intro thread' key' control'' i' hinside'
        rcases update_eq_iff.mp hinside' with ⟨rfl, heq⟩ | ⟨hne, hinside'⟩
        · cases heq
          obtain ⟨hcell, hresult⟩ := hs.working thread' key control i hinside
          have hsame : m.finish (Function.update s.store.cells key cell key) control'
              = m.finish (s.store.cells key) control := by
            rw [Function.update_self]
            exact hfate
          exact ⟨hcell.trans (congrArg Prod.fst hsame).symm,
            hresult.trans (congrArg (fun r => some r.2) hsame).symm⟩
        · obtain ⟨hcell, hresult⟩ := hs.working thread' key' control'' i' hinside'
          have hsame : m.finish (Function.update s.store.cells key cell key') control''
              = m.finish (s.store.cells key') control'' := by
            rw [Function.update_of_ne (hs.working_other hlock hne hinside')]
          exact ⟨hcell.trans (congrArg Prod.fst hsame).symm,
            hresult.trans (congrArg (fun r => some r.2) hsame).symm⟩
  | release hinside hdone =>
      rename_i thread key control i
      have hlock : (s.progress thread).lock = some key := congrArg Progress.lock hinside
      obtain ⟨hcell, hresult⟩ := hs.working thread key control i hinside
      rw [m.finish_of_none _ _ hdone] at hcell hresult
      refine ⟨hs.owned_release hlock, hs.word, ?_, ?_, ?_⟩
      · intro key' hnobody
        rcases eq_or_ne key' key with rfl | hkey
        · exact hcell
        · refine hs.resting key' fun thread' control i hinside' => ?_
          refine hnobody thread' control i (update_eq_iff.mpr (Or.inr ⟨?_, hinside'⟩))
          rintro rfl
          rw [hinside] at hinside'
          cases hinside'
          exact hkey rfl
      · intro thread' key' control' i' hinside'
        rcases update_eq_iff.mp hinside' with ⟨_, hout⟩ | ⟨_, hinside'⟩
        · cases hout
        · exact hs.working thread' key' control' i' hinside'
      · intro r hr
        rcases List.mem_append.mp hr with hr | hr
        · exact hs.returned r hr
        · obtain rfl := List.mem_singleton.mp hr
          exact hresult

/-- **Serial calls.**  In every interleaving, each call that has returned has returned what it does
when the calls are made one after the other, in the order of their accesses to the shared word; and
while no thread is inside, the store is what it is after these calls. -/
theorem serial_of_run {acts : List (Action Thread Key Op)}
    (hu : run (step m) (created start) acts = some u) :
    (∀ r ∈ u.returned, (serial m start u.log).2[r.1]? = some r.2) ∧
      ((∀ thread, (u.progress thread).lock = none) →
        (serial m start u.log).1 = u.store) := by
  have hsim := run_invariant (I := Simulates m start) simulates_step (simulates_created start) hu
  refine ⟨hsim.returned, fun hout => ?_⟩
  have hcells : (serial m start u.log).1.cells = u.store.cells := by
    funext key
    refine hsim.resting key fun thread control i hinside => ?_
    have hnone := hout thread
    rw [hinside] at hnone
    cases hnone
  have hword := hsim.word
  cases hfinal : (serial m start u.log).1
  rw [hfinal] at hcells hword
  cases hstore : u.store
  simp_all

/-! ## Invariants of the cells -/

/-- What holds of the cells, and of the calls that are behind their access to the shared word. -/
structure Keeps (C : Key → Cell → Prop) (J : Key → Control → Prop)
    (s : Sections Thread Key Op Word Cell Control) : Prop where
  cells : ∀ key, C key (s.store.cells key)
  controls : ∀ thread key control i, s.progress thread = .inside key control i → J key control

section Keeps

variable {A : Key → Op → Prop} {C : Key → Cell → Prop} {J : Key → Control → Prop}

omit [DecidableEq Thread] [DecidableEq Key] in
lemma keeps_created (hstart : ∀ key, C key (start.cells key)) :
    Keeps C J (created start : Sections Thread Key Op Word Cell Control) :=
  ⟨hstart, fun thread key control i hinside => by simp [created] at hinside⟩

/-- Only the step of a thread inside changes a cell, and only that of its own key. -/
lemma keeps_step (henter : ∀ key op word, A key op → J key (m.enter word op).2)
    (hnext : ∀ key cell control r, C key cell → J key control →
      m.next cell control = some r → C key r.1 ∧ J key r.2)
    (hs : (∀ call ∈ s.log, A call.1 call.2) → Keeps C J s) (ht : step m s a = some t)
    (hcalls : ∀ call ∈ t.log, A call.1 call.2) : Keeps C J t := by
  cases moves_of_step ht with
  | acquire hout hfree =>
      refine ⟨(hs hcalls).cells, fun thread key control i hinside => ?_⟩
      rcases update_eq_iff.mp hinside with ⟨_, hlocked⟩ | ⟨_, hinside⟩
      · cases hlocked
      · exact (hs hcalls).controls thread key control i hinside
  | enter hlocked =>
      have hkept := hs fun call hcall => hcalls call (List.mem_append_left _ hcall)
      refine ⟨hkept.cells, fun thread key control i hinside => ?_⟩
      rcases update_eq_iff.mp hinside with ⟨_, heq⟩ | ⟨_, hinside⟩
      · cases heq
        exact henter _ _ _ (hcalls _ (List.mem_append_right _ (List.mem_singleton_self _)))
      · exact hkept.controls thread key control i hinside
  | @advance thread key control control' cell i hinside hnext' =>
      obtain ⟨hcell, hcontrol⟩ := hnext key _ control _ ((hs hcalls).cells key)
        ((hs hcalls).controls thread key control i hinside) hnext'
      refine ⟨fun key' => ?_, fun thread' key' control'' i' hinside' => ?_⟩
      · show C key' (Function.update s.store.cells key cell key')
        rcases eq_or_ne key' key with rfl | hkey
        · rwa [Function.update_self]
        · rw [Function.update_of_ne hkey]
          exact (hs hcalls).cells key'
      · rcases update_eq_iff.mp hinside' with ⟨_, heq⟩ | ⟨_, hinside'⟩
        · cases heq
          exact hcontrol
        · exact (hs hcalls).controls thread' key' control'' i' hinside'
  | release hinside hdone =>
      refine ⟨(hs hcalls).cells, fun thread key control i hinside' => ?_⟩
      rcases update_eq_iff.mp hinside' with ⟨_, hout⟩ | ⟨_, hinside'⟩
      · cases hout
      · exact (hs hcalls).controls thread key control i hinside'

/-- **Cells.**  What every small step of the calls that are made keeps of a cell holds of it in
every state that is reached, inside the calls, too.  What is known of a call behind its access to
the shared word goes along with it. -/
theorem cells_of_run {acts : List (Action Thread Key Op)}
    (henter : ∀ key op word, A key op → J key (m.enter word op).2)
    (hnext : ∀ key cell control r, C key cell → J key control →
      m.next cell control = some r → C key r.1 ∧ J key r.2)
    (hstart : ∀ key, C key (start.cells key))
    (hu : run (step m) (created start) acts = some u)
    (hcalls : ∀ call ∈ u.log, A call.1 call.2) (key : Key) : C key (u.store.cells key) := by
  have hkeeps := run_invariant (I := fun s => (∀ call ∈ s.log, A call.1 call.2) → Keeps C J s)
    (fun _ _ _ hs ht => keeps_step henter hnext hs ht) (fun _ => keeps_created hstart) hu
  exact (hkeeps hcalls).cells key

end Keeps

end LockedSections
