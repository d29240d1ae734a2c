import FFNetwork.Base.MessageLoop.QueueIsolation
import FFNetwork.Lib.SharedOwnership

/-!
# Who owns a message loop

`source/base/messageloop/message_loop.cpp` and `task_runner.cpp`: a thread has its `MessageLoop` in
thread-local storage, which deletes it when the thread ends.  The loop and its task runner share the
`MessageLoopImpl`, whose constructor creates a queue in the store and whose destructor disposes of
it.  Task runners are handed around freely, and outlive the threads of their loops.  Each method of
the store is one step here: what its `std::map` does when one thread creates or disposes of a queue
while another looks one up is left out.

* `LoopOwners.step` — the threads, the pointers and the store.
* `Sound` — the invariant: a queue is in the store as long as its `MessageLoopImpl` is alive.
* **`queues_outlive_runners`** — no call through a pointer misses its queue, and no queue is left
  behind.
* **`runNowOrPostTask_by_thread`** — `RunNowOrPostTask` runs the task at once on the thread of the
  loop, and posts it from everywhere else.
-/

namespace FFNetwork

open SharedOwnership StepSystem

/-- The objects of the loops, by the numbers of their loops. -/
inductive LoopObject
  | messageLoop (n : ℕ)
  | taskRunner (n : ℕ)
  | loopImpl (n : ℕ)
deriving DecidableEq

/-- The number of the loop that the object belongs to. -/
def LoopObject.number : LoopObject → ℕ
  | .messageLoop n | .taskRunner n | .loopImpl n => n

/-- The pointers, the store and the loop of each thread, by its number. -/
structure LoopOwners (Thread Closure Q : Type) where
  owners : Owners LoopObject
  shared : SharedStore Closure Q
  tls_message_loop : Thread → Option ℕ

/-- What threads do with their loops and with the pointers to them. -/
inductive LoopOwnersAction (Thread Closure : Type)
  | ensureInitializedForCurrentThread (thread : Thread)
  /-- `GetCurrent().GetTaskRunner()`. -/
  | getTaskRunner (thread : Thread)
  /-- `GetCurrent().GetLoopImpl()`. -/
  | getLoopImpl (thread : Thread)
  /-- A pointer to a task runner or a `MessageLoopImpl` is copied or dropped, or one more pointer is
  let go. -/
  | own (a : OwnerAction LoopObject)
  /-- A call on the store through a pointer to the loop. -/
  | call (n : ℕ) (op : QueueOp Closure)
  | threadExits (thread : Thread)

namespace LoopOwners

variable {Thread Closure Q : Type} [DecidableEq Thread] [DelayedTaskQueue Q Closure]
  {s t : LoopOwners Thread Closure Q} {a : LoopOwnersAction Thread Closure}

omit [DecidableEq Thread] [DelayedTaskQueue Q Closure] in
/-- No thread has a loop. -/
def create : LoopOwners Thread Closure Q := ⟨.empty, .new, fun _ => none⟩

/-- `MessageLoop::MessageLoop`: the `MessageLoopImpl`, with one pointer in the task runner and one
in the loop. -/
def construct (n : ℕ) : List (OwnerAction LoopObject) :=
  [.make (.loopImpl n) [], .copy (.loopImpl n), .make (.taskRunner n) [.loopImpl n],
    .make (.messageLoop n) [.loopImpl n, .taskRunner n]]

/-- `MessageLoopImpl::MessageLoopImpl` in the store. -/
def constructQueue (shared : SharedStore Closure Q) : Option (SharedStore Closure Q) :=
  (shared.step .createTaskQueue).bind fun r =>
    r.step (.on shared.store.createTaskQueue.1 .setWakeable)

/-- What users do with their pointers.  The pointer to a `MessageLoop` stays with its thread. -/
def allows : OwnerAction LoopObject → Bool
  | .copy (.taskRunner _) | .copy (.loopImpl _) | .drop (.taskRunner _) | .drop (.loopImpl _)
  | .release _ => true
  | _ => false

/-- The destructor of a `MessageLoopImpl` disposes of its queue. -/
def disposed (s : LoopOwners Thread Closure Q) : OwnerAction LoopObject →
    Option (SharedStore Closure Q)
  | .release (.loopImpl n) =>
      if s.owners.use_count (.loopImpl n) = 1 then
        s.shared.created[n]?.bind fun queue_id_ => s.shared.step (.on queue_id_ .dispose)
      else some s.shared
  | _ => some s.shared

/-- Somebody holds a pointer that leads to the `MessageLoopImpl`. -/
def CanCall (s : LoopOwners Thread Closure Q) (n : ℕ) : Prop :=
  .messageLoop n ∈ s.owners.held ∨ .taskRunner n ∈ s.owners.held ∨ .loopImpl n ∈ s.owners.held

instance (s : LoopOwners Thread Closure Q) (n : ℕ) : Decidable (s.CanCall n) :=
  inferInstanceAs (Decidable (_ ∨ _ ∨ _))

/-- The methods that `MessageLoopImpl` calls between its constructor and its destructor. -/
def ordinary : QueueOp Closure → Bool
  | .dispose | .setWakeable => false
  | _ => true

/-- The step function; a thread without a loop that asks for its own ends the process. -/
def step (s : LoopOwners Thread Closure Q) :
    LoopOwnersAction Thread Closure → Option (LoopOwners Thread Closure Q)
  | .ensureInitializedForCurrentThread thread =>
      match s.tls_message_loop thread with
      | some _ => some s
      | none =>
          let n := s.shared.created.length
          (run Owners.step s.owners (construct n)).bind fun owners =>
            (constructQueue s.shared).map fun shared =>
              ⟨owners, shared, Function.update s.tls_message_loop thread (some n)⟩
  | .getTaskRunner thread =>
      -- without a loop an `FF_CHECK` ends the process
      (s.tls_message_loop thread).bind fun n =>
        (s.owners.step (.load (.messageLoop n) (.taskRunner n))).map fun owners =>
          { s with owners := owners }
  | .getLoopImpl thread =>
      (s.tls_message_loop thread).bind fun n =>
        (s.owners.step (.load (.messageLoop n) (.loopImpl n))).map fun owners =>
          { s with owners := owners }
  | .own a =>
      if allows a then
        (s.owners.step a).bind fun owners =>
          (s.disposed a).map fun shared => { s with owners := owners, shared := shared }
      else none
  | .call n op =>
      if s.CanCall n ∧ ordinary op then
        s.shared.created[n]?.bind fun queue_id_ =>
          (s.shared.step (.on queue_id_ op)).map fun shared => { s with shared := shared }
      else none
  | .threadExits thread =>
      (s.tls_message_loop thread).bind fun n =>
        (s.owners.step (.drop (.messageLoop n))).map fun owners =>
          { s with
            owners := owners
            tls_message_loop := Function.update s.tls_message_loop thread none }

/-- What a step can do. -/
inductive Moves (s : LoopOwners Thread Closure Q) :
    LoopOwnersAction Thread Closure → LoopOwners Thread Closure Q → Prop
  | initialized {thread : Thread} {n : ℕ} (htls : s.tls_message_loop thread = some n) :
      s.Moves (.ensureInitializedForCurrentThread thread) s
  | construct {thread : Thread} {owners : Owners LoopObject} {shared : SharedStore Closure Q}
      (htls : s.tls_message_loop thread = none)
      (howners : run Owners.step s.owners (construct s.shared.created.length) = some owners)
      (hshared : constructQueue s.shared = some shared) :
      s.Moves (.ensureInitializedForCurrentThread thread) ⟨owners, shared,
        Function.update s.tls_message_loop thread (some s.shared.created.length)⟩
  | load {a : LoopOwnersAction Thread Closure} {thread : Thread} {n : ℕ} {o : LoopObject}
      {owners : Owners LoopObject} (htls : s.tls_message_loop thread = some n)
      (ho : ∀ m, o ≠ .messageLoop m)
      (howners : s.owners.step (.load (.messageLoop n) o) = some owners) :
      s.Moves a { s with owners := owners }
  | own {a : OwnerAction LoopObject} {owners : Owners LoopObject} (hallows : allows a = true)
      (howners : s.owners.step a = some owners)
      (hmore : ∀ n, a = .release (.loopImpl n) → s.owners.use_count (.loopImpl n) ≠ 1) :
      s.Moves (.own a) { s with owners := owners }
  | dispose {n : ℕ} {queue_id_ : TaskQueueId} {owners : Owners LoopObject}
      {shared : SharedStore Closure Q}
      (howners : s.owners.step (.release (.loopImpl n)) = some owners)
      (hlast : s.owners.use_count (.loopImpl n) = 1)
      (hid : s.shared.created[n]? = some queue_id_)
      (hshared : s.shared.step (.on queue_id_ .dispose) = some shared) :
      s.Moves (.own (.release (.loopImpl n))) { s with owners := owners, shared := shared }
  | call {n : ℕ} {op : QueueOp Closure} {queue_id_ : TaskQueueId} {shared : SharedStore Closure Q}
      (hcan : s.CanCall n) (hordinary : ordinary op = true)
      (hid : s.shared.created[n]? = some queue_id_)
      (hshared : s.shared.step (.on queue_id_ op) = some shared) :
      s.Moves (.call n op) { s with shared := shared }
  | threadExits {thread : Thread} {n : ℕ} {owners : Owners LoopObject}
      (htls : s.tls_message_loop thread = some n)
      (howners : s.owners.step (.drop (.messageLoop n)) = some owners) :
      s.Moves (.threadExits thread) { s with
        owners := owners
        tls_message_loop := Function.update s.tls_message_loop thread none }

omit [DecidableEq Thread] in
/-- A release that is not the last of a `MessageLoopImpl` leaves the store as it is. -/
lemma disposed_of_more {a : OwnerAction LoopObject}
    (hmore : ∀ n, a = .release (.loopImpl n) → s.owners.use_count (.loopImpl n) ≠ 1) :
    s.disposed a = some s.shared := by
  cases a with
  | release o =>
      cases o with
      | loopImpl n => exact if_neg (hmore n rfl)
      | _ => rfl
  | _ => rfl

/-- **What one step does.** -/
theorem moves_of_step (ht : s.step a = some t) : s.Moves a t := by
  cases a with
  | ensureInitializedForCurrentThread thread =>
      simp only [step] at ht
      split at ht
      · next n htls =>
          cases ht
          exact .initialized htls
      · next htls =>
          rcases Option.bind_eq_some_iff.mp ht with ⟨owners, howners, ht⟩
          rcases Option.map_eq_some_iff.mp ht with ⟨shared, hshared, rfl⟩
          exact .construct htls howners hshared
  | getTaskRunner thread | getLoopImpl thread =>
      rcases Option.bind_eq_some_iff.mp ht with ⟨n, htls, ht⟩
      rcases Option.map_eq_some_iff.mp ht with ⟨owners, howners, rfl⟩
      exact .load htls (by simp) howners
  | own a =>
      simp only [step, Option.ite_none_right_eq_some] at ht
      rcases ht with ⟨hallows, ht⟩
      rcases Option.bind_eq_some_iff.mp ht with ⟨owners, howners, ht⟩
      rcases Option.map_eq_some_iff.mp ht with ⟨shared, hshared, rfl⟩
      by_cases hlast : ∃ n, a = .release (.loopImpl n) ∧ s.owners.use_count (.loopImpl n) = 1
      · rcases hlast with ⟨n, rfl, hlast⟩
        rw [disposed, if_pos hlast] at hshared
        rcases Option.bind_eq_some_iff.mp hshared with ⟨queue_id_, hid, hshared⟩
        exact .dispose howners hlast hid hshared
      · have hmore : ∀ n, a = .release (.loopImpl n) → s.owners.use_count (.loopImpl n) ≠ 1 :=
          fun n ha hone => hlast ⟨n, ha, hone⟩
        rw [disposed_of_more hmore] at hshared
        cases hshared
        exact .own hallows howners hmore
  | call n op =>
      simp only [step, Option.ite_none_right_eq_some] at ht
      rcases ht with ⟨⟨hcan, hordinary⟩, ht⟩
      rcases Option.bind_eq_some_iff.mp ht with ⟨queue_id_, hid, ht⟩
      rcases Option.map_eq_some_iff.mp ht with ⟨shared, hshared, rfl⟩
      exact .call hcan hordinary hid hshared
  | threadExits thread =>
      rcases Option.bind_eq_some_iff.mp ht with ⟨n, htls, ht⟩
      rcases Option.map_eq_some_iff.mp ht with ⟨owners, howners, rfl⟩
      exact .threadExits htls howners

/-! ## One call on the store -/

omit [DecidableEq Thread] in
/-- With its mutex and its entry there, a queue can be called. -/
lemma perform_ok {qs : MessageLoopTaskQueues Closure Q} {queue_id : TaskQueueId}
    {op : QueueOp Closure} (hlock : qs.queue_locks_ queue_id.toInt = true)
    (hentry : (qs.entry queue_id).isSome = true) (hop : op ≠ .setWakeable) :
    ∃ qs', qs.perform queue_id op = .ok qs' := by
  have hmutex : qs.getMutex queue_id = .ok () := if_pos hlock
  rcases Option.isSome_iff_exists.mp hentry with ⟨e, he⟩
  have hat : qs.entryAt queue_id = .ok e := MessageLoopTaskQueues.entryAt_eq_ok.mpr he
  have href : qs.entryRef queue_id = .ok e := MessageLoopTaskQueues.entryRef_eq_ok.mpr he
  have hbind {α β : Type} {x : Except Fault α} {f : α → Except Fault β} {b : β} :
      x >>= f = .ok b ↔ ∃ a, x = .ok a ∧ f a = .ok b := MessageLoopTaskQueues.bind_eq_ok
  cases op with
  | setWakeable => exact absurd rfl hop
  | registerTask task target_time =>
      exact ⟨_, MessageLoopTaskQueues.registerTask_eq_ok.mpr ⟨hmutex, e, he, rfl⟩⟩
  | dispose => exact ⟨_, hbind.mpr ⟨(), hmutex, rfl⟩⟩
  | disposeTasks =>
      exact ⟨_, MessageLoopTaskQueues.disposeTasks_eq_ok.mpr ⟨hmutex, e, he, rfl⟩⟩
  | getTasksToRunNow type now invocations =>
      exact ⟨_, hbind.mpr ⟨_, MessageLoopTaskQueues.getTasksToRunNow_eq_ok.mpr
        ⟨hmutex, e, he, rfl⟩, rfl⟩⟩
  | hasPendingTask | getNumPendingTasks | getObserversToNotify =>
      exact ⟨_, hbind.mpr ⟨_, hbind.mpr ⟨(), hmutex, hbind.mpr ⟨e, hat, rfl⟩⟩, rfl⟩⟩
  | addTaskObserver _ _ | removeTaskObserver _ =>
      exact ⟨_, hbind.mpr ⟨(), hmutex, hbind.mpr ⟨e, href, rfl⟩⟩⟩

omit [DecidableEq Thread] in
lemma perform_locks {qs qs' : MessageLoopTaskQueues Closure Q} {queue_id : TaskQueueId}
    {op : QueueOp Closure} (h : qs.perform queue_id op = .ok qs') :
    qs'.queue_locks_ = qs.queue_locks_ := by
  rcases MessageLoopTaskQueues.perform_cases h with rfl | ⟨e, order, rfl⟩ | ⟨_, rfl⟩ <;> rfl

/-! ## The invariant -/

/-- The objects of every loop made so far, and its queue, which is in the store as long as its
`MessageLoopImpl` is alive.  The thread of a loop holds the one pointer to it. -/
structure Sound (s : LoopOwners Thread Closure Q) : Prop where
  counted : s.owners.Counted
  roomy : s.shared.Roomy
  locks : ∀ id ∈ s.shared.created, s.shared.store.queue_locks_ id.toInt = true
  made : ∀ o, o ∈ s.owners.made ↔ o.number < s.shared.created.length
  entry : ∀ n < s.shared.created.length,
    (s.shared.store.entry (.numbered n)).isSome = true ↔ .loopImpl n ∈ s.owners.live
  loop : ∀ n < s.shared.created.length,
    s.owners.fields (.messageLoop n) = [.loopImpl n, .taskRunner n]
  runner : ∀ n < s.shared.created.length, s.owners.fields (.taskRunner n) = [.loopImpl n]
  impl : ∀ n < s.shared.created.length, s.owners.fields (.loopImpl n) = []
  single : ∀ n, s.owners.held.count (.messageLoop n) ≤ 1
  tls : ∀ n, .messageLoop n ∈ s.owners.held ↔ ∃ thread, s.tls_message_loop thread = some n
  unique : ∀ thread thread' n, s.tls_message_loop thread = some n →
    s.tls_message_loop thread' = some n → thread = thread'

omit [DecidableEq Thread] [DelayedTaskQueue Q Closure] in
lemma sound_create : (create : LoopOwners Thread Closure Q).Sound where
  counted := Owners.counted_empty
  roomy := SharedStore.new_roomy
  locks _ hid := nomatch hid
  made o := by simp [create, Owners.empty, SharedStore.new]
  entry n hn := nomatch hn
  loop n hn := nomatch hn
  runner n hn := nomatch hn
  impl n hn := nomatch hn
  single n := by simp [create, Owners.empty]
  tls n := by simp [create, Owners.empty]
  unique _ _ _ h := nomatch h

omit [DecidableEq Thread] [DelayedTaskQueue Q Closure] in
/-- The `queue_id_` of a loop. -/
lemma Sound.queue_id (hs : s.Sound) {n : ℕ} {id : TaskQueueId}
    (hid : s.shared.created[n]? = some id) :
    n < s.shared.created.length ∧ id = .numbered n ∧ id ∈ s.shared.created := by
  rcases List.getElem?_eq_some_iff.mp hid with ⟨hn, hget⟩
  refine ⟨hn, ?_, List.mem_of_getElem? hid⟩
  have hcreated := hs.roomy.created
  rw [hcreated, List.getElem?_map, List.getElem?_range hn] at hid
  exact (Option.some.inj hid).symm

omit [DecidableEq Thread] [DelayedTaskQueue Q Closure] in
lemma Sound.numbered_mem (hs : s.Sound) {n : ℕ} (hn : n < s.shared.created.length) :
    s.shared.created[n]? = some (.numbered n) ∧ .numbered n ∈ s.shared.created := by
  have hget : s.shared.created[n]? = some (.numbered n) := by
    rw [hs.roomy.created, List.getElem?_map, List.getElem?_range hn]
    rfl
  exact ⟨hget, List.mem_of_getElem? hget⟩

omit [DecidableEq Thread] [DelayedTaskQueue Q Closure] in
/-- As long as an object of a loop is alive, its `MessageLoopImpl` is. -/
lemma Sound.impl_live (hs : s.Sound) {o : LoopObject} (ho : o ∈ s.owners.live) :
    o.number < s.shared.created.length ∧ .loopImpl o.number ∈ s.owners.live := by
  have hn : o.number < s.shared.created.length :=
    (hs.made o).mp ((hs.counted.made o).mpr (Or.inl ho))
  refine ⟨hn, ?_⟩
  cases o with
  | messageLoop n =>
      refine hs.counted.field_live ho ?_
      rw [hs.loop n hn]
      exact List.mem_cons_self ..
  | taskRunner n =>
      refine hs.counted.field_live ho ?_
      rw [hs.runner n hn]
      exact List.mem_cons_self ..
  | loopImpl n => exact ho

omit [DecidableEq Thread] [DelayedTaskQueue Q Closure] in
/-- Who can call has the `MessageLoopImpl` alive. -/
lemma Sound.live_of_canCall (hs : s.Sound) {n : ℕ} (hcan : s.CanCall n) :
    n < s.shared.created.length ∧ .loopImpl n ∈ s.owners.live := by
  rcases hcan with hheld | hheld | hheld
  · exact hs.impl_live (hs.counted.held_live hheld)
  · exact hs.impl_live (hs.counted.held_live hheld)
  · exact hs.impl_live (hs.counted.held_live hheld)

omit [DecidableEq Thread] in
/-- The call goes through. -/
lemma Sound.perform (hs : s.Sound) {n : ℕ} (hn : n < s.shared.created.length)
    (hlive : .loopImpl n ∈ s.owners.live) {op : QueueOp Closure} (hop : op ≠ .setWakeable) :
    ∃ store, s.shared.store.perform (.numbered n) op = .ok store :=
  perform_ok (hs.locks _ (hs.numbered_mem hn).2) ((hs.entry n hn).mpr hlive) hop

/-- The store after a call on queue `n`, which may have been its end. -/
structure Called (shared shared' : SharedStore Closure Q) (n : ℕ) (disposed : Prop) : Prop where
  roomy : shared'.Roomy
  created : shared'.created = shared.created
  locks : shared'.store.queue_locks_ = shared.store.queue_locks_
  others : ∀ m < shared.created.length, m ≠ n →
    shared'.store.entry (.numbered m) = shared.store.entry (.numbered m)
  itself : (shared'.store.entry (.numbered n)).isSome = true ↔ ¬ disposed

omit [DecidableEq Thread] in
lemma Sound.called (hs : s.Sound) {n : ℕ} (hn : n < s.shared.created.length)
    (hlive : .loopImpl n ∈ s.owners.live) {op : QueueOp Closure} (hop : op ≠ .setWakeable)
    {shared : SharedStore Closure Q} (hstep : s.shared.step (.on (.numbered n) op) = some shared) :
    Called s.shared shared n (op = .dispose) := by
  have hmem := (hs.numbered_mem hn).2
  have hfew := hs.roomy.few
  rcases hs.perform hn hlive hop with ⟨store, hperform⟩
  have hroomy := (SharedStore.step_on_isolated hs.roomy (by omega) hstep).1
  have hshared : shared.store = store ∧ shared.created = s.shared.created := by
    have hcontains : s.shared.created.contains (.numbered n) = true := by simpa using hmem
    simp only [SharedStore.step, hcontains, if_true, hperform] at hstep
    cases op <;> cases hstep <;> exact ⟨rfl, rfl⟩
  refine ⟨hroomy, hshared.2, ?_, fun m hm hne => ?_, ?_⟩
  · rw [hshared.1, perform_locks hperform]
  · rw [hshared.1]
    refine MessageLoopTaskQueues.frame_perform hperform fun hkey => hne ?_
    exact (TaskQueueId.numbered_toInt_inj (by omega) (by omega)).mp hkey
  · rw [hshared.1]
    by_cases hdispose : op = .dispose
    · subst hdispose
      rcases MessageLoopTaskQueues.bind_eq_ok.mp hperform with ⟨_, _, hstore⟩
      cases hstore
      simp [MessageLoopTaskQueues.entry]
    · exact iff_of_true (MessageLoopTaskQueues.perform_isSome hperform hdispose
        ((hs.entry n hn).mpr hlive)) hdispose

/-! ## The steps -/

/-- What users do with their pointers, but for the end of a `MessageLoopImpl`. -/
structure Kept (owners owners' : Owners LoopObject) : Prop where
  counted : owners'.Counted
  made : owners'.made = owners.made
  fields : owners'.fields = owners.fields
  held : ∀ n, owners'.held.count (.messageLoop n) = owners.held.count (.messageLoop n)
  live : ∀ n, .loopImpl n ∈ owners'.live ↔ .loopImpl n ∈ owners.live

lemma kept_share {owners : Owners LoopObject} {o : LoopObject} (cs : (owners.share o).Counted)
    (ho : ∀ m, o ≠ .messageLoop m) : Kept owners (owners.share o) where
  counted := cs
  made := rfl
  fields := rfl
  held n := by
    show (owners.held ++ [o]).count (.messageLoop n) = _
    rw [List.count_append, List.count_singleton, beq_false_of_ne (ho n)]
    rfl
  live n := Iff.rfl

lemma kept_step {owners owners' : Owners LoopObject} (cs : owners.Counted)
    {a : OwnerAction LoopObject} (hallows : allows a = true)
    (hstep : owners.step a = some owners')
    (hmore : ∀ n, a = .release (.loopImpl n) → owners.use_count (.loopImpl n) ≠ 1) :
    Kept owners owners' := by
  have cs' := Owners.counted_step cs hstep
  cases Owners.moves_of_step hstep with
  | make _ _ => cases hallows
  | load _ _ => cases hallows
  | @copy o hheld =>
      refine kept_share cs' fun m => ?_
      rintro rfl
      cases hallows
  | @drop o hheld =>
      refine ⟨cs', rfl, rfl, fun n => ?_, fun n => Iff.rfl⟩
      refine List.count_erase_of_ne ?_ ..
      rintro rfl
      cases hallows
  | @destroy o hreleasing hlast =>
      refine ⟨cs', rfl, rfl, fun n => rfl, fun n => ?_⟩
      have hne : LoopObject.loopImpl n ≠ o := by
        rintro rfl
        exact hmore n rfl hlast
      exact Finset.mem_erase.trans (and_iff_right hne)
  | decrement hreleasing hmore' => exact ⟨cs', rfl, rfl, fun n => rfl, fun n => Iff.rfl⟩

omit [DecidableEq Thread] [DelayedTaskQueue Q Closure] in
lemma Sound.keep (hs : s.Sound) {owners : Owners LoopObject} (kept : Kept s.owners owners) :
    Sound { s with owners := owners } :=
  { hs with
    counted := kept.counted
    made := fun o => by rw [kept.made]; exact hs.made o
    entry := fun n hn => (hs.entry n hn).trans (kept.live n).symm
    loop := fun n hn => by rw [kept.fields]; exact hs.loop n hn
    runner := fun n hn => by rw [kept.fields]; exact hs.runner n hn
    impl := fun n hn => by rw [kept.fields]; exact hs.impl n hn
    single := fun n => by rw [kept.held]; exact hs.single n
    tls := fun n => by
      rw [← List.count_pos_iff, kept.held, List.count_pos_iff]
      exact hs.tls n }

omit [DecidableEq Thread] [DelayedTaskQueue Q Closure] in
/-- A call between the constructor and the destructor. -/
lemma Sound.call (hs : s.Sound) {n : ℕ} {shared : SharedStore Closure Q}
    (called : Called s.shared shared n False) (hlive : .loopImpl n ∈ s.owners.live) :
    Sound { s with shared := shared } :=
  { hs with
    roomy := called.roomy
    locks := fun id hid => by
      rw [called.locks]
      rw [called.created] at hid
      exact hs.locks id hid
    made := fun o => by rw [called.created]; exact hs.made o
    entry := fun m hm => by
      rw [called.created] at hm
      by_cases hmn : m = n
      · subst hmn
        exact iff_of_true (called.itself.mpr id) hlive
      · rw [called.others m hm hmn]
        exact hs.entry m hm
    loop := fun m hm => hs.loop m (called.created ▸ hm)
    runner := fun m hm => hs.runner m (called.created ▸ hm)
    impl := fun m hm => hs.impl m (called.created ▸ hm) }

omit [DecidableEq Thread] [DelayedTaskQueue Q Closure] in
/-- The end of a `MessageLoopImpl`. -/
lemma Sound.dispose (hs : s.Sound) {n : ℕ} {owners : Owners LoopObject}
    {shared : SharedStore Closure Q} (called : Called s.shared shared n True)
    (howners : s.owners.step (.release (.loopImpl n)) = some owners)
    (hlast : s.owners.use_count (.loopImpl n) = 1) :
    Sound { s with owners := owners, shared := shared } := by
  have cs' := Owners.counted_step hs.counted howners
  cases Owners.moves_of_step howners with
  | decrement hreleasing hmore => exact absurd hlast hmore
  | destroy hreleasing _ =>
      exact { hs with
        counted := cs'
        roomy := called.roomy
        locks := fun id hid => by
          rw [called.locks]
          rw [called.created] at hid
          exact hs.locks id hid
        made := fun o => by rw [called.created]; exact hs.made o
        entry := fun m hm => by
          rw [called.created] at hm
          show _ ↔ LoopObject.loopImpl m ∈ s.owners.live.erase (.loopImpl n)
          rw [Finset.mem_erase]
          by_cases hmn : m = n
          · subst hmn
            rw [called.itself]
            simp
          · rw [called.others m hm hmn, hs.entry m hm]
            simp [hmn]
        loop := fun m hm => hs.loop m (called.created ▸ hm)
        runner := fun m hm => hs.runner m (called.created ▸ hm)
        impl := fun m hm => hs.impl m (called.created ▸ hm) }

omit [DelayedTaskQueue Q Closure] in
lemma update_none_iff {f : Thread → Option ℕ} {thread r : Thread} {m : ℕ} :
    Function.update f thread none r = some m ↔ r ≠ thread ∧ f r = some m := by
  by_cases hr : r = thread
  · subst hr
    simp
  · rw [Function.update_of_ne hr, and_iff_right hr]

omit [DelayedTaskQueue Q Closure] in
/-- The thread deletes its `MessageLoop`. -/
lemma Sound.threadExits (hs : s.Sound) {thread : Thread} {n : ℕ} {owners : Owners LoopObject}
    (htls : s.tls_message_loop thread = some n)
    (howners : s.owners.step (.drop (.messageLoop n)) = some owners) :
    Sound { s with
      owners := owners
      tls_message_loop := Function.update s.tls_message_loop thread none } := by
  have cs' := Owners.counted_step hs.counted howners
  cases Owners.moves_of_step howners with
  | drop hheld =>
      have hone : s.owners.held.count (.messageLoop n) = 1 :=
        le_antisymm (hs.single n) (List.count_pos_iff.mpr hheld)
      refine { hs with
        counted := cs'
        single := fun m => ((List.erase_sublist ..).count_le _).trans (hs.single m)
        tls := fun m => ?_
        unique := fun thread' thread'' m h' h'' =>
          hs.unique _ _ _ (update_none_iff.mp h').2 (update_none_iff.mp h'').2 }
      show LoopObject.messageLoop m ∈ s.owners.held.erase (.messageLoop n) ↔
        ∃ r, Function.update s.tls_message_loop thread none r = some m
      simp only [update_none_iff]
      by_cases hmn : m = n
      · subst hmn
        refine iff_of_false ?_ ?_
        · rw [← List.count_eq_zero, List.count_erase_self, hone]
        · rintro ⟨r, hr, hm⟩
          exact hr (hs.unique _ _ _ hm htls)
      · rw [List.mem_erase_of_ne (by simpa using hmn), hs.tls m]
        refine exists_congr fun r => (and_iff_right_of_imp fun hm => ?_).symm
        rintro rfl
        rw [htls, Option.some.injEq] at hm
        exact hmn hm.symm

/-- The objects after `MessageLoop::MessageLoop`. -/
structure Constructed (owners owners' : Owners LoopObject) (n : ℕ) : Prop where
  counted : owners'.Counted
  made : ∀ o, o ∈ owners'.made ↔ o.number = n ∨ o ∈ owners.made
  live : ∀ o, o ∈ owners'.live ↔ o.number = n ∨ o ∈ owners.live
  held : owners'.held = owners.held ++ [.messageLoop n]
  loop : owners'.fields (.messageLoop n) = [.loopImpl n, .taskRunner n]
  runner : owners'.fields (.taskRunner n) = [.loopImpl n]
  impl : owners'.fields (.loopImpl n) = []
  fields : ∀ o, o.number ≠ n → owners'.fields o = owners.fields o

lemma number_eq_iff {o : LoopObject} {n : ℕ} :
    o.number = n ↔ o = .messageLoop n ∨ o = .taskRunner n ∨ o = .loopImpl n := by
  cases o <;> simp [LoopObject.number]

lemma constructed_of_run {owners owners' : Owners LoopObject} {n : ℕ} (cs : owners.Counted)
    (hrun : run Owners.step owners (construct n) = some owners') :
    Constructed owners owners' n := by
  have cs' : owners'.Counted := run_invariant (fun _ _ _ => Owners.counted_step) cs hrun
  rcases run_cons_eq_some.mp hrun with ⟨o₁, h₁, hrun⟩
  rcases run_cons_eq_some.mp hrun with ⟨o₂, h₂, hrun⟩
  rcases run_cons_eq_some.mp hrun with ⟨o₃, h₃, hrun⟩
  rcases run_cons_eq_some.mp hrun with ⟨o₄, h₄, hrun⟩
  cases hrun
  cases Owners.moves_of_step h₁ with
  | make hnew₁ _ =>
  cases Owners.moves_of_step h₂ with
  | copy _ =>
  cases Owners.moves_of_step h₃ with
  | make hnew₃ _ =>
  cases Owners.moves_of_step h₄ with
  | make hnew₄ _ =>
  have himpl : LoopObject.loopImpl n ∉ owners.held := fun hheld =>
    hnew₁ ((cs.made _).mpr (Or.inl (cs.held_live hheld)))
  have hrunner : LoopObject.taskRunner n ∉ owners.held := fun hheld =>
    hnew₃ (List.mem_append_left _ ((cs.made _).mpr (Or.inl (cs.held_live hheld))))
  refine ⟨cs', fun o => ?_, fun o => ?_, ?_, ?_, ?_, ?_, fun o ho => ?_⟩
  · rw [number_eq_iff]
    simp only [Owners.share, List.mem_append, List.mem_singleton]
    tauto
  · rw [number_eq_iff]
    simp only [Owners.share, Finset.mem_insert]
    tauto
  · simp [Owners.share, List.diff_cons, List.erase_append_right _ himpl,
      List.erase_append_right _ hrunner]
  · simp [Owners.share]
  · simp [Owners.share]
  · simp [Owners.share]
  · rw [ne_eq, number_eq_iff, not_or, not_or] at ho
    simp [Owners.share, Function.update_of_ne ho.1, Function.update_of_ne ho.2.1,
      Function.update_of_ne ho.2.2]

/-- The store after `MessageLoopImpl::MessageLoopImpl`. -/
structure Queued (shared shared' : SharedStore Closure Q) : Prop where
  roomy : shared'.Roomy
  created : shared'.created = shared.created ++ [.numbered shared.created.length]
  locks : ∀ id : TaskQueueId, shared.store.queue_locks_ id.toInt = true ∨
    id = .numbered shared.created.length → shared'.store.queue_locks_ id.toInt = true
  others : ∀ m < shared.created.length,
    shared'.store.entry (.numbered m) = shared.store.entry (.numbered m)
  itself : (shared'.store.entry (.numbered shared.created.length)).isSome = true

omit [DecidableEq Thread] in
/-- `CreateTaskQueue` in the store. -/
lemma queued_of_create {shared shared' : SharedStore Closure Q} (hroomy : shared.Roomy)
    (hroom : shared.created.length < 2 ^ 32 - 1)
    (hstep : shared.step .createTaskQueue = some shared') : Queued shared shared' := by
  have hroomy' := (SharedStore.step_create hroomy hroom hstep).1
  have hid := SharedStore.createTaskQueue_id hroomy
  obtain rfl := Option.some.inj hstep
  refine ⟨hroomy', ?_, fun id hid' => ?_, fun m hm => ?_, ?_⟩
  · show shared.created ++ [shared.store.createTaskQueue.1] = _
    rw [hid]
  · show Function.update shared.store.queue_locks_ shared.store.createTaskQueue.1.toInt true
      id.toInt = true
    by_cases hkey : id.toInt = shared.store.createTaskQueue.1.toInt
    · rw [hkey, Function.update_self]
    · rw [Function.update_of_ne hkey]
      refine hid'.resolve_right ?_
      rintro rfl
      exact hkey (congrArg TaskQueueId.toInt hid.symm)
  · refine Function.update_of_ne ?_ ..
    show (TaskQueueId.numbered m).toInt ≠ shared.store.createTaskQueue.1.toInt
    rw [hid, ne_eq, TaskQueueId.numbered_toInt_inj (by omega) (by omega)]
    exact hm.ne
  · rw [← hid]
    show (Function.update shared.store.queue_entries_ shared.store.createTaskQueue.1.toInt
      (some TaskQueueEntry.new) shared.store.createTaskQueue.1.toInt).isSome = true
    rw [Function.update_self]
    rfl

omit [DecidableEq Thread] in
/-- `SetWakeable` finds the new entry, and leaves the others as they are. -/
lemma Queued.setWakeable {shared shared' shared'' : SharedStore Closure Q}
    (queued : Queued shared shared') (hroom : shared.created.length < 2 ^ 32 - 1)
    (hstep : shared'.step (.on (.numbered shared.created.length) .setWakeable) = some shared'') :
    Queued shared shared'' := by
  have hlength : shared'.created.length ≤ 2 ^ 32 - 1 := by
    rw [queued.created, List.length_append, List.length_singleton]
    omega
  have hroomy := (SharedStore.step_on_isolated queued.roomy hlength hstep).1
  rcases SharedStore.step_on hstep with ⟨-, hcreated, rfl | ⟨hperform, -⟩⟩
  · exact queued
  · refine ⟨hroomy, hcreated.trans queued.created, fun id hid => ?_, fun m hm => ?_, ?_⟩
    · rw [perform_locks hperform]
      exact queued.locks id hid
    · rw [← queued.others m hm]
      refine MessageLoopTaskQueues.frame_perform hperform fun hkey => ?_
      rw [TaskQueueId.numbered_toInt_inj (by omega) (by omega)] at hkey
      exact hm.ne hkey
    · exact MessageLoopTaskQueues.perform_isSome hperform (by simp) queued.itself

omit [DecidableEq Thread] in
lemma queued_of_constructQueue {shared shared' : SharedStore Closure Q} (hroomy : shared.Roomy)
    (hroom : shared.created.length < 2 ^ 32 - 1) (hqueue : constructQueue shared = some shared') :
    Queued shared shared' := by
  rcases Option.bind_eq_some_iff.mp hqueue with ⟨created, hcreate, hwakeable⟩
  rw [SharedStore.createTaskQueue_id hroomy] at hwakeable
  exact (queued_of_create hroomy hroom hcreate).setWakeable hroom hwakeable

omit [DelayedTaskQueue Q Closure] in
/-- A thread gets its `MessageLoop`. -/
lemma Sound.construct (hs : s.Sound) {thread : Thread} (htls : s.tls_message_loop thread = none)
    {owners : Owners LoopObject} {shared : SharedStore Closure Q}
    (constructed : Constructed s.owners owners s.shared.created.length)
    (queued : Queued s.shared shared) :
    Sound ⟨owners, shared,
      Function.update s.tls_message_loop thread (some s.shared.created.length)⟩ := by
  have hlength : shared.created.length = s.shared.created.length + 1 := by
    rw [queued.created, List.length_append, List.length_singleton]
  have hnew : LoopObject.messageLoop s.shared.created.length ∉ s.owners.held := fun hheld =>
    lt_irrefl _ ((hs.made _).mp ((hs.counted.made _).mpr (Or.inl (hs.counted.held_live hheld))))
  have hfree : ∀ r, s.tls_message_loop r ≠ some s.shared.created.length := fun r hr =>
    hnew ((hs.tls _).mpr ⟨r, hr⟩)
  have htls' : ∀ r m, Function.update s.tls_message_loop thread (some s.shared.created.length) r
      = some m ↔ r = thread ∧ m = s.shared.created.length ∨ s.tls_message_loop r = some m := by
    intro r m
    by_cases hr : r = thread
    · subst hr
      simp [htls, eq_comm]
    · simp [hr]
  refine ⟨constructed.counted, queued.roomy, fun id hid => ?_, fun o => ?_, fun n hn => ?_,
    fun n hn => ?_, fun n hn => ?_, fun n hn => ?_, fun n => ?_, fun n => ?_,
    fun r r' n hr hr' => ?_⟩
  · have hid : id ∈ shared.created := hid
    rw [queued.created, List.mem_append, List.mem_singleton] at hid
    exact queued.locks id (hid.imp_left (hs.locks id))
  · show o ∈ owners.made ↔ o.number < shared.created.length
    rw [constructed.made, hs.made, hlength, Nat.lt_succ_iff_lt_or_eq, or_comm]
  · have hn : n < shared.created.length := hn
    rw [hlength, Nat.lt_succ_iff_lt_or_eq] at hn
    show (shared.store.entry (.numbered n)).isSome = true ↔ LoopObject.loopImpl n ∈ owners.live
    rw [constructed.live]
    rcases hn with hn | rfl
    · rw [queued.others n hn, hs.entry n hn]
      exact (or_iff_right hn.ne).symm
    · exact iff_of_true queued.itself (Or.inl rfl)
  · have hn : n < shared.created.length := hn
    rw [hlength, Nat.lt_succ_iff_lt_or_eq] at hn
    rcases hn with hn | rfl
    · exact (constructed.fields (.messageLoop n) hn.ne).trans (hs.loop n hn)
    · exact constructed.loop
  · have hn : n < shared.created.length := hn
    rw [hlength, Nat.lt_succ_iff_lt_or_eq] at hn
    rcases hn with hn | rfl
    · exact (constructed.fields (.taskRunner n) hn.ne).trans (hs.runner n hn)
    · exact constructed.runner
  · have hn : n < shared.created.length := hn
    rw [hlength, Nat.lt_succ_iff_lt_or_eq] at hn
    rcases hn with hn | rfl
    · exact (constructed.fields (.loopImpl n) hn.ne).trans (hs.impl n hn)
    · exact constructed.impl
  · show owners.held.count (.messageLoop n) ≤ 1
    rw [constructed.held, List.count_append, List.count_singleton]
    have hsingle := hs.single n
    split
    · next heq =>
        obtain rfl := LoopObject.messageLoop.inj (beq_iff_eq.mp heq)
        rw [List.count_eq_zero_of_not_mem hnew]
    · exact hsingle
  · show LoopObject.messageLoop n ∈ owners.held ↔ ∃ r, Function.update s.tls_message_loop thread
      (some s.shared.created.length) r = some n
    rw [constructed.held, List.mem_append, List.mem_singleton, LoopObject.messageLoop.injEq,
      hs.tls n, or_comm]
    simp only [htls', exists_or, exists_eq_left]
  · rcases (htls' r n).mp hr with ⟨rfl, rfl⟩ | hr
    · rcases (htls' r' _).mp hr' with ⟨rfl, -⟩ | hr'
      · rfl
      · exact absurd hr' (hfree r')
    · rcases (htls' r' n).mp hr' with ⟨-, rfl⟩ | hr'
      · exact absurd hr (hfree r)
      · exact hs.unique _ _ _ hr hr'

/-- No step makes the list of queues shorter. -/
lemma length_le_of_step (ht : s.step a = some t) :
    s.shared.created.length ≤ t.shared.created.length := by
  cases moves_of_step ht with
  | construct htls howners hshared =>
      rcases Option.bind_eq_some_iff.mp hshared with ⟨created, hcreate, hwakeable⟩
      have hlength := SharedStore.length_created hcreate
      show _ ≤ List.length (SharedStore.created _)
      rw [(SharedStore.step_on hwakeable).2.1, hlength]
      exact Nat.le_add_right ..
  | dispose _ _ _ hshared | call _ _ _ hshared =>
      exact (congrArg List.length (SharedStore.step_on hshared).2.1).ge
  | _ => exact le_rfl

/-- **The invariant**, as long as the ids have room. -/
theorem sound_step (hs : s.Sound) (ht : s.step a = some t)
    (hroom : t.shared.created.length < 2 ^ 32) : t.Sound := by
  cases moves_of_step ht with
  | initialized htls => exact hs
  | construct htls howners hshared =>
      have hfew : s.shared.created.length < 2 ^ 32 - 1 := by
        rcases Option.bind_eq_some_iff.mp hshared with ⟨created, hcreate, hwakeable⟩
        have hlength := SharedStore.length_created hcreate
        rw [← (SharedStore.step_on hwakeable).2.1] at hlength
        have hroom : List.length (SharedStore.created _) < 2 ^ 32 := hroom
        rw [hlength, StoreOp.isCreate, if_pos rfl] at hroom
        omega
      exact hs.construct htls (constructed_of_run hs.counted howners)
        (queued_of_constructQueue hs.roomy hfew hshared)
  | @load _ thread n o _ htls ho howners =>
      have cs' := Owners.counted_step hs.counted howners
      cases Owners.moves_of_step howners with
      | load _ _ => exact hs.keep (kept_share cs' ho)
  | own hallows howners hmore => exact hs.keep (kept_step hs.counted hallows howners hmore)
  | dispose howners hlast hid hshared =>
      rcases hs.queue_id hid with ⟨hn, rfl, -⟩
      have hlive := (hs.counted.live _).mpr (hlast ▸ one_pos)
      have called := hs.called hn hlive (by simp) hshared
      rw [eq_self] at called
      exact hs.dispose called howners hlast
  | @call n op _ shared hcan hordinary hid hshared =>
      rcases hs.queue_id hid with ⟨hn, rfl, -⟩
      have hlive := (hs.live_of_canCall hcan).2
      have hop : op ≠ .setWakeable ∧ op ≠ .dispose := by
        constructor <;> rintro rfl <;> cases hordinary
      have called := hs.called hn hlive hop.1 hshared
      rw [eq_false hop.2] at called
      exact hs.call called hlive
  | threadExits htls howners => exact hs.threadExits htls howners

/-- No `Dispose` has come too early in a run that creates few enough queues. -/
theorem sound_run {acts : List (LoopOwnersAction Thread Closure)}
    (hrun : run step (create : LoopOwners Thread Closure Q) acts = some s)
    (hroom : s.shared.created.length < 2 ^ 32) : s.Sound := by
  refine run_invariant (I := fun s => s.shared.created.length < 2 ^ 32 → s.Sound) ?_
    (fun _ => sound_create) hrun hroom
  intro s a t hs ht hroom
  exact sound_step (hs ((length_le_of_step ht).trans_lt hroom)) ht hroom

/-! ## Calls -/

omit [DecidableEq Thread] [DelayedTaskQueue Q Closure] in
/-- The fields of an object lead to objects of its loop. -/
lemma Sound.number_of_mem_fields (hs : s.Sound) {p o : LoopObject} (hp : p ∈ s.owners.live)
    (ho : o ∈ s.owners.fields p) : o.number = p.number := by
  have hn := (hs.impl_live hp).1
  cases p with
  | messageLoop n =>
      rw [hs.loop n hn, List.mem_cons, List.mem_singleton] at ho
      rcases ho with rfl | rfl <;> rfl
  | taskRunner n =>
      rw [hs.runner n hn, List.mem_singleton] at ho
      rw [ho]
      rfl
  | loopImpl n =>
      rw [hs.impl n hn] at ho
      cases ho

omit [DecidableEq Thread] [DelayedTaskQueue Q Closure] in
/-- A `MessageLoopImpl` is alive as long as there are pointers to objects of its loop. -/
lemma Sound.impl_live_iff (hs : s.Sound) (n : ℕ) :
    .loopImpl n ∈ s.owners.live ↔ ∃ o ∈ s.owners.held ++ s.owners.releasing, o.number = n := by
  constructor
  · intro hlive
    exact hs.counted.exists_root (P := fun o => o.number = n)
      (fun p hp o ho hn => (hs.number_of_mem_fields hp ho).symm.trans hn) hlive rfl
  · rintro ⟨o, ho, rfl⟩
    rcases List.mem_append.mp ho with hheld | hreleasing
    · exact (hs.impl_live (hs.counted.held_live hheld)).2
    · exact (hs.impl_live (hs.counted.releasing_live hreleasing)).2

/-- **The queues outlive the task runners.**  As long as fewer than `2 ^ 32` queues have been
created, a queue is in the store exactly while there is a pointer to an object of its loop; so no
call through such a pointer misses its queue, and none is left behind.  Methods of the store are
whole steps. -/
theorem queues_outlive_runners {acts : List (LoopOwnersAction Thread Closure)}
    (hrun : run step (create : LoopOwners Thread Closure Q) acts = some s)
    (hroom : s.shared.created.length < 2 ^ 32) :
    (∀ n < s.shared.created.length, (s.shared.store.entry (.numbered n)).isSome = true ↔
        ∃ o ∈ s.owners.held ++ s.owners.releasing, o.number = n) ∧
      ∀ n, s.CanCall n → ∀ op, ordinary op = true →
        ∃ store, s.shared.store.perform (.numbered n) op = .ok store := by
  have hs := sound_run hrun hroom
  refine ⟨fun n hn => (hs.entry n hn).trans (hs.impl_live_iff n), fun n hcan op hop => ?_⟩
  rcases hs.live_of_canCall hcan with ⟨hn, hlive⟩
  refine hs.perform hn hlive ?_
  rintro rfl
  cases hop

/-- A runner is handed to another thread, and is all that is left when its own thread is gone. -/
def leftRunner : List (LoopOwnersAction Bool ℕ) :=
  [.ensureInitializedForCurrentThread false, .getTaskRunner false,
    .ensureInitializedForCurrentThread true, .threadExits false, .own (.release (.messageLoop 0)),
    .own (.release (.loopImpl 0)), .own (.release (.taskRunner 0)), .call 0 (.registerTask 10 ⟨5⟩)]

theorem queues_outlive_runners_leftRunner :
    ∃ u : LoopOwners Bool ℕ (SortedQueue (@DelayedTask.gt ℕ)),
      run step create leftRunner = some u ∧
        (∀ n < u.shared.created.length, (u.shared.store.entry (.numbered n)).isSome = true ↔
          ∃ o ∈ u.owners.held ++ u.owners.releasing, o.number = n) ∧
        ∃ store, u.shared.store.perform (.numbered 0) .hasPendingTask = .ok store := by
  have hu : run step (create : LoopOwners Bool ℕ (SortedQueue (@DelayedTask.gt ℕ))) leftRunner
      = some _ := rfl
  rcases queues_outlive_runners hu (by decide) with ⟨hentry, hperform⟩
  exact ⟨_, hu, hentry, hperform 0 (by decide) .hasPendingTask rfl⟩

/-! ## `RunNowOrPostTask` -/

/-- `MessageLoop::IsInitializedForCurrentThread`. -/
def isInitializedForCurrentThread (s : LoopOwners Thread Closure Q) (thread : Thread) : Bool :=
  (s.tls_message_loop thread).isSome

/-- `GetCurrentTaskQueueId`; without a loop an `FF_CHECK` ends the process. -/
def getCurrentTaskQueueId (s : LoopOwners Thread Closure Q) (thread : Thread) :
    Option TaskQueueId :=
  (s.tls_message_loop thread).bind fun n => s.shared.created[n]?

/-- `RunTasksOnCurrentThread` of the task runner of loop `n`.  The two ids are compared as `int`. -/
def runTasksOnCurrentThread (s : LoopOwners Thread Closure Q) (thread : Thread) (n : ℕ) :
    Option Bool :=
  if s.isInitializedForCurrentThread thread then
    (s.getCurrentTaskQueueId thread).bind fun current_queue_id =>
      s.shared.created[n]?.map fun loop_queue_id =>
        decide (current_queue_id.toInt = loop_queue_id.toInt)
  else some false

/-- What becomes of the task. -/
inductive RunOrPosted (Closure Q : Type)
  | ran (task : Closure)
  | posted (store : MessageLoopTaskQueues Closure Q)
  | dropped

/-- `RunNowOrPostTask` with the task runner of loop `n`, whose `terminated_` is given. -/
def runNowOrPostTask (s : LoopOwners Thread Closure Q) (thread : Thread) (n : ℕ)
    (terminated_ : Bool) (task : Closure) (now : TimePoint) : Option (RunOrPosted Closure Q) :=
  (s.runTasksOnCurrentThread thread n).bind fun here =>
    if here then some (.ran task)
    else if terminated_ then some .dropped
    else
      s.shared.created[n]?.bind fun queue_id_ =>
        (s.shared.store.registerTask queue_id_ task now).toOption.map .posted

omit [DecidableEq Thread] [DelayedTaskQueue Q Closure] in
/-- Ids of different loops are different keys, so the comparison tells whether the loop is the
thread's. -/
lemma Sound.runTasksOnCurrentThread_eq (hs : s.Sound) {n : ℕ} (hn : n < s.shared.created.length)
    (thread : Thread) :
    s.runTasksOnCurrentThread thread n = some (decide (s.tls_message_loop thread = some n)) := by
  cases htls : s.tls_message_loop thread with
  | none => simp [runTasksOnCurrentThread, isInitializedForCurrentThread, htls]
  | some m =>
      have hm := (hs.impl_live (hs.counted.held_live ((hs.tls m).mpr ⟨thread, htls⟩))).1
      have hm : m < s.shared.created.length := hm
      have hfew := hs.roomy.few
      have hkey := TaskQueueId.numbered_toInt_inj (hm.trans hfew) (hn.trans hfew)
      simp [runTasksOnCurrentThread, isInitializedForCurrentThread, getCurrentTaskQueueId, htls,
        (hs.numbered_mem hm).1, (hs.numbered_mem hn).1, hkey]

/-- **`RunNowOrPostTask`, by thread.**  As long as fewer than `2 ^ 32` queues have been created: on
the thread of the loop the task is run at once, and from any other thread, with a loop of its own or
without, it becomes one more pending task of that loop, unless the loop has been terminated; the
other queues stay as they are.  From `2 ^ 32` on two loops may have ids that are one `int`.  Methods
of the store are whole steps. -/
theorem runNowOrPostTask_by_thread {acts : List (LoopOwnersAction Thread Closure)}
    (hrun : run step (create : LoopOwners Thread Closure Q) acts = some s)
    (hroom : s.shared.created.length < 2 ^ 32) {n : ℕ} (hheld : .taskRunner n ∈ s.owners.held)
    (thread : Thread) (terminated_ : Bool) (task : Closure) (now : TimePoint) :
    (s.tls_message_loop thread = some n →
        s.runNowOrPostTask thread n terminated_ task now = some (.ran task)) ∧
      (s.tls_message_loop thread ≠ some n → terminated_ = true →
        s.runNowOrPostTask thread n terminated_ task now = some .dropped) ∧
      (s.tls_message_loop thread ≠ some n → terminated_ = false → ∃ e e' store,
        s.runNowOrPostTask thread n terminated_ task now = some (.posted store) ∧
          s.shared.store.entry (.numbered n) = some e ∧ store.entry (.numbered n) = some e' ∧
          e'.pending = ⟨DelayedTask.castOrder s.shared.store.order_, task, now⟩ ::ₘ e.pending ∧
          ∀ m < s.shared.created.length, m ≠ n →
            store.entry (.numbered m) = s.shared.store.entry (.numbered m)) := by
  have hs := sound_run hrun hroom
  rcases hs.live_of_canCall (Or.inr (Or.inl hheld)) with ⟨hn, hlive⟩
  have hhere := hs.runTasksOnCurrentThread_eq hn thread
  refine ⟨fun htls => ?_, fun htls hterminated => ?_, fun htls hterminated => ?_⟩
  · simp [runNowOrPostTask, hhere, htls]
  · simp [runNowOrPostTask, hhere, htls, hterminated]
  · have hop : QueueOp.registerTask task now ≠ .setWakeable := by simp
    rcases hs.perform hn hlive hop with ⟨store, hstore⟩
    rcases MessageLoopTaskQueues.registerTask_eq_ok.mp hstore with ⟨-, e, he, hset⟩
    refine ⟨e, _, store, ?_, he, ?_, TaskQueueEntry.registerTask_pending .., fun m hm hne => ?_⟩
    · have hregister : s.shared.store.registerTask (.numbered n) task now = .ok store := hstore
      simp [runNowOrPostTask, hhere, htls, hterminated, (hs.numbered_mem hn).1, hregister,
        Except.toOption]
    · rw [← hset]
      exact MessageLoopTaskQueues.setEntry_entry_self _ rfl _
    · have hfew := hs.roomy.few
      refine MessageLoopTaskQueues.frame_perform hstore fun hkey => hne ?_
      exact (TaskQueueId.numbered_toInt_inj (hm.trans hfew) (hn.trans hfew)).mp hkey

theorem runNowOrPostTask_by_thread_leftRunner :
    ∃ u : LoopOwners Bool ℕ (SortedQueue (@DelayedTask.gt ℕ)),
      run step create leftRunner = some u ∧ ∃ e e' store,
        u.runNowOrPostTask true 0 false 20 ⟨7⟩ = some (.posted store) ∧
          u.shared.store.entry (.numbered 0) = some e ∧ store.entry (.numbered 0) = some e' ∧
          e'.pending = ⟨DelayedTask.castOrder u.shared.store.order_, 20, ⟨7⟩⟩ ::ₘ e.pending := by
  have hu : run step (create : LoopOwners Bool ℕ (SortedQueue (@DelayedTask.gt ℕ))) leftRunner
      = some _ := rfl
  rcases runNowOrPostTask_by_thread hu (by decide) (n := 0) (by decide) true false 20 ⟨7⟩
    with ⟨-, -, hposted⟩
  rcases hposted (by decide) rfl with ⟨e, e', store, hresult, he, he', hpending, -⟩
  exact ⟨_, hu, e, e', store, hresult, he, he', hpending⟩

end LoopOwners

end FFNetwork
