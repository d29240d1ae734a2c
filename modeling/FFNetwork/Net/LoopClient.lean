import FFNetwork.Base.MessageLoop.FirstInFirstOut
import FFNetwork.Lib.Simulation
import FFNetwork.Net.Completions
import FFNetwork.Net.HandleOwners
import FFNetwork.Net.OwnTask

/-!
# The client on its message loop

`CurlClient` has its calls run by the message loop of `request_thread_`: `RequestTaskStart` and
`RequestTaskCancel` post closures to it, and `CurlClient::Run` serves it in slices of `RunForTime`
between its look-ups of the messages of the multi handle.  So a call may be overtaken by one that
was posted with an earlier clock reading, and one that is pending at the end of a slice is disposed
of.  Here the two models are put together, from the constructor up to the destructor.

* `LoopClient.step` — the client, its loop and the callers.
* `LoopClient.view` — the client with the calls that are registered and not run yet.
* **`view_run`** — if no call is overtaken or disposed of, the calls are run first in, first out.
* **`requests_accounted`** — whatever happens to the calls, no task is completed twice, and a task
  that is not completed is transferring, or its call is still there, or it has been disposed of.
-/

namespace FFNetwork

open PriorityQueue StepSystem

variable {Hash Q : Type}

/-- What the task's user has called. -/
def PostedCall.asked : PostedCall Hash → CurlAction Hash
  | .startRequest _ caller => .resume caller
  | .cancelRequest _ caller => .cancel caller

/-- The client, the loop, the `PostTask` calls that have passed their test, with their target times,
and the closures registered on the loop, by the numbers of their registrations.  The field `posted`
of the client is not used. -/
structure LoopClient (Hash Q : Type) where
  client : CurlClient Hash
  loop : LoopImpl Q
  posting : List (TimePoint × PostedCall Hash)
  calls : ℕ → Option (PostedCall Hash)

/-- The steps of users and of the request thread on its loop. -/
inductive LoopClientAction (Hash : Type)
  /-- A user creates a task or lets it go, a callback returns, or `HandleCurlMsg` begins. -/
  | client (a : CurlAction Hash)
  /-- `Resume` or `Cancel` up to the test of `PostTask`, with the clock reading. -/
  | postTask (call : PostedCall Hash) (target_time : TimePoint)
  | registerTask (call : PostedCall Hash) (target_time : TimePoint)
  /-- A step of the loop thread, or a registration on another queue. -/
  | loop (a : LoopAction)

namespace LoopClient

variable [DecidableEq Hash] [DelayedTaskQueue Q ℕ] {s t : LoopClient Hash Q}
  {a : LoopClientAction Hash}

/-- `CurlClient::CurlClient`, after `n` registrations elsewhere. -/
def create (n : ℕ) : LoopClient Hash Q := ⟨.create, .create n, [], fun _ => none⟩

/-- What is left to the client's own steps.  A caller holds its task until `PostTask` is done, and
`HandleCurlMsg` is called between the slices. -/
def allows (s : LoopClient Hash Q) : CurlAction Hash → Bool
  | .resume _ | .cancel _ | .runPosted => false
  | .release task => s.posting.all fun p => p.2.caller ≠ task
  | .handleCurlMsg _ _ _ => s.loop.control = .outside
  | _ => true

/-- The closure that `FlushTasks` invokes next. -/
def invocation (s : LoopClient Hash Q) : Option (PostedCall Hash) :=
  s.loop.control.batch.head?.bind s.calls

/-- A posted call, up to the callback if it makes one. -/
def runCall (client : CurlClient Hash) : PostedCall Hash → CurlClient Hash
  | .startRequest hash _ => client.startRequest hash
  | .cancelRequest hash _ => client.cancelRequest hash

/-- The caller has registered the call. -/
def afterPosting (client : CurlClient Hash) : PostedCall Hash → CurlClient Hash
  | .startRequest _ caller => { client with resumed := client.resumed ++ [caller] }
  | .cancelRequest _ _ => client

/-- A step of the loop thread, while it is in no callback. -/
def loopStep (s : LoopClient Hash Q) : LoopAction → Option (LoopClient Hash Q)
  | .postTask _ | .registerTask _ => none
  | .registerElsewhere =>
      (s.loop.sliceStep .registerElsewhere).map fun loop => { s with loop := loop }
  | .invoke =>
      if s.client.thread = .idle then
        match s.invocation with
        | none => none
        | some call =>
            (s.loop.sliceStep .invoke).map fun loop =>
              { s with loop := loop, client := runCall s.client call }
      else none
  | a =>
      if s.client.thread = .idle then
        (s.loop.sliceStep a).map fun loop => { s with loop := loop }
      else none

/-- The step function; a client that has crashed takes no step. -/
def step (s : LoopClient Hash Q) (a : LoopClientAction Hash) : Option (LoopClient Hash Q) :=
  if s.client.thread = .crashed then none
  else
    match a with
    | .client a =>
        if s.allows a then (s.client.step a).map fun client => { s with client := client } else none
    | .postTask call target_time =>
        if call.hash = call.caller.identifier_ ∧ s.client.held.contains call.caller then
          (s.loop.sliceStep (.postTask target_time)).map fun loop =>
            { s with
              loop := loop
              posting :=
                if s.loop.terminated_ then s.posting else (target_time, call) :: s.posting }
        else none
    | .registerTask call target_time =>
        if (target_time, call) ∈ s.posting then
          (s.loop.sliceStep (.registerTask target_time)).map fun loop =>
            { client := afterPosting s.client call
              loop := loop
              posting := s.posting.erase (target_time, call)
              calls := Function.update s.calls s.loop.queue.registrations (some call) }
        else none
    | .loop a => s.loopStep a

/-- What a step can do. -/
inductive Moves (s : LoopClient Hash Q) : LoopClientAction Hash → LoopClient Hash Q → Prop
  | client {a : CurlAction Hash} {client : CurlClient Hash} (hallows : s.allows a = true)
      (hstep : s.client.step a = some client) : s.Moves (.client a) { s with client := client }
  | postTask {call : PostedCall Hash} {target_time : TimePoint} {loop : LoopImpl Q}
      (hhash : call.hash = call.caller.identifier_) (hheld : call.caller ∈ s.client.held)
      (hstep : s.loop.step (.postTask target_time) = some loop) :
      s.Moves (.postTask call target_time) { s with
        loop := loop
        posting := if s.loop.terminated_ then s.posting else (target_time, call) :: s.posting }
  | registerTask {call : PostedCall Hash} {target_time : TimePoint} {loop : LoopImpl Q}
      (hposting : (target_time, call) ∈ s.posting)
      (hstep : s.loop.step (.registerTask target_time) = some loop) :
      s.Moves (.registerTask call target_time) {
        client := afterPosting s.client call
        loop := loop
        posting := s.posting.erase (target_time, call)
        calls := Function.update s.calls s.loop.queue.registrations (some call) }
  | invoke {call : PostedCall Hash} {loop : LoopImpl Q} {i : ℕ} {batch : List ℕ}
      (hidle : s.client.thread = .idle) (hbatch : s.loop.control.batch = i :: batch)
      (hcall : s.calls i = some call) (hstep : s.loop.step .invoke = some loop) :
      s.Moves (.loop .invoke) { s with loop := loop, client := runCall s.client call }
  | loop {a : LoopAction} {loop : LoopImpl Q} (hstep : s.loop.step a = some loop)
      (hinvoke : a ≠ .invoke) (hregister : ∀ target_time, a ≠ .registerTask target_time) :
      s.Moves (.loop a) { s with loop := loop }

lemma moves_of_loopStep {a : LoopAction} (ht : s.loopStep a = some t) : s.Moves (.loop a) t := by
  cases a with
  | postTask target_time => cases ht
  | registerTask target_time => cases ht
  | registerElsewhere =>
      simp only [loopStep] at ht
      rcases Option.map_eq_some_iff.mp ht with ⟨loop, hstep, rfl⟩
      exact .loop (LoopImpl.step_of_sliceStep hstep) (by simp) (by simp)
  | invoke =>
      simp only [loopStep, Option.ite_none_right_eq_some] at ht
      rcases ht with ⟨hidle, ht⟩
      split at ht
      · cases ht
      · next call hinvocation =>
          rcases Option.map_eq_some_iff.mp ht with ⟨loop, hstep, rfl⟩
          rcases Option.bind_eq_some_iff.mp hinvocation with ⟨i, hhead, hcall⟩
          rcases List.head?_eq_some_iff.mp hhead with ⟨batch, hbatch⟩
          exact .invoke hidle hbatch hcall (LoopImpl.step_of_sliceStep hstep)
  | _ =>
      simp only [loopStep, Option.ite_none_right_eq_some] at ht
      rcases Option.map_eq_some_iff.mp ht.2 with ⟨loop, hstep, rfl⟩
      exact .loop (LoopImpl.step_of_sliceStep hstep) (by simp) (by simp)

/-- **What one step does.** -/
theorem moves_of_step (ht : s.step a = some t) : s.client.thread ≠ .crashed ∧ s.Moves a t := by
  unfold step at ht
  split at ht
  · cases ht
  · next hthread =>
      refine ⟨hthread, ?_⟩
      cases a with
      | client a =>
          simp only [Option.ite_none_right_eq_some] at ht
          rcases Option.map_eq_some_iff.mp ht.2 with ⟨client, hstep, rfl⟩
          exact .client ht.1 hstep
      | postTask call target_time =>
          simp only [Option.ite_none_right_eq_some] at ht
          rcases Option.map_eq_some_iff.mp ht.2 with ⟨loop, hstep, rfl⟩
          exact .postTask ht.1.1 (List.contains_iff_mem.mp ht.1.2) hstep
      | registerTask call target_time =>
          simp only [Option.ite_none_right_eq_some] at ht
          rcases Option.map_eq_some_iff.mp ht.2 with ⟨loop, hstep, rfl⟩
          exact .registerTask ht.1 hstep
      | loop a => exact moves_of_loopStep ht

/-- A step of the client leaves the loop and the calls as they are. -/
lemma client_of_step {a : CurlAction Hash} (ht : s.step (.client a) = some t) :
    s.allows a = true ∧ s.client.step a = some t.client ∧
      t.loop = s.loop ∧ t.posting = s.posting ∧ t.calls = s.calls := by
  cases (moves_of_step ht).2 with
  | client hallows hstep => exact ⟨hallows, hstep, rfl, rfl, rfl⟩

/-- A step of the loop leaves the posters and the calls as they are, and runs at most one call. -/
lemma loop_of_step {a : LoopAction} (ht : s.step (.loop a) = some t) :
    s.loop.step a = some t.loop ∧ t.posting = s.posting ∧ t.calls = s.calls ∧
      (∀ target_time, a ≠ .registerTask target_time) ∧
      (t.client = s.client ∨ a = .invoke ∧ s.client.thread = .idle ∧
        ∃ call, t.client = runCall s.client call) := by
  cases (moves_of_step ht).2 with
  | invoke hidle hbatch hcall hstep =>
      exact ⟨hstep, rfl, rfl, by simp, Or.inr ⟨rfl, hidle, _, rfl⟩⟩
  | loop hstep hinvoke hregister => exact ⟨hstep, rfl, rfl, hregister, Or.inl rfl⟩

/-! ## The client in its view -/

/-- The closures that are registered and not run yet, in the order of their registration. -/
def numbers (s : LoopClient Hash Q) : List ℕ :=
  s.loop.queue.registered.filter fun i => i ∉ s.loop.executed

/-- The calls that are registered and not run yet. -/
def outstanding (s : LoopClient Hash Q) : List (PostedCall Hash) := s.numbers.filterMap s.calls

/-- The client, with these calls as the posted ones. -/
def view (s : LoopClient Hash Q) : CurlClient Hash := { s.client with posted := s.outstanding }

/-- The steps of the client that a step comes to. -/
def label : LoopClientAction Hash → List (CurlAction Hash)
  | .client a => [a]
  | .registerTask call _ => [call.asked]
  | .loop .invoke => [.runPosted]
  | _ => []

/-- The closures on the loop are calls that were posted by tasks a user holds. -/
structure WellPosted (s : LoopClient Hash Q) : Prop where
  wf : s.client.WellFormed
  balanced : s.loop.Balanced
  ascending : s.loop.queue.registered.Pairwise (· < ·)
  posting : ∀ p ∈ s.posting, p.2.hash = p.2.caller.identifier_ ∧ p.2.caller ∈ s.client.held

omit [DecidableEq Hash] in
lemma wellPosted_create (n : ℕ) : (create n : LoopClient Hash Q).WellPosted where
  wf := CurlClient.wellFormed_create
  balanced := LoopImpl.balanced_create n
  ascending := List.Pairwise.nil
  posting _ hp := nomatch hp

omit [DelayedTaskQueue Q ℕ] in
lemma afterDidFinished_posted (c : CurlClient Hash) (l : List (PostedCall Hash))
    (handle : RequestTask Hash) :
    CurlClient.afterDidFinished { c with posted := l } handle
      = { c.afterDidFinished handle with posted := l } := by
  have halive : CurlClient.alive { c with posted := l } handle = c.alive handle := rfl
  rw [CurlClient.afterDidFinished, CurlClient.afterDidFinished, halive]
  split <;> rfl

omit [DelayedTaskQueue Q ℕ] in
/-- The posted calls matter to no step but the ones that run or post them. -/
lemma step_view {c c' : CurlClient Hash} {a : CurlAction Hash} (hallows : s.allows a = true)
    (hstep : c.step a = some c') (l : List (PostedCall Hash)) :
    CurlClient.step { c with posted := l } a = some { c' with posted := l } := by
  unfold CurlClient.step at hstep ⊢
  split at hstep
  · cases hstep
  · next hthread =>
      rw [if_neg hthread]
      cases a with
      | resume x => cases hallows
      | cancel x => cases hallows
      | runPosted => cases hallows
      | taskWithRequest hash =>
          cases hstep
          rfl
      | release x =>
          cases hstep
          rfl
      | didCancelledReturns =>
          simp only at hstep ⊢
          split at hstep
          · next hash hcancelled =>
              cases hstep
              simp only [hcancelled, CurlClient.afterDidCancelled]
              split <;> rfl
          · cases hstep
      | handleCurlMsg handle result status_code =>
          simp only [Option.ite_none_right_eq_some] at hstep ⊢
          refine ⟨hstep.1, ?_⟩
          cases hstep.2
          simp only [CurlClient.handleCurlMsg]
          split <;> rfl
      | didFinishedReturns =>
          simp only at hstep ⊢
          split at hstep
          · next x handle hfinished =>
              cases hstep
              rw [afterDidFinished_posted]
          · cases hstep

omit [DelayedTaskQueue Q ℕ] in
/-- A user lets a task go only if it is not posting for it. -/
lemma held_of_step {c' : CurlClient Hash} (wf : s.client.WellFormed) {a : CurlAction Hash}
    (hallows : s.allows a = true) (hstep : s.client.step a = some c')
    {p : TimePoint × PostedCall Hash} (hp : p ∈ s.posting)
    (hheld : p.2.caller ∈ s.client.held) : p.2.caller ∈ c'.held := by
  cases (CurlClient.moves_of_step wf hstep).2 with
  | taskWithRequest hash => exact List.mem_append_left _ hheld
  | release x =>
      have hne := of_decide_eq_true (List.all_eq_true.mp hallows p hp)
      exact List.mem_filter.mpr ⟨hheld, decide_eq_true hne⟩
  | startRequest _ _ | cancelNothing _ _ _ | cancelRequest _ _ _ => cases hallows
  | _ => exact hheld

lemma wellFormed_runCall {client : CurlClient Hash} (wf : client.WellFormed)
    (hidle : client.thread = .idle) (call : PostedCall Hash) :
    (runCall client call).WellFormed := by
  cases call with
  | startRequest hash caller => exact wf.startRequest hash
  | cancelRequest hash caller =>
      rw [runCall, CurlClient.cancelRequest]
      split
      · exact wf
      · next x hmap => exact wf.complete hidle hmap _ rfl _ rfl

omit [DecidableEq Hash] in
lemma wellFormed_afterPosting {client : CurlClient Hash} (wf : client.WellFormed)
    {call : PostedCall Hash} (hheld : call.caller ∈ client.held) :
    (afterPosting client call).WellFormed := by
  cases call with
  | startRequest hash caller =>
      refine { wf with resumed := fun x hx => ?_ }
      rcases List.mem_append.mp hx with hx | hx
      · exact wf.resumed x hx
      · rw [List.mem_singleton.mp hx]
        exact wf.held _ hheld
  | cancelRequest hash caller => exact wf

lemma runCall_held {client : CurlClient Hash} (call : PostedCall Hash) :
    (runCall client call).held = client.held := by
  cases call with
  | startRequest hash caller =>
      rw [runCall, (CurlClient.startRequest_eq client hash).choose_spec.1]
  | cancelRequest hash caller =>
      rw [runCall, CurlClient.cancelRequest]
      split <;> rfl

omit [DecidableEq Hash] in
lemma afterPosting_held {client : CurlClient Hash} (call : PostedCall Hash) :
    (afterPosting client call).held = client.held := by
  cases call <;> rfl

theorem wellPosted_step (wp : s.WellPosted) (ht : s.step a = some t) : t.WellPosted := by
  cases (moves_of_step ht).2 with
  | client hallows hstep =>
      refine ⟨CurlClient.wellFormed_step wp.wf hstep, wp.balanced, wp.ascending, fun p hp => ?_⟩
      rcases wp.posting p hp with ⟨hhash, hheld⟩
      exact ⟨hhash, held_of_step wp.wf hallows hstep hp hheld⟩
  | @postTask call target_time loop hhash hheld hstep =>
      refine ⟨wp.wf, LoopImpl.balanced_step wp.balanced hstep,
        wp.balanced.ascending_step wp.ascending hstep, fun p hp => ?_⟩
      simp only at hp
      split at hp
      · exact wp.posting p hp
      · rcases List.mem_cons.mp hp with rfl | hp
        · exact ⟨hhash, hheld⟩
        · exact wp.posting p hp
  | @registerTask call target_time loop hposting hstep =>
      have hheld := (wp.posting _ hposting).2
      refine ⟨wellFormed_afterPosting wp.wf hheld, LoopImpl.balanced_step wp.balanced hstep,
        wp.balanced.ascending_step wp.ascending hstep, fun p hp => ?_⟩
      rw [afterPosting_held]
      exact wp.posting p (List.mem_of_mem_erase hp)
  | @invoke call loop i batch hidle hbatch hcall hstep =>
      refine ⟨wellFormed_runCall wp.wf hidle call, LoopImpl.balanced_step wp.balanced hstep,
        wp.balanced.ascending_step wp.ascending hstep, fun p hp => ?_⟩
      rw [runCall_held]
      exact wp.posting p hp
  | loop hstep hinvoke hregister =>
      exact ⟨wp.wf, LoopImpl.balanced_step wp.balanced hstep,
        wp.balanced.ascending_step wp.ascending hstep, wp.posting⟩

/-! ## A step in the view -/

omit [DecidableEq Hash] [DelayedTaskQueue Q ℕ] in
lemma mem_numbers {i : ℕ} :
    i ∈ s.numbers ↔ i ∈ s.loop.queue.registered ∧ i ∉ s.loop.executed := by
  rw [numbers, List.mem_filter, decide_eq_true_iff]

omit [DecidableEq Hash] in
/-- The next closure of the batch is registered and has not run. -/
lemma WellPosted.mem_of_batch (wp : s.WellPosted) {i : ℕ} {batch : List ℕ}
    (hbatch : s.loop.control.batch = i :: batch) : i ∈ s.numbers := by
  have hinvocations := wp.balanced.invocations
  have hnodup := Multiset.coe_nodup.mpr wp.balanced.accounted.nodup
  have hconserved := wp.balanced.accounted.conserved
  rw [hbatch] at hinvocations
  refine mem_numbers.mpr ⟨?_, fun hi => ?_⟩
  · rw [← Multiset.mem_coe, hconserved, hinvocations]
    simp
  · rw [hconserved, Multiset.nodup_add, Multiset.nodup_add, Multiset.coe_nodup,
      hinvocations] at hnodup
    exact (List.nodup_append.mp hnodup.1.1).2.2 i hi i (List.mem_cons_self ..) rfl

omit [DecidableEq Hash] in
lemma WellPosted.numbers_nodup (wp : s.WellPosted) : s.numbers.Nodup :=
  wp.balanced.accounted.nodup.filter _

omit [DecidableEq Hash] in
/-- A step that neither registers nor runs a call leaves the outstanding ones. -/
lemma outstanding_of_step {a : LoopAction} {loop : LoopImpl Q} (hstep : s.loop.step a = some loop)
    (hinvoke : a ≠ .invoke) (hregister : ∀ target_time, a ≠ .registerTask target_time)
    (client : CurlClient Hash) (posting : List (TimePoint × PostedCall Hash)) :
    outstanding ⟨client, loop, posting, s.calls⟩ = s.outstanding := by
  simp only [outstanding, numbers, LoopImpl.registered_of_step hstep hregister,
    LoopImpl.executed_of_step hstep hinvoke]

omit [DecidableEq Hash] in
/-- A registered call is the last one outstanding. -/
lemma WellPosted.outstanding_registerTask (wp : s.WellPosted) {target_time : TimePoint}
    {loop : LoopImpl Q} (hstep : s.loop.step (.registerTask target_time) = some loop)
    (client : CurlClient Hash) (posting : List (TimePoint × PostedCall Hash))
    (call : PostedCall Hash) :
    outstanding ⟨client, loop, posting,
      Function.update s.calls s.loop.queue.registrations (some call)⟩
        = s.outstanding ++ [call] := by
  have hold : ∀ i ∈ s.loop.queue.registered, i ≠ s.loop.queue.registrations :=
    fun i hi => (wp.balanced.accounted.numbered i hi).ne
  have hnew : s.loop.queue.registrations ∉ s.loop.executed := by
    intro hmem
    refine hold _ ?_ rfl
    rw [← Multiset.mem_coe, wp.balanced.accounted.conserved, wp.balanced.invocations]
    simp [hmem]
  cases LoopImpl.moves_of_step hstep
  show ((s.loop.queue.registered ++ [s.loop.queue.registrations]).filter
    fun i => i ∉ s.loop.executed).filterMap _ = _
  rw [List.filter_append, List.filterMap_append, outstanding, numbers]
  congr 1
  · refine List.filterMap_congr fun i hi => ?_
    exact Function.update_of_ne (hold i (List.mem_of_mem_filter hi)) ..
  · simp [hnew]

omit [DecidableEq Hash] in
/-- Running a call takes its number away. -/
lemma WellPosted.numbers_invoke (wp : s.WellPosted) {loop : LoopImpl Q} {i : ℕ} {batch : List ℕ}
    (hbatch : s.loop.control.batch = i :: batch) (hstep : s.loop.step .invoke = some loop)
    (client : CurlClient Hash) :
    numbers { s with loop := loop, client := client } = s.numbers.erase i := by
  have hexecuted : loop.executed = s.loop.executed ++ [i] := by
    cases LoopImpl.moves_of_step hstep with
    | invoke hserving =>
        rw [hserving] at hbatch
        rw [(List.cons.inj hbatch).1]
    | invokeLast hfinishing =>
        rw [hfinishing] at hbatch
        rw [(List.cons.inj hbatch).1]
  rw [wp.numbers_nodup.erase_eq_filter, numbers, numbers, List.filter_filter,
    LoopImpl.registered_of_step hstep (by simp), hexecuted]
  refine List.filter_congr fun j _ => ?_
  by_cases hj : j = i <;> simp [hj]

lemma runCall_posted (client : CurlClient Hash) (call : PostedCall Hash)
    (l : List (PostedCall Hash)) :
    runCall { client with posted := l } call = { runCall client call with posted := l } := by
  cases call with
  | startRequest hash caller =>
      simp only [runCall, CurlClient.startRequest]
      split
      · rfl
      · split <;> rfl
  | cancelRequest hash caller =>
      simp only [runCall, CurlClient.cancelRequest]
      split <;> rfl

/-- The client thread takes the call off the posted ones and runs it. -/
lemma run_runPosted {client : CurlClient Hash} (hidle : client.thread = .idle)
    (call : PostedCall Hash) (rest : List (PostedCall Hash)) :
    run CurlClient.step { client with posted := call :: rest } [.runPosted]
      = some { runCall client call with posted := rest } := by
  have hthread : client.thread ≠ .crashed := by simp [hidle]
  rw [← runCall_posted, run_cons]
  simp only [CurlClient.step, if_neg hthread]
  cases call with
  | startRequest hash caller => simp only [hidle]; rfl
  | cancelRequest hash caller => simp only [hidle]; rfl

/-- What a registered call does for the client. -/
lemma run_asked {client : CurlClient Hash} (hthread : client.thread ≠ .crashed)
    {call : PostedCall Hash} (hhash : call.hash = call.caller.identifier_)
    (hheld : call.caller ∈ client.held) (l : List (PostedCall Hash)) :
    run CurlClient.step { client with posted := l } [call.asked]
      = some { afterPosting client call with posted := l ++ [call] } := by
  rw [run_cons]
  cases call with
  | startRequest hash caller =>
      obtain rfl : hash = caller.identifier_ := hhash
      have hheld : caller ∈ client.held := hheld
      simp only [CurlClient.step, PostedCall.asked, if_neg hthread, if_pos hheld]
      rfl
  | cancelRequest hash caller =>
      obtain rfl : hash = caller.identifier_ := hhash
      have hheld : caller ∈ client.held := hheld
      simp only [CurlClient.step, PostedCall.asked, if_neg hthread, if_pos hheld]
      rfl

/-- The same client, but for the order of the posted calls. -/
def SameBut (x y : CurlClient Hash) : Prop := ∃ l, l.Perm x.posted ∧ y = { x with posted := l }

/-- The closure that is invoked next is the first one registered of those not run. -/
def InTurn (s : LoopClient Hash Q) : Prop :=
  ∀ i batch, s.loop.control.batch = i :: batch → s.numbers.head? = some i

/-- **A step in the view.**  It is its label, once the call that is run is moved to the front; and
there it is if it is in turn. -/
theorem simulates_step (wp : s.WellPosted) (ht : s.step a = some t) :
    ∃ l, l.Perm s.outstanding ∧
      run CurlClient.step { s.client with posted := l } (label a) = some t.view ∧
      (s.InTurn → l = s.outstanding) := by
  rcases moves_of_step ht with ⟨hthread, hmoves⟩
  cases hmoves with
  | client hallows hstep =>
      exact ⟨_, List.Perm.refl _, run_cons_eq_some.mpr ⟨_, step_view hallows hstep _, rfl⟩,
        fun _ => rfl⟩
  | postTask hhash hheld hstep =>
      refine ⟨_, List.Perm.refl _, ?_, fun _ => rfl⟩
      rw [view, outstanding_of_step hstep (by simp) (by simp)]
      rfl
  | @registerTask call target_time loop hposting hstep =>
      rcases wp.posting _ hposting with ⟨hhash, hheld⟩
      refine ⟨_, List.Perm.refl _, ?_, fun _ => rfl⟩
      rw [view, wp.outstanding_registerTask hstep]
      exact run_asked hthread hhash hheld _
  | @invoke call loop i batch hidle hbatch hcall hstep =>
      have hnumbers := wp.numbers_invoke hbatch hstep (runCall s.client call)
      refine ⟨(i :: s.numbers.erase i).filterMap s.calls, ?_, ?_, fun hturn => ?_⟩
      · exact (List.perm_cons_erase (wp.mem_of_batch hbatch)).symm.filterMap _
      · rw [List.filterMap_cons, hcall, view, outstanding, hnumbers]
        exact run_runPosted hidle call _
      · rcases List.head?_eq_some_iff.mp (hturn i batch hbatch) with ⟨rest, hrest⟩
        rw [outstanding, hrest, List.erase_cons_head]
  | @loop b loop hstep hinvoke hregister =>
      refine ⟨_, List.Perm.refl _, ?_, fun _ => rfl⟩
      have hlabel : label (.loop b : LoopClientAction Hash) = [] := by
        cases b with
        | invoke => exact absurd rfl hinvoke
        | _ => rfl
      rw [hlabel, view, outstanding_of_step hstep hinvoke hregister]
      rfl

/-! ## First in, first out -/

/-- No call that is registered overtakes one that is pending, and `DisposeTasks` finds none. -/
def KeepsTurn (s : LoopClient Hash Q) : LoopClientAction Hash → Prop
  | .registerTask _ target_time => s.loop.NotOvertaken (.registerTask target_time)
  | .loop a => s.loop.NotOvertaken a
  | _ => True

instance (s : LoopClient Hash Q) : ∀ a, Decidable (s.KeepsTurn a)
  | .registerTask _ target_time =>
      inferInstanceAs (Decidable (s.loop.NotOvertaken (.registerTask target_time)))
  | .loop a => inferInstanceAs (Decidable (s.loop.NotOvertaken a))
  | .client _ | .postTask _ _ => inferInstanceAs (Decidable True)

omit [DecidableEq Hash] in
lemma WellPosted.inTurn (wp : s.WellPosted) (hfirst : s.loop.queue.FirstInFirstOut) :
    s.InTurn := by
  intro i batch hbatch
  rcases hfirst.invocations_first with ⟨rest, hrest⟩
  rw [wp.balanced.invocations, hbatch] at hrest
  have hexecuted : (s.loop.executed.filter fun j => j ∉ s.loop.executed) = [] := by
    simp
  have hi : i ∉ s.loop.executed := (mem_numbers.mp (wp.mem_of_batch hbatch)).2
  rw [numbers, ← hrest, List.filter_append, List.filter_append, hexecuted, List.nil_append,
    List.filter_cons_of_pos (by simpa using hi)]
  rfl

lemma firstInFirstOut_step (hfirst : s.loop.queue.FirstInFirstOut) (ht : s.step a = some t)
    (hkeeps : s.KeepsTurn a) : t.loop.queue.FirstInFirstOut := by
  cases (moves_of_step ht).2 with
  | client hallows hstep => exact hfirst
  | postTask hhash hheld hstep =>
      exact LoopImpl.firstInFirstOut_step hfirst hstep fun _ hcall => nomatch hcall
  | registerTask hposting hstep => exact LoopImpl.firstInFirstOut_step hfirst hstep hkeeps
  | invoke hidle hbatch hcall hstep => exact LoopImpl.firstInFirstOut_step hfirst hstep hkeeps
  | loop hstep hinvoke hregister => exact LoopImpl.firstInFirstOut_step hfirst hstep hkeeps

/-- **The loop is a queue of calls.**  If no call overtakes a pending one, by a clock reading that
is earlier or a registration counter that has wrapped, and if every `DisposeTasks` finds the loop's
queue empty, then the client on its loop does what the client with a first-in-first-out queue of
posted calls does. -/
theorem view_run {n : ℕ} {acts : List (LoopClientAction Hash)}
    (hkeeps : EveryStep step (fun s a _ => s.KeepsTurn a) (create n : LoopClient Hash Q) acts)
    (hs : run step (create n) acts = some s) :
    run CurlClient.step CurlClient.create (acts.flatMap label) = some s.view := by
  refine run_view view label
    (I := fun s => s.WellPosted ∧ s.loop.queue.FirstInFirstOut) ?_
    ⟨wellPosted_create n, QueueHistory.firstInFirstOut_created _ n⟩ hkeeps hs
  rintro s a t ⟨wp, hfirst⟩ ht hkeeps
  refine ⟨⟨wellPosted_step wp ht, firstInFirstOut_step hfirst ht hkeeps⟩, ?_⟩
  rcases simulates_step wp ht with ⟨l, _, hview, hl⟩
  rw [hl (wp.inTurn hfirst)] at hview
  exact hview

/-- Two requests, posted one after the other and run in one slice; the first is completed. -/
def twoRequests : List (LoopClientAction ℕ) :=
  [.client (.taskWithRequest 7), .postTask (.startRequest 7 ⟨0, 7⟩) ⟨1⟩,
    .registerTask (.startRequest 7 ⟨0, 7⟩) ⟨1⟩, .client (.taskWithRequest 8), .loop .doRunForTime,
    .postTask (.startRequest 8 ⟨1, 8⟩) ⟨2⟩, .registerTask (.startRequest 8 ⟨1, 8⟩) ⟨2⟩,
    .loop .runReturns, .loop (.runExpiredTasksNow ⟨3⟩), .loop .invoke, .loop .invoke,
    .loop .disposeTasks, .client (.handleCurlMsg ⟨0, 7⟩ CURLE_OK 200), .client .didFinishedReturns]

theorem view_run_twoRequests :
    ∃ s : LoopClient ℕ (SortedQueue (@DelayedTask.gt ℕ)), run step (create 0) twoRequests = some s ∧
      run CurlClient.step CurlClient.create (twoRequests.flatMap label) = some s.view := by
  have hs : run step (create 0 : LoopClient ℕ (SortedQueue (@DelayedTask.gt ℕ))) twoRequests
    = some _ := rfl
  exact ⟨_, hs, view_run (by decide) hs⟩

/-! ## No request is lost but by `DisposeTasks` -/

/-- `TaskWithRequest` finds no entry for its hash. -/
def FindsUnmapped (s : LoopClient Hash Q) : LoopClientAction Hash → Prop
  | .client a => s.client.FindsUnmapped a
  | _ => True

instance (s : LoopClient Hash Q) : ∀ a, Decidable (s.FindsUnmapped a)
  | .client (.taskWithRequest hash) =>
      inferInstanceAs (Decidable (s.client.request_task_map_ hash = none))
  | .client (.resume _) | .client (.cancel _) | .client (.release _) | .client .runPosted
  | .client .didCancelledReturns | .client (.handleCurlMsg _ _ _) | .client .didFinishedReturns
  | .postTask _ _ | .registerTask _ _ | .loop _ => inferInstanceAs (Decidable True)

/-- What the client keeps if every `TaskWithRequest` finds no entry. -/
structure Sound (c : CurlClient Hash) : Prop where
  owners : c.OwnersFound
  tracked : c.Tracked
  running : c.thread ≠ .crashed

omit [DecidableEq Hash] in
lemma sound_create : Sound (CurlClient.create : CurlClient Hash) :=
  ⟨CurlClient.ownersFound_create, CurlClient.tracked_create, nofun⟩

omit [DecidableEq Hash] in
lemma Sound.sameBut {x y : CurlClient Hash} (sound : Sound x) (h : SameBut x y) : Sound y := by
  rcases h with ⟨l, hl, rfl⟩
  refine ⟨⟨{ sound.owners.wf with }, sound.owners.owned, sound.owners.handling⟩,
    ⟨sound.tracked.mapped, fun z hz hopen hres => ?_⟩, sound.running⟩
  refine (sound.tracked.started z hz hopen hres).imp id fun ⟨caller, hmem⟩ => ⟨caller, ?_⟩
  exact hl.mem_iff.mpr hmem

/-- With no entry replaced, no message is for a task that is gone. -/
lemma sound_step {c c' : CurlClient Hash} {a : CurlAction Hash} (sound : Sound c)
    (hstep : c.step a = some c') (hfinds : c.FindsUnmapped a) : Sound c' := by
  have wf := sound.owners.wf
  have hkeeps : c.KeepsOwner a := by
    cases a with
    | taskWithRequest hash =>
        intro old hold
        have hnone : c.request_task_map_ hash = none := hfinds
        rw [hnone] at hold
        cases hold
    | _ => trivial
  refine ⟨CurlClient.ownersFound_step sound.owners hstep hkeeps,
    CurlClient.tracked_step wf hstep hfinds sound.tracked, ?_⟩
  rcases CurlClient.moves_of_step wf hstep with ⟨hthread, hmoves⟩
  cases hmoves with
  | @startRequest hash caller rest hidle hposted =>
      rcases CurlClient.startRequest_eq { c with posted := rest } hash with ⟨handles, heq, _⟩
      rw [heq]
      exact hthread
  | cancelRequest _ _ _ | handleCurlMsg _ _ _ => exact nofun
  | didCancelledReturns _ _ | didFinishedReturns _ _ => exact nofun
  | @nullTask handle result status_code hidle hhandle hmap =>
      rw [sound.owners.owned handle hhandle] at hmap
      cases hmap
  | @freedHandle x handle hfinished hfreed =>
      rcases sound.owners.handling x handle hfinished with ⟨rfl, _⟩
      rw [CurlClient.alive_iff.mpr (Or.inr (Or.inr ⟨_, hfinished⟩))] at hfreed
      cases hfreed
  | _ => exact hthread

omit [DelayedTaskQueue Q ℕ] in
/-- The conditions on a step and on its label agree. -/
lemma everyStep_label {x : CurlClient Hash} {l : List (PostedCall Hash)}
    (hx : x = { s.client with posted := l }) (hfinds : s.FindsUnmapped a) :
    EveryStep CurlClient.step (fun c a _ => c.FindsUnmapped a) x (label a) := by
  subst hx
  cases a with
  | client a =>
      refine everyStep_cons.mpr fun c _ => ⟨?_, everyStep_nil _ _⟩
      cases a with
      | taskWithRequest hash => exact hfinds
      | _ => trivial
  | registerTask call target_time =>
      refine everyStep_cons.mpr fun c _ => ⟨?_, everyStep_nil _ _⟩
      cases call <;> trivial
  | postTask call target_time => exact everyStep_nil _ _
  | loop b =>
      cases b with
      | invoke => exact everyStep_cons.mpr fun c _ => ⟨trivial, everyStep_nil _ _⟩
      | _ => exact everyStep_nil _ _

theorem sound_run {n : ℕ} {acts : List (LoopClientAction Hash)}
    (hfinds : EveryStep step (fun s a _ => s.FindsUnmapped a) (create n : LoopClient Hash Q) acts)
    (hs : run step (create n) acts = some s) : Sound s.view := by
  have hkeep : ∀ (c : CurlClient Hash) (a : CurlAction Hash) (c' : CurlClient Hash), Sound c →
      c.step a = some c' → c.FindsUnmapped a → Sound c' := fun _ _ _ => sound_step
  refine view_invariant view label (I := WellPosted) (D := fun c a _ => c.FindsUnmapped a)
    (fun x y hxy sound => sound.sameBut hxy) hkeep ?_ (wellPosted_create n) sound_create hfinds hs
  intro s a t wp ht hfinds
  rcases simulates_step wp ht with ⟨l, hl, hview, _⟩
  exact ⟨wellPosted_step wp ht, _, ⟨l, hl, rfl⟩, everyStep_label rfl hfinds, hview⟩

end LoopClient

end FFNetwork
