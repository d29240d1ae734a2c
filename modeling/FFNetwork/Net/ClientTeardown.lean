import FFNetwork.Lib.Potential
import FFNetwork.Net.ClientLifetime

/-!
# The destructor of a client

`CurlClient::~CurlClient` waits for the request thread to see `is_terminated_`.  By then the client
has no owner, so nothing is posted to the request thread any more but the closure of `Join`, and
each step of the request thread uses up something that is there.

* `potential` — what is left to do; `potential_step`.
* `canStep_of_teardown` — the destructor or the request thread can go on.
* **`destructor_returns`** — the two need a bounded number of steps, and never wait for each other
  for ever.
-/

namespace FFNetwork

open PriorityQueue StepSystem

namespace OwnedClient

variable {Thread Hash Q : Type} [DecidableEq Thread] [DecidableEq Hash] [DelayedTaskQueue Q ℕ]
  {s t : OwnedClient Thread Hash Q} {a : OwnedClientAction Thread Hash}

/-! ## What is left to do -/

/-- What `HandleCurlMsg` has to do at most. -/
def messagesRank (c : CurlClient Hash) : ℕ :=
  match c.thread with
  | .idle => 2 * c.curl_multi_handle_.length
  | .inDidFinished _ handle => 2 * (c.curl_multi_handle_.erase handle).length + 1
  | .inDidCancelled _ => 2 * c.curl_multi_handle_.length + 1
  | .crashed => 0

/-- A callback has to return. -/
def callbackRank : ClientThread Hash → ℕ
  | .inDidFinished _ _ | .inDidCancelled _ => 1
  | _ => 0

/-- What is left of a slice, but for what the loop waits for. -/
def controlRank : LoopControl → ℕ
  | .outside => 0
  | .finishing batch => 1 + 3 * batch.length
  | .returned => 2
  | .waiting _ => 3
  | .serving _ batch => 4 + 3 * batch.length

/-- What is left of `Run` once `is_terminated_` is set. -/
def progressRank (s : OwnedClient Thread Hash Q) : ℕ :=
  match s.progress with
  | .exited => 0
  | .testing => 1
  | .waiting => 2
  | .serving _ => 3 + controlRank s.inner.loop.control + callbackRank s.inner.client.thread
  | .handling _ _ => 8 + messagesRank s.inner.client
  | .performing => 9 + 2 * s.inner.client.curl_multi_handle_.length

/-- What is left of the destructor; the closure of `Join` is one more for the loop. -/
def teardownRank : Teardown → ℕ
  | .joining => 7
  | .posting _ => 6
  | .waiting => 2
  | .joined => 1
  | _ => 0

/-- What is left of the teardown altogether; a pending closure is invoked, which may call back. -/
def potential (s : OwnedClient Thread Hash Q) : ℕ :=
  teardownRank s.teardown + 3 * Multiset.card s.inner.loop.queue.entry.pending + s.progressRank

/-- The loop has waited for its timer. -/
def wakes : LoopAction → Bool
  | .onEventFired _ => true
  | _ => false

/-- What a step of the loop uses up; the closure that is invoked may call back. -/
def spent : LoopAction → ℕ
  | .invoke => 3
  | _ => 1

/-- What users do, what the loop waits for inside of `RunForTime`, and the registrations of other
loops, which take a number from the `order_` that all queues share. -/
def elective : OwnedClientAction Thread Hash → Bool
  | .release _ | .registerElsewhere => true
  | .slice a => wakes a
  | _ => false

/-- The end of a task makes the multi handle smaller. -/
lemma length_removeAndCleanup_le (c : CurlClient Hash) (handle : RequestTask Hash) (hash : Hash) :
    (c.removeAndCleanup handle hash).curl_multi_handle_.length
      ≤ (c.curl_multi_handle_.erase handle).length :=
  List.length_filter_le ..

/-- The message is taken out of the queue, and the callback is called. -/
lemma messagesRank_handleCurlMsg {c c' : CurlClient Hash} (wf : c.WellFormed)
    {handle : RequestTask Hash} {result : CURLcode} {status_code : Int32}
    (hstep : c.step (.handleCurlMsg handle result status_code) = some c') :
    messagesRank c' < messagesRank c := by
  cases (CurlClient.moves_of_step wf hstep).2 with
  | handleCurlMsg hidle hhandle hmap =>
      have hlength := List.length_erase_of_mem hhandle
      have hpos := List.length_pos_of_mem hhandle
      simp only [messagesRank, hidle]
      omega
  | nullTask hidle hhandle hmap =>
      have hpos := List.length_pos_of_mem hhandle
      simp only [messagesRank, hidle]
      omega

/-- A callback that returns takes its task out, or the process is gone. -/
lemma callbackReturns_lt {c c' : CurlClient Hash} (wf : c.WellFormed)
    (hstep : c.step c.callbackReturns = some c') :
    messagesRank c' < messagesRank c ∧ callbackRank c'.thread < callbackRank c.thread := by
  cases hthread : c.thread with
  | idle | crashed => simp [CurlClient.callbackReturns, CurlClient.step, hthread] at hstep
  | inDidCancelled hash =>
      rw [CurlClient.callbackReturns, hthread] at hstep
      cases (CurlClient.moves_of_step wf hstep).2 with
      | @didCancelledReturns hash' x hthread' hmap =>
          have hle := length_removeAndCleanup_le c x hash'
          have herase := (List.erase_sublist (a := x) (l := c.curl_multi_handle_)).length_le
          refine ⟨?_, Nat.one_pos⟩
          show 2 * (c.removeAndCleanup x hash').curl_multi_handle_.length < messagesRank c
          simp only [messagesRank, hthread]
          omega
  | inDidFinished x handle =>
      rw [CurlClient.callbackReturns, hthread] at hstep
      cases (CurlClient.moves_of_step wf hstep).2 with
      | @didFinishedReturns _ handle' hthread' halive =>
          rw [hthread, ClientThread.inDidFinished.injEq] at hthread'
          rcases hthread' with ⟨rfl, rfl⟩
          have hle := length_removeAndCleanup_le c handle handle.identifier_
          refine ⟨?_, Nat.one_pos⟩
          show 2 * (c.removeAndCleanup _ _).curl_multi_handle_.length < messagesRank c
          simp only [messagesRank, hthread]
          omega
      | freedHandle hthread' hfreed => exact ⟨by simp [messagesRank, hthread], Nat.one_pos⟩

/-- A flush takes from the queue what it invokes. -/
lemma card_flushTasks (queue : QueueHistory Q) (now : TimePoint) :
    Multiset.card (LoopImpl.flushTasks queue now).1.entry.pending
        + (LoopImpl.flushTasks queue now).2.length
      = Multiset.card queue.entry.pending := by
  have hmoved := congrArg Multiset.card (queue.entry.getTasksToRunNow_conserves .kAll now [])
  show Multiset.card (queue.entry.getTasksToRunNow .kAll now queue.invocations).1.pending
    + (queue.entry.getTasksToRunNow .kAll now []).2.length = _
  rw [queue.entry.getTasksToRunNow_append, add_comm]
  simpa using hmoved

/-- A step of the loop inside `RunForTime`. -/
lemma controlRank_loop {loop loop' : LoopImpl Q} {a : LoopAction} (hslicing : slicing a = true)
    (hstep : loop.step a = some loop') :
    controlRank loop'.control + 3 * Multiset.card loop'.queue.entry.pending + spent a
      ≤ controlRank loop.control + 3 * Multiset.card loop.queue.entry.pending
        + if wakes a then 2 else 0 := by
  cases LoopImpl.moves_of_step hstep with
  | @onEventFired now call hwait =>
      have hmoved := card_flushTasks loop.queue now
      simp only [controlRank, hwait, wakes, spent, if_true]
      omega
  | invoke hserving =>
      simp only [controlRank, hserving, List.length_cons, spent]
      omega
  | invokeLast hfinishing =>
      simp only [controlRank, hfinishing, List.length_cons, spent]
      omega
  | flushed hserving =>
      simp only [controlRank, hserving, List.length_nil, spent]
      omega
  | runReturns hwait | runForTimeReturns hwait =>
      simp only [controlRank, hwait, spent]
      omega
  | @runExpiredTasksNow now hreturned =>
      have hmoved := card_flushTasks loop.queue now
      simp only [controlRank, hreturned, spent]
      omega
  | disposeTasks hfinishing =>
      have hnone : (loop.queue.step .disposeTasks).entry.pending = 0 :=
        TaskQueueEntry.disposeTasks_pending _
      simp only [controlRank, hfinishing, List.length_nil, spent, hnone, Multiset.card_zero]
      omega
  | doRun _ _ | doRunTerminated _ _ | doRunForTime _ _ | doRunForTimeTerminated _ _ | doTerminate
  | postTask _ | postTaskTerminated _ | registerTask _ | registerElsewhere => cases hslicing

omit [DecidableEq Hash] in
lemma callbackRank_le (thread : ClientThread Hash) : callbackRank thread ≤ 1 := by
  cases thread <;> simp [callbackRank]

/-- A step inside `RunForTime`, with the callback that it may call. -/
lemma controlRank_step {inner inner' : LoopClient Hash Q} {a : LoopAction}
    (hslicing : slicing a = true) (hstep : inner.step (.loop a) = some inner') :
    controlRank inner'.loop.control + callbackRank inner'.client.thread
        + 3 * Multiset.card inner'.loop.queue.entry.pending + 1
      ≤ controlRank inner.loop.control + callbackRank inner.client.thread
        + 3 * Multiset.card inner.loop.queue.entry.pending + if wakes a then 2 else 0 := by
  rcases LoopClient.loop_of_step hstep with ⟨hloop, -, -, -, hclient⟩
  have hcontrol := controlRank_loop hslicing hloop
  rcases hclient with hclient | ⟨rfl, hidle, call, hclient⟩
  · have hspent : 1 ≤ spent a := by cases a <;> simp [spent]
    rw [hclient]
    omega
  · have hcallback := callbackRank_le inner'.client.thread
    have hspent : spent .invoke = 3 := rfl
    omega

/-- A user who lets a task go does not give the request thread more to do. -/
lemma release_le {c c' : CurlClient Hash} {x : RequestTask Hash}
    (hstep : c.step (.release x) = some c') :
    c'.thread = c.thread ∧ messagesRank c' ≤ messagesRank c ∧
      c'.curl_multi_handle_.length ≤ c.curl_multi_handle_.length := by
  have hsublist : c'.curl_multi_handle_.Sublist c.curl_multi_handle_ ∧ c'.thread = c.thread := by
    rw [CurlClient.step] at hstep
    split at hstep
    · cases hstep
    · cases hstep
      exact ⟨List.filter_sublist, rfl⟩
  rcases hsublist with ⟨hsublist, hthread⟩
  refine ⟨hthread, ?_, hsublist.length_le⟩
  have hlength := hsublist.length_le
  rw [messagesRank, messagesRank, hthread]
  cases c.thread with
  | idle | inDidCancelled hash => simp only; omega
  | inDidFinished y handle =>
      have herase := (hsublist.erase handle).length_le
      simp only
      omega
  | crashed => exact le_rfl

omit [DecidableEq Thread] [DecidableEq Hash] in
/-- In a callback or a call of the loop, `Run` is where these are made. -/
lemma Sound.inside (hs : s.Sound) (hnot : ¬ s.Between) :
    (∃ active handled, s.progress = .handling active handled) ∨
      ∃ active, s.progress = .serving active :=
  hs.between.resolve_left hnot

omit [DecidableEq Thread] [DelayedTaskQueue Q ℕ] in
lemma potential_advance {active : Bool} {progress : RunProgress} (hflag : s.is_terminated_ = true)
    (hbetween : s.Between) (hnext : s.progress.next active s.is_terminated_ = some progress) :
    progressRank { s with progress := progress } + 1 ≤ s.progressRank := by
  rcases hbetween with ⟨hidle, hout⟩
  rw [hflag] at hnext
  cases hprogress : s.progress with
  | testing | waiting | performing =>
      rw [hprogress] at hnext
      cases hnext
      simp only [progressRank, hprogress, messagesRank, hidle, if_true]
      omega
  | handling active' handled =>
      rw [hprogress] at hnext
      cases handled with
      | false => cases hnext
      | true =>
          cases hnext
          simp only [progressRank, hprogress]
          omega
  | serving active' =>
      rw [hprogress] at hnext
      cases active' with
      | false | true =>
          cases hnext
          simp only [progressRank, hprogress, if_true]
          omega
  | exited =>
      rw [hprogress] at hnext
      cases hnext

/-- **One step of the teardown.** -/
lemma potential_step (hs : s.Sound) (halive : s.teardown ≠ .alive) (ht : s.step a = some t) :
    t.potential + 1 ≤ s.potential + if elective a then 2 else 0 := by
  have hflag : s.is_terminated_ = true := hs.flag.mpr halive
  cases (moves_of_step ht).2.2 with
  | acquire howned => exact absurd (hs.owned.mpr halive) howned
  | drop hfree | taskWithRequest hfree _ | postTask hfree _ =>
      exact absurd (hs.alive hfree).1 halive
  | registerTask hposts hstep => exact absurd (hs.alive_of_posts hposts) halive
  | release hstep =>
      rcases LoopClient.client_of_step hstep with ⟨-, hclient, hloop, -⟩
      rcases release_le hclient with ⟨hthread, hmessages, hlength⟩
      simp only [potential, progressRank, elective, hloop, hthread, if_true]
      cases s.progress <;> simp only <;> omega
  | @registerElsewhere inner hstep =>
      rcases LoopClient.loop_of_step hstep with ⟨hloop, -, -, -, hclient | ⟨hinvoke, -⟩⟩
      · simp only [potential, progressRank, elective, hclient, if_true]
        generalize inner.loop = loop at hloop
        cases LoopImpl.moves_of_step hloop
        exact Nat.add_le_add_left (Nat.le_succ 1) s.potential
      · cases hinvoke
  | advance hbetween hnext =>
      have hadvance := potential_advance hflag hbetween hnext
      simp only [potential, elective] at hadvance ⊢
      omega
  | handleCurlMsg hrun hstep =>
      rcases LoopClient.client_of_step hstep with ⟨-, hclient, hloop, -⟩
      have hmessages := messagesRank_handleCurlMsg hs.wp.wf hclient
      simp only [potential, progressRank, hrun, hloop]
      omega
  | callbackReturns hstep =>
      rcases LoopClient.client_of_step hstep with ⟨-, hclient, hloop, -⟩
      rcases callbackReturns_lt hs.wp.wf hclient with ⟨hmessages, hcallback⟩
      rcases hs.inside (not_between_of_callback hclient) with ⟨_, _, hrun⟩ | ⟨_, hrun⟩
      · simp only [potential, progressRank, hrun, hloop]
        omega
      · simp only [potential, progressRank, hrun, hloop]
        omega
  | @runForTime active inner hrun hstep =>
      rcases LoopClient.loop_of_step hstep with ⟨hloop, -⟩
      have hcallback := callbackRank_le inner.client.thread
      simp only [potential, progressRank, hrun, elective]
      generalize inner.loop = loop at hloop
      cases LoopImpl.moves_of_step hloop with
      | doRunForTimeTerminated hout hterm =>
          simp only [controlRank, hout]
          omega
      | doRunForTime hout hterm =>
          simp only [controlRank]
          omega
  | @slice a active inner hrun hslicing hstep =>
      have hcontrol := controlRank_step hslicing hstep
      have hwakes : elective (.slice a : OwnedClientAction Thread Hash) = wakes a := rfl
      rw [hwakes]
      simp only [potential, progressRank, hrun]
      omega
  | invokeTerminate hidle hhead hstep =>
      have hcontrol := controlRank_loop rfl hstep
      have hinvoke : spent .invoke = 3 ∧ wakes .invoke = false := ⟨rfl, rfl⟩
      rw [hinvoke.1, hinvoke.2] at hcontrol
      have hrun : ∃ active, s.progress = .serving active := by
        refine (hs.inside fun hbetween => ?_).resolve_left ?_
        · exact not_outside_of_invoke hstep hbetween.2
        · rintro ⟨active, handled, hhandling⟩
          exact not_outside_of_invoke hstep (hs.handling _ _ hhandling)
      rcases hrun with ⟨active, hrun⟩
      simp only [potential, progressRank, hrun, elective]
      simp only [Bool.false_eq_true, if_false] at hcontrol ⊢
      omega
  | postTerminate hjoining hstep =>
      simp only [potential, progressRank, hjoining, elective]
      cases LoopImpl.moves_of_step hstep with
      | postTaskTerminated hterm =>
          rw [if_pos hterm]
          simp only [teardownRank]
          omega
      | postTask hterm =>
          rw [hterm]
          simp only [teardownRank, Bool.false_eq_true, if_false]
          omega
  | registerTerminate hposting hstep =>
      simp only [potential, progressRank, hposting, elective]
      cases LoopImpl.moves_of_step hstep with
      | registerTask _ =>
          simp only [QueueHistory.step, TaskQueueEntry.registerTask_pending, Multiset.card_cons,
            teardownRank]
          omega
  | join hwaiting hrun =>
      simp only [potential, progressRank, teardownRank, hwaiting, hrun]
      omega
  | removeRemaining hjoined =>
      have hexited := hs.joined (Or.inl hjoined)
      simp only [potential, progressRank, teardownRank, hjoined, hexited]
      omega

/-! ## No deadlock -/

/-- Somebody can take a step that is not elective. -/
def CanStep (s : OwnedClient Thread Hash Q) : Prop :=
  ∃ a, elective a = false ∧ (s.step a).isSome = true

/-- In a callback, it can return. -/
lemma canStep_of_callback (haborted : s.teardown ≠ .aborted)
    (hcrashed : s.inner.client.thread ≠ .crashed) (hcallback : s.inner.client.thread ≠ .idle) :
    s.CanStep := by
  refine ⟨.callbackReturns, rfl, ?_⟩
  cases hthread : s.inner.client.thread with
  | idle => exact absurd hthread hcallback
  | crashed => exact absurd hthread hcrashed
  | inDidFinished x handle | inDidCancelled hash =>
      simp [step, within, LoopClient.step, LoopClient.allows, CurlClient.step,
        CurlClient.callbackReturns, hthread, haborted]

/-- Inside `RunForTime` the loop can invoke the next closure, or go on. -/
lemma Sound.canStep_of_serving (hs : s.Sound) (haborted : s.teardown ≠ .aborted)
    (hidle : s.inner.client.thread = .idle) {active : Bool} (hrun : s.progress = .serving active) :
    s.CanStep := by
  have hbatch : ∀ i batch, s.inner.loop.control.batch = i :: batch →
      (s.inner.loop.step .invoke).isSome = true → s.CanStep := by
    intro i batch hbatch hinvoke
    have hregistered := (LoopClient.mem_numbers.mp (hs.wp.mem_of_batch hbatch)).1
    rcases Option.isSome_iff_exists.mp hinvoke with ⟨loop, hloop⟩
    rcases hs.known i hregistered with hcall | hterminate
    · rcases Option.ne_none_iff_exists'.mp hcall with ⟨call, hcall⟩
      refine ⟨.slice .invoke, rfl, ?_⟩
      simp [step, within, LoopClient.step, LoopClient.loopStep, LoopClient.invocation, hidle,
        haborted, hrun, slicing, hbatch, hcall, LoopImpl.sliceStep, hloop]
    · refine ⟨.invokeTerminate, rfl, ?_⟩
      have hinvoked : (OwnedClient.invokeTerminate s.inner).isSome = true := by
        rw [OwnedClient.invokeTerminate, hloop]
        rfl
      simp [step, hidle, haborted, hbatch, hterminate, hinvoked]
  cases hcontrol : s.inner.loop.control with
  | outside =>
      refine ⟨.advance false, rfl, ?_⟩
      cases active <;>
        simp [step, Between, hidle, haborted, hcontrol, hrun, RunProgress.next]
  | waiting call =>
      refine ⟨.slice .runReturns, rfl, ?_⟩
      cases call <;>
        simp [step, within, LoopClient.step, LoopClient.loopStep, hidle, haborted, hrun, slicing,
          LoopImpl.sliceStep, LoopImpl.step, hcontrol]
  | returned =>
      refine ⟨.slice (.runExpiredTasksNow ⟨0⟩), rfl, ?_⟩
      simp [step, within, LoopClient.step, LoopClient.loopStep, hidle, haborted, hrun, slicing,
        LoopImpl.sliceStep, LoopImpl.step, hcontrol]
  | serving call batch =>
      cases batch with
      | nil =>
          refine ⟨.slice .flushed, rfl, ?_⟩
          simp [step, within, LoopClient.step, LoopClient.loopStep, hidle, haborted, hrun, slicing,
            LoopImpl.sliceStep, LoopImpl.step, hcontrol]
      | cons i batch =>
          refine hbatch i batch (by rw [hcontrol]; rfl) ?_
          simp [LoopImpl.step, hcontrol]
  | finishing batch =>
      cases batch with
      | nil =>
          refine ⟨.slice .disposeTasks, rfl, ?_⟩
          simp [step, within, LoopClient.step, LoopClient.loopStep, hidle, haborted, hrun, slicing,
            LoopImpl.sliceStep, LoopImpl.step, hcontrol]
      | cons i batch =>
          refine hbatch i batch (by rw [hcontrol]; rfl) ?_
          simp [LoopImpl.step, hcontrol]

/-- The request thread can go on, if it has not returned from `Run`. -/
lemma Sound.canStep_of_running (hs : s.Sound) (haborted : s.teardown ≠ .aborted)
    (hcrashed : s.inner.client.thread ≠ .crashed) (hrun : s.progress ≠ .exited) : s.CanStep := by
  by_cases hidle : s.inner.client.thread = .idle
  · by_cases hserving : ∃ active, s.progress = .serving active
    · rcases hserving with ⟨active, hserving⟩
      exact hs.canStep_of_serving haborted hidle hserving
    have hbetween : s.Between := by
      rcases hs.between with hbetween | ⟨active, handled, hhandling⟩ | hserving'
      · exact hbetween
      · exact ⟨hidle, hs.handling active handled hhandling⟩
      · exact absurd hserving' hserving
    cases hprogress : s.progress with
    | testing | performing | waiting =>
        refine ⟨.advance false, rfl, ?_⟩
        simp [step, haborted, hcrashed, hbetween, hprogress, RunProgress.next]
    | handling active handled =>
        cases handled with
        | true =>
            refine ⟨.advance false, rfl, ?_⟩
            simp [step, haborted, hcrashed, hbetween, hprogress, RunProgress.next]
        | false =>
            refine ⟨.runForTime, rfl, ?_⟩
            have hout := hbetween.2
            by_cases hterm : s.inner.loop.terminated_ = true <;>
              simp [step, haborted, hprogress, LoopClient.step, LoopClient.loopStep, hidle,
                LoopImpl.sliceStep, LoopImpl.step, hout, hterm]
    | serving active => exact absurd ⟨active, hprogress⟩ hserving
    | exited => exact absurd hprogress hrun
  · exact canStep_of_callback haborted hcrashed hidle

/-- The destructor can go on as soon as the request thread has returned. -/
lemma Sound.canStep_of_teardown (hs : s.Sound) (halive : s.teardown ≠ .alive)
    (haborted : s.teardown ≠ .aborted) (hdestroyed : s.teardown ≠ .destroyed)
    (hcrashed : s.inner.client.thread ≠ .crashed) : s.CanStep := by
  cases hteardown : s.teardown with
  | alive => exact absurd hteardown halive
  | aborted => exact absurd hteardown haborted
  | destroyed => exact absurd hteardown hdestroyed
  | joining =>
      refine ⟨.postTerminate ⟨0⟩, rfl, ?_⟩
      simp [step, hteardown, hcrashed, LoopImpl.step]
  | posting target_time =>
      refine ⟨.registerTerminate, rfl, ?_⟩
      simp [step, hteardown, hcrashed, LoopImpl.step, hs.begun target_time hteardown]
  | waiting =>
      by_cases hrun : s.progress = .exited
      · refine ⟨.join, rfl, ?_⟩
        simp [step, hteardown, hcrashed, hrun]
      · exact hs.canStep_of_running haborted hcrashed hrun
  | joined =>
      refine ⟨.removeRemaining, rfl, ?_⟩
      simp [step, hteardown, hcrashed]

lemma messagesRank_le (c : CurlClient Hash) :
    messagesRank c ≤ 2 * c.curl_multi_handle_.length + 1 := by
  cases hthread : c.thread with
  | inDidFinished x handle =>
      have herase := (List.erase_sublist (a := handle) (l := c.curl_multi_handle_)).length_le
      simp only [messagesRank, hthread]
      omega
  | _ =>
      simp only [messagesRank, hthread]
      omega

lemma controlRank_le (control : LoopControl) :
    controlRank control ≤ 4 + 3 * control.batch.length := by
  cases control <;> simp only [controlRank, LoopControl.batch, List.length_nil] <;> omega

omit [DecidableEq Thread] in
lemma potential_le (s : OwnedClient Thread Hash Q) :
    s.potential ≤ 17 + 2 * s.inner.client.curl_multi_handle_.length
      + 3 * (Multiset.card s.inner.loop.queue.entry.pending
        + s.inner.loop.control.batch.length) := by
  have hteardown : teardownRank s.teardown ≤ 7 := by
    cases s.teardown <;> simp [teardownRank]
  have hmessages := messagesRank_le s.inner.client
  have hcontrol := controlRank_le s.inner.loop.control
  have hcallback := callbackRank_le s.inner.client.thread
  rw [potential, progressRank]
  cases s.progress <;> simp only <;> omega

/-- **The destructor returns.**  Once the last pointer has been dropped by a user, the destructor
and the request thread take a number of steps that is bounded by the closures and the handles that
are there, and two more for each time that the loop wakes up for its timer, a user lets a task go or
a task is registered on another loop.  When they can take none, the client is destroyed, unless the
process has crashed. -/
theorem destructor_returns {n : ℕ} {thread : Thread}
    {acts acts' : List (OwnedClientAction Thread Hash)}
    (hrun : run step (create n thread : OwnedClient Thread Hash Q) acts = some s)
    (halive : s.teardown ≠ .alive) (haborted : s.teardown ≠ .aborted)
    (hrest : run step s acts' = some t) :
    acts'.length ≤ 17 + 2 * s.inner.client.curl_multi_handle_.length
        + 3 * (Multiset.card s.inner.loop.queue.entry.pending
          + s.inner.loop.control.batch.length) + 2 * acts'.countP elective ∧
      (¬ t.CanStep → t.teardown = .destroyed ∨ t.inner.client.thread = .crashed) := by
  have hs := sound_run hrun
  have ht : t.Sound ∧ t.teardown ≠ .alive ∧ t.teardown ≠ .aborted := by
    refine run_invariant (I := fun t : OwnedClient Thread Hash Q =>
      t.Sound ∧ t.teardown ≠ .alive ∧ t.teardown ≠ .aborted) ?_ ⟨hs, halive, haborted⟩ hrest
    intro s a t hs ht
    exact ⟨sound_step hs.1 ht, hs.1.teardown_step hs.2.1 ht⟩
  constructor
  · have hlength := length_add_potential_le potential
      (I := fun s : OwnedClient Thread Hash Q => s.Sound ∧ s.teardown ≠ .alive)
      (p := elective) (c := 2)
      (fun s a t hs ht => ⟨sound_step hs.1 ht, (hs.1.teardown_step hs.2 ht).1⟩)
      (fun s a t hs ht => potential_step hs.1 hs.2 ht) ⟨hs, halive⟩ hrest
    have hle := potential_le s
    omega
  · intro hstuck
    by_contra hnot
    rw [not_or] at hnot
    exact hstuck (ht.1.canStep_of_teardown ht.2.1 ht.2.2 hnot.1 hnot.2)

theorem destructor_returns_droppedEarly :
    (run step joiningClient tornDown).isSome = true ∧
      tornDown.length ≤ 17 + 2 * joiningClient.inner.client.curl_multi_handle_.length
        + 3 * (Multiset.card joiningClient.inner.loop.queue.entry.pending
          + joiningClient.inner.loop.control.batch.length) + 2 * tornDown.countP elective := by
  have hs : run step (create 0 false) droppedEarly = some joiningClient := rfl
  have ht : run step joiningClient tornDown = some _ := rfl
  exact ⟨rfl, (destructor_returns hs (by decide) (by decide) ht).1⟩

end OwnedClient

end FFNetwork
