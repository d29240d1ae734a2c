import FFNetwork.Net.LoopClient

/-!
# The life of a client

`CurlClient` is owned by shared pointers.  Its tasks have weak ones, which `Resume` and `Cancel`
lock while they post, and the closures they post and the request thread itself have bare ones.
Whoever drops the last shared pointer runs the destructor: it sets `is_terminated_`, joins the
request thread, which leaves `CurlClient::Run` when it sees the flag, and takes the tasks that are
left out of the multi handle and the map.

* `OwnedClient.step` — the users, the request thread and the destructor, around the client on its
  loop; `moves_of_step` says what one step can be.
* `Sound` — the invariant; `inner_run`.
* **`joined_for_good`** — the request thread runs as long as the client has an owner, and nothing of
  the client is run once it has been joined.
-/

namespace FFNetwork

open PriorityQueue StepSystem

/-- Who holds a pointer to the client. -/
inductive Caller (Thread : Type)
  | user (thread : Thread)
  /-- A callback on the request thread, or what it has captured. -/
  | requestThread
deriving DecidableEq

/-- Where `Run` stands. -/
inductive RunProgress
  /-- At the test of `is_terminated_`. -/
  | testing
  | performing
  /-- In `HandleCurlMsg`; `active_requests > 0`, and `msg_count > 0`. -/
  | handling (active handled : Bool)
  /-- In `RunForTime`. -/
  | serving (active : Bool)
  /-- In `WaitMulti` or `WaitFD`. -/
  | waiting
  | exited
deriving DecidableEq

/-- How far the destructor is. -/
inductive Teardown
  /-- It has not been called. -/
  | alive
  /-- `is_terminated_` is set. -/
  | joining
  /-- The `PostTask` of `Join` has passed its test. -/
  | posting (target_time : TimePoint)
  /-- In `thread_->join()`. -/
  | waiting
  | joined
  | destroyed
  /-- The request thread has tried to join itself, which ends the process. -/
  | aborted
deriving DecidableEq

/-- `Join` has called `PostTask`. -/
def Teardown.posted : Teardown → Bool
  | .waiting | .joined | .destroyed => true
  | _ => false

/-- The client on its loop, its owners, those of them whose `PostTask` has passed its test, and the
number of the closure that `Join` has registered. -/
structure OwnedClient (Thread Hash Q : Type) where
  inner : LoopClient Hash Q
  owners : Multiset (Caller Thread)
  posts : Multiset (Caller Thread)
  is_terminated_ : Bool
  progress : RunProgress
  teardown : Teardown
  terminate : Option ℕ

/-- The steps of the owners, of the request thread and of the destructor. -/
inductive OwnedClientAction (Thread Hash : Type)
  /-- A pointer is copied, or a weak pointer is locked. -/
  | acquire (caller : Caller Thread)
  | drop (caller : Caller Thread)
  | taskWithRequest (caller : Caller Thread) (request_hash : Hash)
  /-- `Resume` or `Cancel` under a lock, up to the test of `PostTask`. -/
  | postTask (caller : Caller Thread) (call : PostedCall Hash) (target_time : TimePoint)
  | registerTask (caller : Caller Thread) (call : PostedCall Hash) (target_time : TimePoint)
  /-- The users drop their pointers to the task. -/
  | release (task : RequestTask Hash)
  | registerElsewhere
  /-- `Run` goes on; what `curl_multi_perform` reports is given. -/
  | advance (active : Bool)
  | handleCurlMsg (handle : RequestTask Hash) (result : CURLcode) (status_code : Int32)
  | callbackReturns
  | runForTime
  /-- A step of the loop inside `RunForTime`. -/
  | slice (a : LoopAction)
  /-- The loop invokes the closure of `Join`. -/
  | invokeTerminate
  /-- `Join` calls `PostTask`. -/
  | postTerminate (target_time : TimePoint)
  | registerTerminate
  | join
  | removeRemaining

/-- What `Run` does next, outside of its calls. -/
def RunProgress.next (active is_terminated_ : Bool) : RunProgress → Option RunProgress
  | .testing => some (if is_terminated_ then .exited else .performing)
  | .performing => some (.handling active false)
  | .handling _ true => some .testing
  | .serving true => some .waiting
  | .serving false => some (if is_terminated_ then .exited else .testing)
  | .waiting => some .testing
  | _ => none

/-- `Run` returns only when it sees the flag. -/
lemma RunProgress.flag_of_exits {active is_terminated_ : Bool} {progress : RunProgress}
    (hnext : progress.next active is_terminated_ = some .exited) : is_terminated_ = true := by
  cases is_terminated_ with
  | true => rfl
  | false =>
      cases progress with
      | handling _ handled => cases handled <;> cases hnext
      | serving active' => cases active' <;> cases hnext
      | _ => cases hnext

namespace CurlClient

variable {Hash : Type} [DecidableEq Hash]

/-- The end of `CurlClient::~CurlClient`: the handles of the tasks in the map are removed, and the
map is emptied. -/
def removeRemaining (s : CurlClient Hash) : CurlClient Hash :=
  collect { s with
    curl_multi_handle_ :=
      s.curl_multi_handle_.filter fun x => s.request_task_map_ x.identifier_ ≠ some x
    request_task_map_ := fun _ => none }

/-- The callback that the client thread is in returns. -/
def callbackReturns (s : CurlClient Hash) : CurlAction Hash :=
  match s.thread with
  | .inDidCancelled _ => .didCancelledReturns
  | _ => .didFinishedReturns

end CurlClient

namespace OwnedClient

variable {Thread Hash Q : Type} [DecidableEq Thread] [DecidableEq Hash] [DelayedTaskQueue Q ℕ]
  {s t : OwnedClient Thread Hash Q} {a : OwnedClientAction Thread Hash}

/-- The client that `CreateCurlClient` returns to a thread, with its request thread started. -/
def create (n : ℕ) (thread : Thread) : OwnedClient Thread Hash Q :=
  ⟨.create n, {.user thread}, 0, false, .testing, .alive, none⟩

/-- The caller has a pointer that no `PostTask` under way relies on. -/
def Free (s : OwnedClient Thread Hash Q) (caller : Caller Thread) : Prop :=
  s.posts.count caller < s.owners.count caller

instance (s : OwnedClient Thread Hash Q) (caller : Caller Thread) : Decidable (s.Free caller) :=
  inferInstanceAs (Decidable (_ < _))

/-- A pointer is dropped.  The last one calls the destructor, which sets `is_terminated_` and joins
the request thread; on that thread `join` throws, out of a destructor. -/
def dropped (s : OwnedClient Thread Hash Q) (caller : Caller Thread) : OwnedClient Thread Hash Q :=
  let owners := s.owners.erase caller
  if owners = 0 then
    { s with
      owners := owners
      is_terminated_ := true
      teardown := if caller = .requestThread then .aborted else .joining }
  else { s with owners := owners }

/-- A step of the client on its loop. -/
def within (s : OwnedClient Thread Hash Q) (a : LoopClientAction Hash) :
    Option (OwnedClient Thread Hash Q) :=
  (s.inner.step a).map fun inner => { s with inner := inner }

/-- `Run` is in no callback and in no call of the loop. -/
def Between (s : OwnedClient Thread Hash Q) : Prop :=
  s.inner.client.thread = .idle ∧ s.inner.loop.control = .outside

instance (s : OwnedClient Thread Hash Q) : Decidable s.Between :=
  inferInstanceAs (Decidable (_ ∧ _))

/-- The steps of the loop thread inside `DoRunForTime`. -/
def slicing : LoopAction → Bool
  | .onEventFired _ | .invoke | .flushed | .runReturns | .runExpiredTasksNow _
  | .disposeTasks => true
  | _ => false

/-- The closure of `Join`: `MessageLoop::GetCurrent().Terminate()`. -/
def invokeTerminate (s : LoopClient Hash Q) : Option (LoopClient Hash Q) :=
  (s.loop.step .invoke).bind fun loop =>
    (loop.step .doTerminate).map fun loop => { s with loop := loop }

/-- The step function; after a crash or an abort there is no next step. -/
def step (s : OwnedClient Thread Hash Q) (a : OwnedClientAction Thread Hash) :
    Option (OwnedClient Thread Hash Q) :=
  if s.teardown = .aborted ∨ s.inner.client.thread = .crashed then none
  else
    match a with
    | .acquire caller =>
        if s.owners ≠ 0 then some { s with owners := caller ::ₘ s.owners } else none
    | .drop caller => if s.Free caller then some (s.dropped caller) else none
    | .taskWithRequest caller request_hash =>
        if s.Free caller then s.within (.client (.taskWithRequest request_hash)) else none
    | .postTask caller call target_time =>
        if s.Free caller then
          (s.inner.step (.postTask call target_time)).map fun inner =>
            { s with
              inner := inner
              posts := if s.inner.loop.terminated_ then s.posts else caller ::ₘ s.posts }
        else none
    | .registerTask caller call target_time =>
        if caller ∈ s.posts then
          (s.inner.step (.registerTask call target_time)).map fun inner =>
            { s with inner := inner, posts := s.posts.erase caller }
        else none
    | .release task => s.within (.client (.release task))
    | .registerElsewhere => s.within (.loop .registerElsewhere)
    | .advance active =>
        if s.Between then
          (s.progress.next active s.is_terminated_).map fun progress =>
            { s with progress := progress }
        else none
    | .handleCurlMsg handle result status_code =>
        match s.progress with
        | .handling active _ =>
            (s.inner.step (.client (.handleCurlMsg handle result status_code))).map fun inner =>
              { s with inner := inner, progress := .handling active true }
        | _ => none
    | .callbackReturns => s.within (.client s.inner.client.callbackReturns)
    | .runForTime =>
        match s.progress with
        | .handling active false =>
            (s.inner.step (.loop .doRunForTime)).map fun inner =>
              { s with inner := inner, progress := .serving active }
        | _ => none
    | .slice a =>
        match s.progress with
        | .serving _ => if slicing a then s.within (.loop a) else none
        | _ => none
    | .invokeTerminate =>
        if s.inner.client.thread = .idle ∧ s.inner.loop.control.batch.head? = s.terminate then
          (invokeTerminate s.inner).map fun inner => { s with inner := inner }
        else none
    | .postTerminate target_time =>
        if s.teardown = .joining then
          (s.inner.loop.step (.postTask target_time)).map fun loop =>
            { s with
              inner := { s.inner with loop := loop }
              teardown := if s.inner.loop.terminated_ then .waiting else .posting target_time }
        else none
    | .registerTerminate =>
        match s.teardown with
        | .posting target_time =>
            (s.inner.loop.step (.registerTask target_time)).map fun loop =>
              { s with
                inner := { s.inner with loop := loop }
                teardown := .waiting
                terminate := some s.inner.loop.queue.registrations }
        | _ => none
    | .join =>
        if s.teardown = .waiting ∧ s.progress = .exited then some { s with teardown := .joined }
        else none
    | .removeRemaining =>
        if s.teardown = .joined then
          some { s with
            inner := { s.inner with client := s.inner.client.removeRemaining }
            teardown := .destroyed }
        else none

/-- What a step can do. -/
inductive Moves (s : OwnedClient Thread Hash Q) :
    OwnedClientAction Thread Hash → OwnedClient Thread Hash Q → Prop
  | acquire {caller : Caller Thread} (howned : s.owners ≠ 0) :
      s.Moves (.acquire caller) { s with owners := caller ::ₘ s.owners }
  | drop {caller : Caller Thread} (hfree : s.Free caller) :
      s.Moves (.drop caller) (s.dropped caller)
  | taskWithRequest {caller : Caller Thread} {request_hash : Hash} {inner : LoopClient Hash Q}
      (hfree : s.Free caller)
      (hstep : s.inner.step (.client (.taskWithRequest request_hash)) = some inner) :
      s.Moves (.taskWithRequest caller request_hash) { s with inner := inner }
  | postTask {caller : Caller Thread} {call : PostedCall Hash} {target_time : TimePoint}
      {inner : LoopClient Hash Q} (hfree : s.Free caller)
      (hstep : s.inner.step (.postTask call target_time) = some inner) :
      s.Moves (.postTask caller call target_time) { s with
        inner := inner
        posts := if s.inner.loop.terminated_ then s.posts else caller ::ₘ s.posts }
  | registerTask {caller : Caller Thread} {call : PostedCall Hash} {target_time : TimePoint}
      {inner : LoopClient Hash Q} (hposts : caller ∈ s.posts)
      (hstep : s.inner.step (.registerTask call target_time) = some inner) :
      s.Moves (.registerTask caller call target_time) { s with
        inner := inner
        posts := s.posts.erase caller }
  | release {task : RequestTask Hash} {inner : LoopClient Hash Q}
      (hstep : s.inner.step (.client (.release task)) = some inner) :
      s.Moves (.release task) { s with inner := inner }
  | registerElsewhere {inner : LoopClient Hash Q}
      (hstep : s.inner.step (.loop .registerElsewhere) = some inner) :
      s.Moves .registerElsewhere { s with inner := inner }
  | advance {active : Bool} {progress : RunProgress} (hbetween : s.Between)
      (hnext : s.progress.next active s.is_terminated_ = some progress) :
      s.Moves (.advance active) { s with progress := progress }
  | handleCurlMsg {handle : RequestTask Hash} {result : CURLcode} {status_code : Int32}
      {active handled : Bool} {inner : LoopClient Hash Q}
      (hrun : s.progress = .handling active handled)
      (hstep : s.inner.step (.client (.handleCurlMsg handle result status_code)) = some inner) :
      s.Moves (.handleCurlMsg handle result status_code) { s with
        inner := inner
        progress := .handling active true }
  | callbackReturns {inner : LoopClient Hash Q}
      (hstep : s.inner.step (.client s.inner.client.callbackReturns) = some inner) :
      s.Moves .callbackReturns { s with inner := inner }
  | runForTime {active : Bool} {inner : LoopClient Hash Q}
      (hrun : s.progress = .handling active false)
      (hstep : s.inner.step (.loop .doRunForTime) = some inner) :
      s.Moves .runForTime { s with inner := inner, progress := .serving active }
  | slice {a : LoopAction} {active : Bool} {inner : LoopClient Hash Q}
      (hrun : s.progress = .serving active) (hslicing : slicing a = true)
      (hstep : s.inner.step (.loop a) = some inner) : s.Moves (.slice a) { s with inner := inner }
  | invokeTerminate {loop : LoopImpl Q} (hidle : s.inner.client.thread = .idle)
      (hhead : s.inner.loop.control.batch.head? = s.terminate)
      (hstep : s.inner.loop.step .invoke = some loop) :
      s.Moves .invokeTerminate { s with
        inner := { s.inner with loop := { loop with terminated_ := true } } }
  | postTerminate {target_time : TimePoint} {loop : LoopImpl Q} (hteardown : s.teardown = .joining)
      (hstep : s.inner.loop.step (.postTask target_time) = some loop) :
      s.Moves (.postTerminate target_time) { s with
        inner := { s.inner with loop := loop }
        teardown := if s.inner.loop.terminated_ then .waiting else .posting target_time }
  | registerTerminate {target_time : TimePoint} {loop : LoopImpl Q}
      (hteardown : s.teardown = .posting target_time)
      (hstep : s.inner.loop.step (.registerTask target_time) = some loop) :
      s.Moves .registerTerminate { s with
        inner := { s.inner with loop := loop }
        teardown := .waiting
        terminate := some s.inner.loop.queue.registrations }
  | join (hteardown : s.teardown = .waiting) (hrun : s.progress = .exited) :
      s.Moves .join { s with teardown := .joined }
  | removeRemaining (hteardown : s.teardown = .joined) :
      s.Moves .removeRemaining { s with
        inner := { s.inner with client := s.inner.client.removeRemaining }
        teardown := .destroyed }

/-- **What one step does.** -/
theorem moves_of_step (ht : s.step a = some t) :
    s.teardown ≠ .aborted ∧ s.inner.client.thread ≠ .crashed ∧ s.Moves a t := by
  unfold step at ht
  split at ht
  · cases ht
  · next hrunning =>
      rw [not_or] at hrunning
      refine ⟨hrunning.1, hrunning.2, ?_⟩
      cases a with
      | acquire caller =>
          simp only [Option.ite_none_right_eq_some, Option.some.injEq] at ht
          rcases ht with ⟨howned, rfl⟩
          exact .acquire howned
      | drop caller =>
          simp only [Option.ite_none_right_eq_some, Option.some.injEq] at ht
          rcases ht with ⟨hfree, rfl⟩
          exact .drop hfree
      | taskWithRequest caller request_hash =>
          simp only [Option.ite_none_right_eq_some] at ht
          rcases Option.map_eq_some_iff.mp ht.2 with ⟨inner, hstep, rfl⟩
          exact .taskWithRequest ht.1 hstep
      | postTask caller call target_time =>
          simp only [Option.ite_none_right_eq_some] at ht
          rcases Option.map_eq_some_iff.mp ht.2 with ⟨inner, hstep, rfl⟩
          exact .postTask ht.1 hstep
      | registerTask caller call target_time =>
          simp only [Option.ite_none_right_eq_some] at ht
          rcases Option.map_eq_some_iff.mp ht.2 with ⟨inner, hstep, rfl⟩
          exact .registerTask ht.1 hstep
      | release task =>
          rcases Option.map_eq_some_iff.mp ht with ⟨inner, hstep, rfl⟩
          exact .release hstep
      | registerElsewhere =>
          rcases Option.map_eq_some_iff.mp ht with ⟨inner, hstep, rfl⟩
          exact .registerElsewhere hstep
      | advance active =>
          simp only [Option.ite_none_right_eq_some] at ht
          rcases Option.map_eq_some_iff.mp ht.2 with ⟨progress, hnext, rfl⟩
          exact .advance ht.1 hnext
      | handleCurlMsg handle result status_code =>
          simp only at ht
          split at ht
          · next hrun =>
              rcases Option.map_eq_some_iff.mp ht with ⟨inner, hstep, rfl⟩
              exact .handleCurlMsg hrun hstep
          · cases ht
      | callbackReturns =>
          rcases Option.map_eq_some_iff.mp ht with ⟨inner, hstep, rfl⟩
          exact .callbackReturns hstep
      | runForTime =>
          simp only at ht
          split at ht
          · next hrun =>
              rcases Option.map_eq_some_iff.mp ht with ⟨inner, hstep, rfl⟩
              exact .runForTime hrun hstep
          · cases ht
      | slice a =>
          simp only at ht
          split at ht
          · next hrun =>
              simp only [Option.ite_none_right_eq_some] at ht
              rcases Option.map_eq_some_iff.mp ht.2 with ⟨inner, hstep, rfl⟩
              exact .slice hrun ht.1 hstep
          · cases ht
      | invokeTerminate =>
          simp only [Option.ite_none_right_eq_some] at ht
          rcases Option.map_eq_some_iff.mp ht.2 with ⟨inner, hinvoke, rfl⟩
          rcases Option.bind_eq_some_iff.mp hinvoke with ⟨loop, hstep, hterminate⟩
          cases hterminate
          exact .invokeTerminate ht.1.1 ht.1.2 hstep
      | postTerminate target_time =>
          simp only [Option.ite_none_right_eq_some] at ht
          rcases Option.map_eq_some_iff.mp ht.2 with ⟨loop, hstep, rfl⟩
          exact .postTerminate ht.1 hstep
      | registerTerminate =>
          simp only at ht
          split at ht
          · next target_time hteardown =>
              rcases Option.map_eq_some_iff.mp ht with ⟨loop, hstep, rfl⟩
              exact .registerTerminate hteardown hstep
          · cases ht
      | join =>
          simp only [Option.ite_none_right_eq_some, Option.some.injEq] at ht
          rcases ht with ⟨⟨hteardown, hrun⟩, rfl⟩
          exact .join hteardown hrun
      | removeRemaining =>
          simp only [Option.ite_none_right_eq_some, Option.some.injEq] at ht
          rcases ht with ⟨hteardown, rfl⟩
          exact .removeRemaining hteardown

/-! ## The invariant -/

/-- A `PostTask` under way has an owner of its own, the destructor is called when there is none
left, and `Run` ends after that. -/
structure Sound (s : OwnedClient Thread Hash Q) : Prop where
  wp : s.inner.WellPosted
  pinned : s.posts ≤ s.owners
  posting : s.inner.posting.length = Multiset.card s.posts
  owned : s.owners = 0 ↔ s.teardown ≠ .alive
  flag : s.is_terminated_ = true ↔ s.teardown ≠ .alive
  exited : s.progress = .exited → s.is_terminated_ = true
  joined : s.teardown = .joined ∨ s.teardown = .destroyed → s.progress = .exited
  handling : ∀ active handled, s.progress = .handling active handled →
    s.inner.loop.control = .outside
  between : s.Between ∨ (∃ active handled, s.progress = .handling active handled) ∨
    ∃ active, s.progress = .serving active
  known : ∀ i ∈ s.inner.loop.queue.registered, s.inner.calls i ≠ none ∨ s.terminate = some i
  begun : ∀ target_time, s.teardown = .posting target_time →
    target_time ∈ s.inner.loop.posting
  fresh : s.teardown.posted = false → s.terminate = none

omit [DecidableEq Thread] [DecidableEq Hash] in
lemma sound_create (n : ℕ) (thread : Thread) :
    (create n thread : OwnedClient Thread Hash Q).Sound where
  wp := LoopClient.wellPosted_create n
  pinned := Multiset.zero_le _
  posting := rfl
  owned := by simp [create]
  flag := by simp [create]
  exited h := nomatch h
  joined h := by simp [create] at h
  handling active handled h := nomatch h
  between := Or.inl ⟨rfl, rfl⟩
  known i hi := nomatch hi
  begun target_time h := nomatch h
  fresh _ := rfl

/-! ## The owners -/

omit [DecidableEq Hash] in
lemma Sound.alive (hs : s.Sound) {caller : Caller Thread} (hfree : s.Free caller) :
    s.teardown = .alive ∧ caller ∈ s.owners := by
  have hmem : caller ∈ s.owners := Multiset.count_pos.mp ((Nat.zero_le _).trans_lt hfree)
  have hne : s.owners ≠ 0 := fun hnone => Multiset.notMem_zero _ (hnone ▸ hmem)
  exact ⟨not_ne_iff.mp fun hteardown => hne (hs.owned.mpr hteardown), hmem⟩

omit [DecidableEq Thread] [DecidableEq Hash] in
lemma Sound.alive_of_posts (hs : s.Sound) {caller : Caller Thread} (hposts : caller ∈ s.posts) :
    s.teardown = .alive := by
  have hmem := Multiset.mem_of_le hs.pinned hposts
  have hne : s.owners ≠ 0 := fun hnone => Multiset.notMem_zero _ (hnone ▸ hmem)
  exact not_ne_iff.mp fun hteardown => hne (hs.owned.mpr hteardown)

omit [DecidableEq Thread] [DecidableEq Hash] in
lemma Sound.acquire (hs : s.Sound) (howned : s.owners ≠ 0) (caller : Caller Thread) :
    Sound { s with owners := caller ::ₘ s.owners } :=
  { hs with
    pinned := hs.pinned.trans (Multiset.le_cons_self ..)
    owned := by
      have halive := hs.owned.not.mp howned
      exact iff_of_false (Multiset.cons_ne_zero) halive }

omit [DecidableEq Hash] in
/-- The pointers that posts rely on are not the one that is dropped. -/
lemma Sound.dropped (hs : s.Sound) {caller : Caller Thread} (hfree : s.Free caller) :
    (s.dropped caller).Sound := by
  have halive := (hs.alive hfree).1
  have hpinned : s.posts ≤ s.owners.erase caller := by
    refine Multiset.le_iff_count.mpr fun other => ?_
    by_cases hother : other = caller
    · subst hother
      rw [Multiset.count_erase_self]
      exact Nat.le_sub_one_of_lt hfree
    · rw [Multiset.count_erase_of_ne hother]
      exact Multiset.count_le_of_le _ hs.pinned
  rw [OwnedClient.dropped]
  split
  · next hnone =>
      refine { hs with
        pinned := hpinned
        owned := iff_of_true hnone ?_
        flag := iff_of_true rfl ?_
        exited := fun _ => rfl
        joined := fun hjoined => ?_
        begun := fun target_time hposting => ?_
        fresh := fun _ => hs.fresh (halive ▸ rfl) }
      · split <;> nofun
      · split <;> nofun
      · simp only at hjoined
        split at hjoined <;> simp at hjoined
      · simp only at hposting
        split at hposting <;> cases hposting
  · next hsome =>
      exact { hs with pinned := hpinned, owned := iff_of_false hsome (not_ne_iff.mpr halive) }

/-! ## The request thread -/

omit [DecidableEq Thread] [DecidableEq Hash] in
lemma Sound.setProgress (hs : s.Sound) {progress : RunProgress} (hrun : s.progress ≠ .exited)
    (hexited : progress = .exited → s.is_terminated_ = true)
    (hhandling : ∀ active handled, progress = .handling active handled →
      s.inner.loop.control = .outside)
    (hbetween : s.Between ∨ (∃ active handled, progress = .handling active handled) ∨
      ∃ active, progress = .serving active) : Sound { s with progress := progress } :=
  { hs with
    exited := hexited
    joined := fun hjoined => absurd (hs.joined hjoined) hrun
    handling := hhandling
    between := hbetween }

omit [DecidableEq Thread] in
/-- A step of the client. -/
lemma Sound.client (hs : s.Sound) {a : CurlAction Hash} {inner : LoopClient Hash Q}
    (hstep : s.inner.step (.client a) = some inner)
    (hidle : s.Between → inner.client.thread = .idle ∨
      ∃ active handled, s.progress = .handling active handled) :
    Sound { s with inner := inner } := by
  rcases LoopClient.client_of_step hstep with ⟨-, -, hloop, hposting, hcalls⟩
  refine { hs with
    wp := LoopClient.wellPosted_step hs.wp hstep
    posting := (congrArg List.length hposting).trans hs.posting
    handling := fun active handled hrun => ?_
    between := ?_
    known := fun i hi => ?_
    begun := fun target_time hteardown => ?_ }
  · rw [hloop]
    exact hs.handling active handled hrun
  · rcases hs.between with hbetween | hrun
    · rcases hidle hbetween with hidle | hrun
      · exact Or.inl ⟨hidle, (congrArg LoopImpl.control hloop).trans hbetween.2⟩
      · exact Or.inr (Or.inl hrun)
    · exact Or.inr hrun
  · rw [hloop] at hi
    rw [hcalls]
    exact hs.known i hi
  · rw [hloop]
    exact hs.begun target_time hteardown

omit [DecidableEq Thread] in
/-- A step of the loop that keeps its place, or one inside `RunForTime`. -/
lemma Sound.loop (hs : s.Sound) {a : LoopAction} {inner : LoopClient Hash Q}
    (hstep : s.inner.step (.loop a) = some inner)
    (hserving : (∃ active, s.progress = .serving active) ∨
      inner.loop.control = s.inner.loop.control ∧ a ≠ .invoke) :
    Sound { s with inner := inner } := by
  rcases LoopClient.loop_of_step hstep with ⟨hloop, hposting, hcalls, hregister, hclient⟩
  refine { hs with
    wp := LoopClient.wellPosted_step hs.wp hstep
    posting := (congrArg List.length hposting).trans hs.posting
    handling := fun active handled hrun => ?_
    between := ?_
    known := fun i hi => ?_
    begun := fun target_time hteardown => ?_ }
  · rcases hserving with ⟨active', hserving⟩ | ⟨hcontrol, -⟩
    · rw [hserving] at hrun
      cases hrun
    · exact hcontrol.trans (hs.handling active handled hrun)
  · rcases hserving with hserving | ⟨hcontrol, hinvoke⟩
    · exact Or.inr (Or.inr hserving)
    · refine hs.between.imp_left fun hbetween => ⟨?_, hcontrol.trans hbetween.2⟩
      rcases hclient with hclient | ⟨hinvoke', -⟩
      · exact (congrArg CurlClient.thread hclient).trans hbetween.1
      · exact absurd hinvoke' hinvoke
  · rw [LoopImpl.registered_of_step hloop hregister] at hi
    rw [hcalls]
    exact hs.known i hi
  · exact LoopImpl.posting_of_step hloop hregister (hs.begun target_time hteardown)

omit [DecidableEq Thread] [DecidableEq Hash] in
lemma Sound.advance (hs : s.Sound) {active : Bool} {progress : RunProgress}
    (hbetween : s.Between) (hnext : s.progress.next active s.is_terminated_ = some progress) :
    Sound { s with progress := progress } := by
  refine hs.setProgress ?_ ?_ (fun _ _ _ => hbetween.2) (Or.inl hbetween)
  · intro hrun
    rw [hrun] at hnext
    cases hnext
  · rintro rfl
    exact RunProgress.flag_of_exits hnext

/-! ## The posts -/

omit [DecidableEq Thread] [DecidableEq Hash] in
/-- What posts and registers leaves the request thread where it is. -/
lemma Sound.between_of_eq (hs : s.Sound) {thread : ClientThread Hash} {control : LoopControl}
    (hthread : thread = s.inner.client.thread) (hcontrol : control = s.inner.loop.control) :
    (∀ active handled, s.progress = .handling active handled → control = .outside) ∧
      ((thread = .idle ∧ control = .outside) ∨
        (∃ active handled, s.progress = .handling active handled) ∨
          ∃ active, s.progress = .serving active) := by
  rw [hthread, hcontrol]
  exact ⟨hs.handling, hs.between⟩

lemma Sound.postTask (hs : s.Sound) {caller : Caller Thread} (hfree : s.Free caller)
    {call : PostedCall Hash} {target_time : TimePoint} {inner : LoopClient Hash Q}
    (hstep : s.inner.step (.postTask call target_time) = some inner) :
    Sound { s with
      inner := inner
      posts := if s.inner.loop.terminated_ then s.posts else caller ::ₘ s.posts } := by
  have halive := (hs.alive hfree).1
  have hwp := LoopClient.wellPosted_step hs.wp hstep
  cases (LoopClient.moves_of_step hstep).2 with
  | @postTask _ _ loop _ _ hloop =>
      have hcontrol : loop.control = s.inner.loop.control := by
        cases LoopImpl.moves_of_step hloop <;> rfl
      have hregistered := LoopImpl.registered_of_step hloop (by simp)
      have hbetween := hs.between_of_eq rfl hcontrol
      refine { hs with
        wp := hwp
        pinned := ?_
        posting := ?_
        handling := hbetween.1
        between := hbetween.2
        known := fun i hi => hs.known i (hregistered ▸ hi)
        begun := fun target_time hteardown => nomatch halive.symm.trans hteardown }
      · split
        · exact hs.pinned
        · rw [Multiset.le_iff_count]
          intro other
          have hle := Multiset.count_le_of_le other hs.pinned
          rw [Multiset.count_cons]
          split
          · next hother =>
              subst hother
              exact hfree
          · exact hle
      · simp only
        split
        · exact hs.posting
        · rw [List.length_cons, Multiset.card_cons, hs.posting]

lemma Sound.registerTask (hs : s.Sound) {caller : Caller Thread} (hposts : caller ∈ s.posts)
    {call : PostedCall Hash} {target_time : TimePoint} {inner : LoopClient Hash Q}
    (hstep : s.inner.step (.registerTask call target_time) = some inner) :
    Sound { s with inner := inner, posts := s.posts.erase caller } := by
  have halive := hs.alive_of_posts hposts
  have hwp := LoopClient.wellPosted_step hs.wp hstep
  cases (LoopClient.moves_of_step hstep).2 with
  | @registerTask _ _ loop hposting hloop =>
      have hthread : (LoopClient.afterPosting s.inner.client call).thread
          = s.inner.client.thread := by
        cases call <;> rfl
      have hcontrol : loop.control = s.inner.loop.control := by
        cases LoopImpl.moves_of_step hloop
        rfl
      have hbetween := hs.between_of_eq hthread hcontrol
      refine { hs with
        wp := hwp
        pinned := (Multiset.erase_le _ _).trans hs.pinned
        posting := ?_
        handling := hbetween.1
        between := hbetween.2
        known := fun i hi => ?_
        begun := fun target_time hteardown => nomatch halive.symm.trans hteardown }
      · show (s.inner.posting.erase (target_time, call)).length = _
        rw [List.length_erase_of_mem hposting, Multiset.card_erase_of_mem hposts, hs.posting]
        rfl
      · cases LoopImpl.moves_of_step hloop
        show Function.update s.inner.calls s.inner.loop.queue.registrations (some call) i ≠ none ∨ _
        by_cases hnew : i = s.inner.loop.queue.registrations
        · rw [hnew, Function.update_self]
          exact Or.inl (Option.some_ne_none _)
        · rw [Function.update_of_ne hnew]
          rcases List.mem_append.mp hi with hi | hi
          · exact hs.known i hi
          · exact absurd (List.mem_singleton.mp hi) hnew

/-! ## The destructor -/

omit [DecidableEq Thread] [DecidableEq Hash] in
/-- A step of the loop that the model of the client on its loop does not have. -/
lemma wellPosted_loop {inner : LoopClient Hash Q} (wp : inner.WellPosted) {a : LoopAction}
    {loop : LoopImpl Q} (hstep : inner.loop.step a = some loop) :
    LoopClient.WellPosted { inner with loop := loop } :=
  ⟨wp.wf, LoopImpl.balanced_step wp.balanced hstep, wp.balanced.ascending_step wp.ascending hstep,
    wp.posting⟩

lemma not_outside_of_invoke {loop loop' : LoopImpl Q} (hstep : loop.step .invoke = some loop') :
    loop.control ≠ .outside := by
  intro hout
  cases LoopImpl.moves_of_step hstep with
  | invoke hserving => cases hout.symm.trans hserving
  | invokeLast hfinishing => cases hout.symm.trans hfinishing

omit [DecidableEq Thread] [DecidableEq Hash] in
lemma Sound.invokeTerminate (hs : s.Sound) {loop : LoopImpl Q}
    (hstep : s.inner.loop.step .invoke = some loop) :
    Sound { s with inner := { s.inner with loop := { loop with terminated_ := true } } } := by
  have hterminate : loop.step .doTerminate = some { loop with terminated_ := true } := rfl
  have hregistered := LoopImpl.registered_of_step hstep (by simp)
  have hinside := not_outside_of_invoke hstep
  refine { hs with
    wp := wellPosted_loop (wellPosted_loop hs.wp hstep) hterminate
    handling := fun active handled hrun => absurd (hs.handling active handled hrun) hinside
    between := Or.inr (hs.between.resolve_left fun hbetween => hinside hbetween.2)
    known := fun i hi => hs.known i (hregistered ▸ hi)
    begun := fun target_time hteardown =>
      LoopImpl.posting_of_step hstep (by simp) (hs.begun target_time hteardown) }

omit [DecidableEq Thread] [DecidableEq Hash] in
lemma Sound.postTerminate (hs : s.Sound) (hteardown : s.teardown = .joining)
    {target_time : TimePoint} {loop : LoopImpl Q}
    (hstep : s.inner.loop.step (.postTask target_time) = some loop) :
    Sound { s with
      inner := { s.inner with loop := loop }
      teardown := if s.inner.loop.terminated_ then .waiting else .posting target_time } := by
  have hterminated : s.owners = 0 ∧ s.is_terminated_ = true := by
    rw [hs.owned, hs.flag, hteardown]
    simp
  have hregistered := LoopImpl.registered_of_step hstep (by simp)
  have hcontrol : loop.control = s.inner.loop.control := by
    cases LoopImpl.moves_of_step hstep <;> rfl
  have hbetween := hs.between_of_eq rfl hcontrol
  refine { hs with
    wp := wellPosted_loop hs.wp hstep
    owned := iff_of_true hterminated.1 ?_
    flag := iff_of_true hterminated.2 ?_
    joined := fun hjoined => ?_
    handling := hbetween.1
    between := hbetween.2
    known := fun i hi => hs.known i (hregistered ▸ hi)
    begun := fun time hposting => ?_
    fresh := fun _ => hs.fresh (hteardown ▸ rfl) }
  · split <;> nofun
  · split <;> nofun
  · simp only at hjoined
    split at hjoined <;> simp at hjoined
  · simp only at hposting
    split at hposting
    · cases hposting
    · next hrunning =>
        cases hposting
        cases LoopImpl.moves_of_step hstep with
        | postTaskTerminated hterm => exact absurd hterm hrunning
        | postTask _ => exact List.mem_cons_self ..

omit [DecidableEq Thread] [DecidableEq Hash] in
lemma Sound.registerTerminate (hs : s.Sound) {target_time : TimePoint}
    (hteardown : s.teardown = .posting target_time) {loop : LoopImpl Q}
    (hstep : s.inner.loop.step (.registerTask target_time) = some loop) :
    Sound { s with
      inner := { s.inner with loop := loop }
      teardown := .waiting
      terminate := some s.inner.loop.queue.registrations } := by
  have hterminated : s.owners = 0 ∧ s.is_terminated_ = true := by
    rw [hs.owned, hs.flag, hteardown]
    simp
  have hwp := wellPosted_loop hs.wp hstep
  cases LoopImpl.moves_of_step hstep with
  | registerTask hposting =>
      have hbetween := hs.between_of_eq rfl rfl
      refine { hs with
        wp := hwp
        owned := iff_of_true hterminated.1 nofun
        flag := iff_of_true hterminated.2 nofun
        joined := fun hjoined => ?_
        handling := hbetween.1
        between := hbetween.2
        known := fun i hi => ?_
        begun := nofun
        fresh := nofun }
      · simp at hjoined
      · rcases List.mem_append.mp hi with hi | hi
        · have hfresh := hs.fresh (hteardown ▸ rfl)
          refine Or.inl ((hs.known i hi).resolve_right ?_)
          rw [hfresh]
          nofun
        · exact Or.inr (congrArg some (List.mem_singleton.mp hi).symm)

omit [DecidableEq Thread] in
/-- The tasks that are left are taken out, without a callback. -/
lemma wellFormed_removeRemaining {client : CurlClient Hash} (wf : client.WellFormed)
    (hidle : client.thread = .idle) : client.removeRemaining.WellFormed := by
  refine CurlClient.WellFormed.collect { wf with
    mapped := nofun
    handles := fun x hx => wf.handles x (List.mem_of_mem_filter hx)
    nodup := wf.nodup.filter _
    done := nofun
    erasing := fun hash herases => ?_ }
  have herases : client.thread.erases = some hash := herases
  rw [hidle] at herases
  cases herases

omit [DecidableEq Thread] in
lemma Sound.removeRemaining (hs : s.Sound) (hteardown : s.teardown = .joined) :
    Sound { s with
      inner := { s.inner with client := s.inner.client.removeRemaining }
      teardown := .destroyed } := by
  have hterminated : s.owners = 0 ∧ s.is_terminated_ = true := by
    rw [hs.owned, hs.flag, hteardown]
    simp
  have hexited := hs.joined (Or.inl hteardown)
  have hbetween : s.Between := by
    refine hs.between.resolve_right ?_
    rw [hexited]
    simp
  refine { hs with
    wp := ⟨wellFormed_removeRemaining hs.wp.wf hbetween.1, hs.wp.balanced, hs.wp.ascending,
      hs.wp.posting⟩
    owned := iff_of_true hterminated.1 nofun
    flag := iff_of_true hterminated.2 nofun
    joined := fun _ => hexited
    between := Or.inl hbetween
    begun := nofun
    fresh := nofun }

omit [DecidableEq Thread] [DecidableEq Hash] in
lemma Sound.join (hs : s.Sound) (hteardown : s.teardown = .waiting) (hrun : s.progress = .exited) :
    Sound { s with teardown := .joined } := by
  have hterminated : s.owners = 0 ∧ s.is_terminated_ = true := by
    rw [hs.owned, hs.flag, hteardown]
    simp
  exact { hs with
    owned := iff_of_true hterminated.1 nofun
    flag := iff_of_true hterminated.2 nofun
    joined := fun _ => hrun
    begun := nofun
    fresh := nofun }

omit [DecidableEq Thread] [DelayedTaskQueue Q ℕ] in
/-- A callback that returns was not between the calls. -/
lemma not_between_of_callback {client' : CurlClient Hash}
    (hstep : s.inner.client.step s.inner.client.callbackReturns = some client') :
    ¬ s.Between := by
  intro hbetween
  rw [CurlClient.callbackReturns, hbetween.1, CurlClient.step, hbetween.1] at hstep
  cases hstep

omit [DecidableEq Thread] in
/-- Users leave the request thread where it is. -/
lemma Sound.thread_of_user (hs : s.Sound) {a : CurlAction Hash} {inner : LoopClient Hash Q}
    (hstep : s.inner.step (.client a) = some inner)
    (ha : (∃ request_hash, a = .taskWithRequest request_hash) ∨ ∃ task, a = .release task) :
    inner.client.thread = s.inner.client.thread := by
  have hclient := (LoopClient.client_of_step hstep).2.1
  generalize inner.client = client at hclient
  cases (CurlClient.moves_of_step hs.wp.wf hclient).2 with
  | taskWithRequest hash => rfl
  | release task => rfl
  | _ => simp at ha

/-- **The invariant.** -/
theorem sound_step (hs : s.Sound) (ht : s.step a = some t) : t.Sound := by
  cases (moves_of_step ht).2.2 with
  | acquire howned => exact hs.acquire howned _
  | drop hfree => exact hs.dropped hfree
  | taskWithRequest hfree hstep =>
      refine hs.client hstep fun hbetween => Or.inl ?_
      exact (hs.thread_of_user hstep (Or.inl ⟨_, rfl⟩)).trans hbetween.1
  | postTask hfree hstep => exact hs.postTask hfree hstep
  | registerTask hposts hstep => exact hs.registerTask hposts hstep
  | release hstep =>
      refine hs.client hstep fun hbetween => Or.inl ?_
      exact (hs.thread_of_user hstep (Or.inr ⟨_, rfl⟩)).trans hbetween.1
  | @registerElsewhere inner hstep =>
      refine hs.loop hstep (Or.inr ⟨?_, by simp⟩)
      have hloop := (LoopClient.loop_of_step hstep).1
      generalize inner.loop = loop at hloop
      cases LoopImpl.moves_of_step hloop
      rfl
  | advance hbetween hnext => exact hs.advance hbetween hnext
  | handleCurlMsg hrun hstep =>
      have hinner := hs.client hstep fun _ => Or.inr ⟨_, _, hrun⟩
      refine hinner.setProgress ?_ nofun (fun _ _ _ => hinner.handling _ _ hrun)
        (Or.inr (Or.inl ⟨_, _, rfl⟩))
      rw [hrun]
      nofun
  | callbackReturns hstep =>
      refine hs.client hstep fun hbetween => ?_
      exact absurd hbetween (not_between_of_callback (LoopClient.client_of_step hstep).2.1)
  | @runForTime active inner hrun hstep =>
      have hserving : Sound { s with progress := .serving active } := by
        refine hs.setProgress ?_ nofun nofun (Or.inr (Or.inr ⟨active, rfl⟩))
        rw [hrun]
        nofun
      exact hserving.loop hstep (Or.inl ⟨active, rfl⟩)
  | slice hrun hslicing hstep => exact hs.loop hstep (Or.inl ⟨_, hrun⟩)
  | invokeTerminate hidle hhead hstep => exact hs.invokeTerminate hstep
  | postTerminate hteardown hstep => exact hs.postTerminate hteardown hstep
  | registerTerminate hteardown hstep => exact hs.registerTerminate hteardown hstep
  | join hteardown hrun => exact hs.join hteardown hrun
  | removeRemaining hteardown => exact hs.removeRemaining hteardown

theorem sound_run {n : ℕ} {thread : Thread} {acts : List (OwnedClientAction Thread Hash)}
    (hrun : run step (create n thread : OwnedClient Thread Hash Q) acts = some s) : s.Sound :=
  run_invariant (fun _ _ _ => sound_step) (sound_create n thread) hrun

/-- The destructor goes on. -/
lemma Sound.teardown_step (hs : s.Sound) (halive : s.teardown ≠ .alive) (ht : s.step a = some t) :
    t.teardown ≠ .alive ∧ t.teardown ≠ .aborted := by
  rcases moves_of_step ht with ⟨haborted, -, hmoves⟩
  cases hmoves with
  | drop hfree => exact absurd (hs.alive hfree).1 halive
  | postTerminate hjoining hstep => constructor <;> simp only <;> split <;> nofun
  | registerTerminate _ _ | join _ _ | removeRemaining _ => exact ⟨nofun, nofun⟩
  | _ => exact ⟨halive, haborted⟩

/-- **As long as it has an owner, the client does what the client on its loop does.** -/
theorem inner_run {n : ℕ} {thread : Thread} {acts : List (OwnedClientAction Thread Hash)}
    (hrun : run step (create n thread : OwnedClient Thread Hash Q) acts = some s)
    (halive : s.teardown = .alive) :
    ∃ acts', run LoopClient.step (LoopClient.create n) acts' = some s.inner := by
  refine (run_invariant (I := fun s : OwnedClient Thread Hash Q => s.Sound ∧
    (s.teardown = .alive → ∃ acts', run LoopClient.step (LoopClient.create n) acts'
      = some s.inner)) ?_ ⟨sound_create n thread, fun _ => ⟨[], rfl⟩⟩ hrun).2 halive
  rintro s a t ⟨hs, hinner⟩ ht
  refine ⟨sound_step hs ht, fun halive' => ?_⟩
  have halive : s.teardown = .alive := by
    by_contra hteardown
    exact (hs.teardown_step hteardown ht).1 halive'
  rcases hinner halive with ⟨acts', hacts'⟩
  have hmore {b : LoopClientAction Hash} {inner : LoopClient Hash Q}
      (hstep : s.inner.step b = some inner) :
      ∃ acts', run LoopClient.step (LoopClient.create n) acts' = some inner := by
    refine ⟨acts' ++ [b], ?_⟩
    rw [run_append, hacts']
    exact run_cons_eq_some.mpr ⟨inner, hstep, rfl⟩
  cases (moves_of_step ht).2.2 with
  | acquire _ | advance _ _ | join _ _ => exact ⟨acts', hacts'⟩
  | drop hfree =>
      rw [dropped]
      split <;> exact ⟨acts', hacts'⟩
  | taskWithRequest _ hstep | postTask _ hstep | registerTask _ hstep | release hstep
  | registerElsewhere hstep | handleCurlMsg _ hstep | callbackReturns hstep | runForTime _ hstep
  | slice _ _ hstep => exact hmore hstep
  | invokeTerminate hidle hhead hstep =>
      -- nothing has been posted by `Join` yet
      rw [hs.fresh (halive ▸ rfl)] at hhead
      cases LoopImpl.moves_of_step hstep with
      | invoke hserving =>
          rw [hserving] at hhead
          cases hhead
      | invokeLast hfinishing =>
          rw [hfinishing] at hhead
          cases hhead
  | postTerminate hjoining hstep => cases halive.symm.trans hjoining
  | registerTerminate hposting hstep => cases halive.symm.trans hposting
  | removeRemaining hjoined => cases halive.symm.trans hjoined

/-! ## After the join -/

/-- The request thread has been joined. -/
def Joined (s : OwnedClient Thread Hash Q) : Prop :=
  s.teardown = .joined ∨ s.teardown = .destroyed

instance (s : OwnedClient Thread Hash Q) : Decidable s.Joined := inferInstanceAs (Decidable (_ ∨ _))

omit [DecidableEq Thread] [DecidableEq Hash] in
lemma Sound.nobody (hs : s.Sound) (hjoined : s.Joined) :
    s.progress = .exited ∧ s.owners = 0 ∧ s.posts = 0 ∧ s.inner.posting = [] ∧ s.Between := by
  have hexited := hs.joined hjoined
  have howners : s.owners = 0 := by
    rw [hs.owned]
    rcases hjoined with hjoined | hjoined <;> rw [hjoined] <;> nofun
  have hposts : s.posts = 0 := Multiset.le_zero.mp (howners ▸ hs.pinned)
  have hposting := hs.posting
  rw [hposts, Multiset.card_zero, List.length_eq_zero_iff] at hposting
  refine ⟨hexited, howners, hposts, hposting, hs.between.resolve_right ?_⟩
  rw [hexited]
  simp

/-- What the destructor leaves: the map is empty, and the handles that are in the multi handle yet
are those of tasks that users hold. -/
structure Emptied (c : CurlClient Hash) : Prop where
  idle : c.thread = .idle
  map : c.request_task_map_ = fun _ => none
  held : ∀ x ∈ c.curl_multi_handle_, x ∈ c.held

/-- The end of a task takes its handle out of the multi handle. -/
lemma emptied_collect {c : CurlClient Hash} (hidle : c.thread = .idle)
    (hmap : c.request_task_map_ = fun _ => none) : Emptied c.collect where
  idle := hidle
  map := hmap
  held x hx := by
    have halive := CurlClient.alive_iff.mp (CurlClient.mem_collect.mp hx).2
    rw [hmap, hidle] at halive
    exact halive.resolve_right (by simp)

/-- Behind the join nothing is called back, and no closure is run. -/
lemma Sound.joined_step (hs : s.Sound) (hjoined : s.Joined) (ht : s.step a = some t) :
    t.Joined ∧ t.inner.client.completions = s.inner.client.completions ∧
      t.inner.loop.executed = s.inner.loop.executed ∧
        ((s.teardown = .destroyed → Emptied s.inner.client) →
          t.teardown = .destroyed → Emptied t.inner.client) := by
  rcases hs.nobody hjoined with ⟨hexited, howners, hposts, hposting, hidle, hout⟩
  have hnotfree : ∀ caller, ¬ s.Free caller := by
    intro caller hfree
    rw [Free, howners, Multiset.count_zero] at hfree
    cases hfree
  have hprogress {progress : RunProgress} (h : s.progress = progress) : progress = .exited :=
    h.symm.trans hexited
  cases (moves_of_step ht).2.2 with
  | acquire howned => exact absurd howners howned
  | drop hfree => exact absurd hfree (hnotfree _)
  | taskWithRequest hfree hstep => exact absurd hfree (hnotfree _)
  | postTask hfree hstep => exact absurd hfree (hnotfree _)
  | registerTask hcaller hstep =>
      rw [hposts] at hcaller
      exact absurd hcaller (Multiset.notMem_zero _)
  | @release task inner hstep =>
      rcases LoopClient.client_of_step hstep with ⟨-, hclient, hloop, -⟩
      show s.Joined ∧ inner.client.completions = _ ∧ inner.loop.executed = _ ∧
        ((s.teardown = .destroyed → _) → s.teardown = .destroyed → Emptied inner.client)
      rw [hloop]
      generalize inner.client = client at hclient
      cases (CurlClient.moves_of_step hs.wp.wf hclient).2
      refine ⟨hjoined, rfl, rfl, fun hemptied hdestroyed => ?_⟩
      exact emptied_collect (hemptied hdestroyed).idle (hemptied hdestroyed).map
  | registerElsewhere hstep =>
      rcases LoopClient.loop_of_step hstep with ⟨hloop, -, -, -, hclient | ⟨hinvoke, -⟩⟩
      · refine ⟨hjoined, congrArg CurlClient.completions hclient,
          LoopImpl.executed_of_step hloop (by simp), fun hemptied hdestroyed => ?_⟩
        exact (congrArg Emptied hclient).mpr (hemptied hdestroyed)
      · cases hinvoke
  | advance hbetween hnext =>
      rw [hexited] at hnext
      cases hnext
  | handleCurlMsg hrun hstep => cases hprogress hrun
  | callbackReturns hstep =>
      exact absurd ⟨hidle, hout⟩
        (not_between_of_callback (LoopClient.client_of_step hstep).2.1)
  | runForTime hrun hstep => cases hprogress hrun
  | slice hrun hslicing hstep => cases hprogress hrun
  | invokeTerminate _ hhead hstep => exact absurd hout (not_outside_of_invoke hstep)
  | postTerminate hteardown hstep | registerTerminate hteardown hstep | join hteardown hrun =>
      rw [Joined, hteardown] at hjoined
      simp at hjoined
  | removeRemaining hteardown =>
      exact ⟨Or.inr rfl, rfl, rfl, fun _ _ => emptied_collect hidle rfl⟩

lemma Sound.joined_run (hs : s.Sound) (hjoined : s.Joined)
    {acts : List (OwnedClientAction Thread Hash)} (hrun : run step s acts = some t) :
    t.Sound ∧ t.Joined ∧ t.inner.client.completions = s.inner.client.completions ∧
      t.inner.loop.executed = s.inner.loop.executed := by
  refine run_invariant (I := fun t : OwnedClient Thread Hash Q => t.Sound ∧ t.Joined ∧
    t.inner.client.completions = s.inner.client.completions ∧
      t.inner.loop.executed = s.inner.loop.executed) ?_ ⟨hs, hjoined, rfl, rfl⟩ hrun
  rintro t a u ⟨ht, hjoined, hcompletions, hexecuted⟩ hu
  rcases ht.joined_step hjoined hu with ⟨hjoined', hcompletions', hexecuted', -⟩
  exact ⟨sound_step ht hu, hjoined', hcompletions'.trans hcompletions,
    hexecuted'.trans hexecuted⟩

lemma joined_of_destroyed (ht : s.step a = some t) (hdestroyed : t.teardown = .destroyed) :
    s.Joined := by
  cases (moves_of_step ht).2.2 with
  | drop hfree =>
      rw [dropped] at hdestroyed
      split at hdestroyed
      · simp only at hdestroyed
        split at hdestroyed <;> cases hdestroyed
      · exact Or.inr hdestroyed
  | postTerminate hteardown hstep =>
      simp only at hdestroyed
      split at hdestroyed <;> cases hdestroyed
  | registerTerminate _ _ | join _ _ => cases hdestroyed
  | removeRemaining hteardown => exact Or.inl hteardown
  | _ => exact Or.inr hdestroyed

/-- **The end of a client.**  As long as the client has an owner, the request thread is in `Run`,
and no task is completed twice.  Once the request thread has been joined, nothing is left that could
post, lock or call back: whatever the users do, no closure is run and no task is completed any more.
When the destructor is done, the map is empty, and the multi handle has only handles of tasks that
users hold yet. -/
theorem joined_for_good {n : ℕ} {thread : Thread}
    {acts acts' : List (OwnedClientAction Thread Hash)}
    (hrun : run step (create n thread : OwnedClient Thread Hash Q) acts = some s)
    (hrest : run step s acts' = some t) :
    (t.owners ≠ 0 → t.progress ≠ .exited) ∧ t.inner.client.completed.Nodup ∧
      (s.Joined → t.progress = .exited ∧ t.owners = 0 ∧ t.inner.posting = [] ∧
        t.inner.client.completions = s.inner.client.completions ∧
          t.inner.loop.executed = s.inner.loop.executed) ∧
      (t.teardown = .destroyed → Emptied t.inner.client) := by
  have hs := sound_run hrun
  have ht : t.Sound := run_invariant (fun _ _ _ => sound_step) hs hrest
  have hwhole :
      run step (create n thread : OwnedClient Thread Hash Q) (acts ++ acts') = some t := by
    rw [run_append, hrun]
    exact hrest
  refine ⟨fun howned hexited => ?_, ht.wp.wf.once, fun hjoined => ?_, ?_⟩
  · exact howned (ht.owned.mpr (ht.flag.mp (ht.exited hexited)))
  · rcases hs.joined_run hjoined hrest with ⟨-, hjoined', hcompletions, hexecuted⟩
    rcases ht.nobody hjoined' with ⟨hexited, howners, -, hposting, -⟩
    exact ⟨hexited, howners, hposting, hcompletions, hexecuted⟩
  · refine (run_invariant (I := fun t : OwnedClient Thread Hash Q => t.Sound ∧
      (t.teardown = .destroyed → Emptied t.inner.client)) ?_ ⟨sound_create n thread, nofun⟩
      hwhole).2
    rintro s a t ⟨hs, hemptied⟩ ht
    refine ⟨sound_step hs ht, fun hdestroyed => ?_⟩
    exact (hs.joined_step (joined_of_destroyed ht hdestroyed) ht).2.2.2 hemptied hdestroyed

/-- The last owner goes while its request is in the loop. -/
def droppedEarly : List (OwnedClientAction Bool ℕ) :=
  [.acquire (.user true), .taskWithRequest (.user false) 7,
    .postTask (.user false) (.startRequest 7 ⟨0, 7⟩) ⟨1⟩, .drop (.user true),
    .registerTask (.user false) (.startRequest 7 ⟨0, 7⟩) ⟨1⟩, .advance false, .advance false,
    .runForTime, .drop (.user false)]

/-- The destructor and the request thread, to the end. -/
def tornDown : List (OwnedClientAction Bool ℕ) :=
  [.postTerminate ⟨2⟩, .registerTerminate, .slice (.onEventFired ⟨5⟩), .slice .invoke,
    .invokeTerminate, .slice .flushed, .slice .runReturns, .slice (.runExpiredTasksNow ⟨6⟩),
    .slice .disposeTasks, .advance false, .join, .removeRemaining]

/-- The destructor has been called. -/
def joiningClient : OwnedClient Bool ℕ (SortedQueue (@DelayedTask.gt ℕ)) :=
  (run step (create 0 false) droppedEarly).get rfl

theorem joined_for_good_droppedEarly :
    ∃ t, run step joiningClient tornDown = some t ∧ Emptied t.inner.client ∧
      t.inner.client.completed.Nodup := by
  have hs : run step (create 0 false) droppedEarly = some joiningClient := rfl
  have ht : run step joiningClient tornDown = some _ := rfl
  rcases joined_for_good hs ht with ⟨-, honce, -, hemptied⟩
  exact ⟨_, ht, hemptied rfl, honce⟩

end OwnedClient

end FFNetwork
