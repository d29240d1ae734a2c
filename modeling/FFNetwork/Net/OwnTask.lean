import FFNetwork.Net.CurlClient

/-!
# Whose task a call acts on

`Cancel` and `Resume` of a task are posted to the client thread with the hash of the task alone.
What the client thread does later is up to the task that the map has for the hash by then.  Here the
history keeps the task whose cancellation is under way, so that each step of the client thread has
the call that caused it.

* `CallerHistory.step` — the client, with the task that is being cancelled.
* **`acts_on_own_task_iff`** — when every call acts on its own task only.
* **`acts_on_own_task_of_new`** — it does, if no two requests have the same hash.
-/

namespace FFNetwork

open StepSystem

/-! ## The multi handle has no freed handle -/

namespace CurlClient

variable {Hash : Type} [DecidableEq Hash] {s t : CurlClient Hash} {x : RequestTask Hash}
  {a : CurlAction Hash}

/-- Somebody holds a pointer to every task whose handle is in the multi handle. -/
def HandlesAlive (s : CurlClient Hash) : Prop :=
  s.thread ≠ .crashed → ∀ x ∈ s.curl_multi_handle_, s.alive x = true

lemma alive_of_mapped {h : Hash} (wf : s.WellFormed)
    (hmap : s.request_task_map_ h = some x) : s.alive x = true := by
  rw [alive_iff, (wf.mapped hmap).1]
  exact Or.inr (Or.inl hmap)

lemma handlesAlive_collect (s : CurlClient Hash) : s.collect.HandlesAlive := by
  intro _ x hx
  exact (mem_collect.mp hx).2

theorem handlesAlive_step (wf : s.WellFormed) (hs : s.HandlesAlive) (ht : s.step a = some t) :
    t.HandlesAlive := by
  rcases moves_of_step wf ht with ⟨hthread, hmoves⟩
  cases hmoves with
  | taskWithRequest hash => exact handlesAlive_collect (s.addTask hash)
  | resume _ => exact hs
  | cancel _ => exact hs
  | release y => exact handlesAlive_collect _
  | @startRequest hash caller rest hidle hposted =>
      intro _ x hx
      rcases startRequest_eq { s with posted := rest } hash with ⟨handles, heq, _⟩
      have hsame :
          (CurlClient.startRequest { s with posted := rest } hash).alive x = s.alive x := by
        rw [heq]
        rfl
      rw [hsame]
      cases hmap : s.request_task_map_ hash with
      | none =>
          simp only [CurlClient.startRequest, hmap] at hx
          exact hs hthread x hx
      | some y =>
          rcases (mem_startRequest (s := { s with posted := rest }) hmap).mp hx with hx | rfl
          · exact hs hthread x hx
          · exact alive_of_mapped wf hmap
  | cancelNothing _ _ _ => exact hs
  | cancelRequest hidle _ _ =>
      intro _ x hx
      have hx := alive_iff.mp (hs hthread x hx)
      simp only [hidle, reduceCtorEq, exists_false, or_false] at hx
      exact alive_iff.mpr (hx.imp_right Or.inl)
  | didCancelledReturns _ _ => exact handlesAlive_collect _
  | handleCurlMsg hidle _ _ =>
      intro _ x hx
      have hx := alive_iff.mp (hs hthread x hx)
      simp only [hidle, reduceCtorEq, exists_false, or_false] at hx
      exact alive_iff.mpr (hx.imp_right Or.inl)
  | nullTask _ _ _ => exact fun hcrashed => absurd rfl hcrashed
  | didFinishedReturns _ _ => exact handlesAlive_collect _
  | freedHandle _ _ => exact fun hcrashed => absurd rfl hcrashed

/-! ## What is the task's own -/

/-- Between the two states `DidCancelled` has been called on the task only, no other handle has been
removed from the multi handle, and no entry of another task has been erased. -/
structure CancelsOnly (s t : CurlClient Hash) (task : RequestTask Hash) : Prop where
  completions : ∃ new, t.completions = s.completions ++ new ∧ ∀ c ∈ new, c.task = task
  handles : ∀ x ∈ s.curl_multi_handle_, x ≠ task → x ∈ t.curl_multi_handle_
  entries : ∀ h x, s.request_task_map_ h = some x → x ≠ task → t.request_task_map_ h = some x

/-- Between the two states no handle of another task has been added. -/
def StartsOnly (s t : CurlClient Hash) (task : RequestTask Hash) : Prop :=
  ∀ x ∈ t.curl_multi_handle_, x ≠ task → x ∈ s.curl_multi_handle_

/-- Where the map has the task for its hash, or nothing. -/
def FindsOnly (s : CurlClient Hash) (task : RequestTask Hash) : Prop :=
  ∀ x, s.request_task_map_ task.identifier_ = some x → x = task

omit [DecidableEq Hash] in
/-- A step that leaves the client as it is but for its posted calls and pointers. -/
lemma CancelsOnly.keep (task : RequestTask Hash) (hcompletions : t.completions = s.completions)
    (hhandles : t.curl_multi_handle_ = s.curl_multi_handle_)
    (hmap : t.request_task_map_ = s.request_task_map_) : s.CancelsOnly t task where
  completions := ⟨[], by simp [hcompletions]⟩
  handles x hx _ := hhandles ▸ hx
  entries h x hx _ := by rw [hmap, hx]

/-- The end of a cancellation takes the handle and the entry of the task found, and its own handle
is the only one nobody holds any more. -/
lemma cancelsOnly_removeAndCleanup (hs : s.HandlesAlive) {hash : Hash}
    (hthread : s.thread = .inDidCancelled hash) (hmap : s.request_task_map_ hash = some x) :
    s.CancelsOnly (s.removeAndCleanup x hash) x := by
  have hother : ∀ h y, s.request_task_map_ h = some y → y ≠ x →
      (s.removeAndCleanup x hash).request_task_map_ h = some y := by
    intro h y hy hne
    have hh : h ≠ hash := by
      rintro rfl
      rw [hmap, Option.some.injEq] at hy
      exact hne hy.symm
    rw [removeAndCleanup_map_other hh, hy]
  refine ⟨⟨[], by simp [removeAndCleanup, collect]⟩, ?_, hother⟩
  intro y hy hne
  have halive := alive_iff.mp (hs (by simp [hthread]) y hy)
  simp only [hthread, reduceCtorEq, exists_false, or_false] at halive
  refine mem_collect.mpr ⟨(List.mem_erase_of_ne hne).mpr hy, alive_iff.mpr ?_⟩
  rcases halive with hheld | hmapped
  · exact Or.inl hheld
  · exact Or.inr (Or.inl (hother _ y hmapped hne))

end CurlClient

/-! ## The calls and what they cause -/

/-- The hash that a posted call takes along. -/
def PostedCall.hash {Hash : Type} : PostedCall Hash → Hash
  | .startRequest hash _ | .cancelRequest hash _ => hash

/-- The task whose method posted the call. -/
def PostedCall.caller {Hash : Type} : PostedCall Hash → RequestTask Hash
  | .startRequest _ caller | .cancelRequest _ caller => caller

/-- The client, and the task whose posted cancellation the client thread has run last, if that was
the last call it has run. -/
structure CallerHistory (Hash : Type) where
  client : CurlClient Hash
  cancelling : Option (RequestTask Hash)

namespace CallerHistory

variable {Hash : Type} [DecidableEq Hash] {s t : CallerHistory Hash} {x : RequestTask Hash}
  {a : CurlAction Hash}

/-- A new client. -/
def create : CallerHistory Hash := ⟨.create, none⟩

/-- The task whose `Cancel` causes the step: the call itself, `CancelRequest` up to the callback, or
`CancelRequest` behind it. -/
def causedByCancel (s : CallerHistory Hash) : CurlAction Hash → Option (RequestTask Hash)
  | .cancel task => some task
  | .runPosted =>
      match s.client.posted with
      | .cancelRequest _ caller :: _ => some caller
      | _ => none
  | .didCancelledReturns => s.cancelling
  | _ => none

/-- The task whose `Resume` causes the step. -/
def causedByResume (s : CallerHistory Hash) : CurlAction Hash → Option (RequestTask Hash)
  | .resume task => some task
  | .runPosted =>
      match s.client.posted with
      | .startRequest _ caller :: _ => some caller
      | _ => none
  | _ => none

/-- What the history adds to a step of the client. -/
def record (s : CallerHistory Hash) (a : CurlAction Hash) (client : CurlClient Hash) :
    CallerHistory Hash where
  client := client
  cancelling :=
    match a with
    | .runPosted => s.causedByCancel .runPosted
    | _ => s.cancelling

/-- A step of the client, with what the history adds. -/
def step (s : CallerHistory Hash) (a : CurlAction Hash) : Option (CallerHistory Hash) :=
  (s.client.step a).map fun client => s.record a client

lemma step_eq_some (ht : s.step a = some t) :
    s.client.step a = some t.client ∧ t = s.record a t.client := by
  rcases Option.map_eq_some_iff.mp ht with ⟨client, hclient, rfl⟩
  exact ⟨hclient, rfl⟩

/-- What the call of a task causes is about that task only. -/
def ActsOnOwnTask (s : CallerHistory Hash) (a : CurlAction Hash) (t : CallerHistory Hash) : Prop :=
  (∀ task, s.causedByCancel a = some task → s.client.CancelsOnly t.client task) ∧
    ∀ task, s.causedByResume a = some task → s.client.StartsOnly t.client task

/-- The look-up by the hash finds the task that made the call, or nothing; a task about to be
started may have been replaced by one whose handle is in the multi handle already. -/
def FindsCaller (s : CallerHistory Hash) : CurlAction Hash → Prop
  | .runPosted =>
      (∀ task, s.causedByCancel .runPosted = some task → s.client.FindsOnly task) ∧
        ∀ task, s.causedByResume .runPosted = some task →
          ∀ x, s.client.request_task_map_ task.identifier_ = some x →
            x = task ∨ x ∈ s.client.curl_multi_handle_
  | .didCancelledReturns =>
      ∀ task, s.cancelling = some task → s.client.FindsOnly task
  | _ => True

/-! ## The invariant -/

/-- Every call under way carries the hash of the task that made it. -/
structure Called (s : CallerHistory Hash) : Prop where
  wf : s.client.WellFormed
  alive : s.client.HandlesAlive
  posted : ∀ call ∈ s.client.posted,
    call.hash = call.caller.identifier_ ∧ call.caller ∈ s.client.tasks
  cancelling : ∀ hash, s.client.thread = .inDidCancelled hash →
    ∃ task, s.cancelling = some task ∧ task.identifier_ = hash ∧ task ∈ s.client.tasks

lemma called_create : (create : CallerHistory Hash).Called where
  wf := CurlClient.wellFormed_create
  alive _ x hx := by simp [create, CurlClient.create] at hx
  posted call hcall := by simp [create, CurlClient.create] at hcall
  cancelling hash hthread := by simp [create, CurlClient.create] at hthread

/-- The calls posted before a step are still calls of created tasks. -/
lemma Called.keep (hs : s.Called) (hwf : t.client.WellFormed) (halive : t.client.HandlesAlive)
    (hposted : ∀ call ∈ t.client.posted, call ∈ s.client.posted)
    (htasks : ∀ x ∈ s.client.tasks, x ∈ t.client.tasks)
    (hcancelling : ∀ hash, t.client.thread = .inDidCancelled hash →
      s.client.thread = .inDidCancelled hash ∧ t.cancelling = s.cancelling) : t.Called where
  wf := hwf
  alive := halive
  posted call hcall := by
    rcases hs.posted call (hposted call hcall) with ⟨hhash, hcaller⟩
    exact ⟨hhash, htasks _ hcaller⟩
  cancelling hash hthread := by
    rcases hcancelling hash hthread with ⟨hbefore, hsame⟩
    rcases hs.cancelling hash hbefore with ⟨task, htask, hid, hcreated⟩
    exact ⟨task, hsame.trans htask, hid, htasks _ hcreated⟩

/-- A call is posted by a task that a user holds. -/
lemma Called.post (hs : s.Called) (call : PostedCall Hash) (hheld : call.caller ∈ s.client.held)
    (hhash : call.hash = call.caller.identifier_) :
    ∀ c ∈ s.client.posted ++ [call], c.hash = c.caller.identifier_ ∧ c.caller ∈ s.client.tasks := by
  intro c hc
  rcases List.mem_append.mp hc with hc | hc
  · exact hs.posted c hc
  · rw [List.mem_singleton] at hc
    subst hc
    exact ⟨hhash, hs.wf.held _ hheld⟩

theorem called_step (hs : s.Called) (ht : s.step a = some t) : t.Called := by
  rcases step_eq_some ht with ⟨hclient, hrecord⟩
  have hwf := CurlClient.wellFormed_step hs.wf hclient
  have halive := CurlClient.handlesAlive_step hs.wf hs.alive hclient
  generalize t.client = client at hclient hrecord hwf halive
  subst hrecord
  rcases CurlClient.moves_of_step hs.wf hclient with ⟨_, hmoves⟩
  cases hmoves with
  | taskWithRequest hash =>
      exact hs.keep hwf halive (fun _ hc => hc) (fun x hx => List.mem_append_left _ hx)
        fun _ hthread => ⟨hthread, rfl⟩
  | @resume x hheld =>
      exact ⟨hwf, halive, hs.post (.startRequest x.identifier_ x) hheld rfl, hs.cancelling⟩
  | @cancel x hheld =>
      exact ⟨hwf, halive, hs.post (.cancelRequest x.identifier_ x) hheld rfl, hs.cancelling⟩
  | release y =>
      exact hs.keep hwf halive (fun _ hc => hc) (fun _ hx => hx) fun _ hthread => ⟨hthread, rfl⟩
  | @startRequest hash caller rest hidle hposted =>
      rcases CurlClient.startRequest_eq { s.client with posted := rest } hash with ⟨_, heq, _⟩
      refine hs.keep hwf halive ?_ ?_ ?_
      · intro call hcall
        simp only [record, heq] at hcall
        simp [hposted, hcall]
      · simp [record, heq]
      · intro _ hthread
        simp only [record] at hthread
        rw [heq] at hthread
        simp only [hidle, reduceCtorEq] at hthread
  | cancelNothing hidle hposted _ =>
      refine hs.keep hwf halive ?_ (fun _ hx => hx) ?_
      · intro call hcall
        simp only [record] at hcall
        simp [hposted, hcall]
      · intro _ hthread
        simp [record, hidle] at hthread
  | @cancelRequest hash caller x rest hidle hposted hmap =>
      have hcall := hs.posted (.cancelRequest hash caller) (by simp [hposted])
      refine ⟨hwf, halive, fun call hc => hs.posted call (by simp_all [record]), ?_⟩
      rintro _ ⟨⟩
      exact ⟨caller, by simp [record, causedByCancel, hposted], hcall.1.symm, hcall.2⟩
  | didCancelledReturns _ _ =>
      exact hs.keep hwf halive (fun _ hc => hc) (fun _ hx => hx) fun _ hthread => by cases hthread
  | handleCurlMsg _ _ _ =>
      exact hs.keep hwf halive (fun _ hc => hc) (fun _ hx => hx) fun _ hthread => by cases hthread
  | nullTask _ _ _ =>
      exact hs.keep hwf halive (fun _ hc => hc) (fun _ hx => hx) fun _ hthread => by cases hthread
  | didFinishedReturns _ _ =>
      exact hs.keep hwf halive (fun _ hc => hc) (fun _ hx => hx) fun _ hthread => by cases hthread
  | freedHandle _ _ =>
      exact hs.keep hwf halive (fun _ hc => hc) (fun _ hx => hx) fun _ hthread => by cases hthread

/-! ## When a call acts on its own task -/

/-- `StartRequest` adds the handle of the task found, if it is not there yet. -/
lemma Called.startsOnly_iff (hs : s.Called) {hash : Hash} {caller : RequestTask Hash}
    {rest : List (PostedCall Hash)} (hposted : s.client.posted = .startRequest hash caller :: rest) :
    s.client.StartsOnly (CurlClient.startRequest { s.client with posted := rest } hash) caller ↔
      ∀ x, s.client.request_task_map_ caller.identifier_ = some x →
        x = caller ∨ x ∈ s.client.curl_multi_handle_ := by
  have hhash : hash = caller.identifier_ :=
    (hs.posted (.startRequest hash caller) (by simp [hposted])).1
  subst hhash
  have hadded : ∀ x, s.client.request_task_map_ caller.identifier_ = some x → ∀ y,
      y ∈ (CurlClient.startRequest { s.client with posted := rest }
        caller.identifier_).curl_multi_handle_ ↔ y ∈ s.client.curl_multi_handle_ ∨ y = x :=
    fun x hmap y => CurlClient.mem_startRequest (s := { s.client with posted := rest }) hmap
  constructor
  · intro hstarts x hmap
    by_cases hx : x = caller
    · exact Or.inl hx
    · exact Or.inr (hstarts x ((hadded x hmap x).mpr (Or.inr rfl)) hx)
  · intro hfinds y hy hne
    cases hmap : s.client.request_task_map_ caller.identifier_ with
    | none =>
        simp only [CurlClient.startRequest, hmap] at hy
        exact hy
    | some x =>
        rcases (hadded x hmap y).mp hy with hy | rfl
        · exact hy
        · exact (hfinds y hmap).resolve_left hne

/-- `CancelRequest` completes the task found. -/
lemma Called.cancelsOnly_iff (hs : s.Called) {hash : Hash} {caller : RequestTask Hash}
    {rest : List (PostedCall Hash)} (hposted : s.client.posted = .cancelRequest hash caller :: rest) :
    s.client.CancelsOnly (CurlClient.cancelRequest { s.client with posted := rest } hash) caller ↔
      s.client.FindsOnly caller := by
  have hhash : hash = caller.identifier_ :=
    (hs.posted (.cancelRequest hash caller) (by simp [hposted])).1
  subst hhash
  cases hmap : s.client.request_task_map_ caller.identifier_ with
  | none =>
      simp only [CurlClient.cancelRequest, CurlClient.FindsOnly, hmap]
      constructor
      · intro _ x hx
        cases hx
      · exact fun _ => .keep caller rfl rfl rfl
  | some x =>
      simp only [CurlClient.cancelRequest, CurlClient.FindsOnly, hmap, Option.some.injEq]
      constructor
      · rintro ⟨⟨new, hnew, hown⟩, _, _⟩ y rfl
        have hnew := List.append_cancel_left hnew
        subst hnew
        exact hown _ (List.mem_singleton_self _)
      · intro hfinds
        have hx := hfinds x rfl
        subst hx
        exact ⟨⟨[_], rfl, by simp⟩, fun y hy _ => hy, fun h y hy _ => hy⟩

/-- The end of a cancellation erases the entry of the task found. -/
lemma Called.cancelsOnly_end_iff (hs : s.Called) {hash : Hash} {x task : RequestTask Hash}
    (hthread : s.client.thread = .inDidCancelled hash)
    (hmap : s.client.request_task_map_ hash = some x) (htask : task.identifier_ = hash) :
    s.client.CancelsOnly (s.client.removeAndCleanup x hash) task ↔ s.client.FindsOnly task := by
  subst htask
  simp only [CurlClient.FindsOnly, hmap, Option.some.injEq]
  constructor
  · rintro hcancels y rfl
    by_contra hne
    have hentry := hcancels.entries _ x hmap hne
    rw [CurlClient.removeAndCleanup_map_self] at hentry
    cases hentry
  · intro hfinds
    have hx := hfinds x rfl
    subst hx
    exact CurlClient.cancelsOnly_removeAndCleanup hs.alive hthread hmap

/-- **One step.**  What it causes is about the task of the call exactly if the look-up has found
that task. -/
theorem Called.actsOnOwnTask_iff (hs : s.Called) (ht : s.step a = some t) :
    s.ActsOnOwnTask a t ↔ s.FindsCaller a := by
  rcases step_eq_some ht with ⟨hclient, hrecord⟩
  generalize t.client = client at hclient hrecord
  subst hrecord
  rcases CurlClient.moves_of_step hs.wf hclient with ⟨_, hmoves⟩
  simp only [ActsOnOwnTask, record]
  cases hmoves with
  | resume _ =>
      simp only [causedByCancel, causedByResume, FindsCaller, iff_true]
      exact ⟨fun _ htask => (by cases htask), fun _ _ _ hx _ => hx⟩
  | cancel _ =>
      simp only [causedByCancel, causedByResume, FindsCaller, iff_true]
      exact ⟨fun task _ => .keep task rfl rfl rfl, fun _ htask => (by cases htask)⟩
  | @startRequest hash caller rest hidle hposted =>
      simp [causedByCancel, causedByResume, FindsCaller, hposted, hs.startsOnly_iff hposted]
  | @cancelNothing hash caller rest hidle hposted hmap =>
      have hiff := hs.cancelsOnly_iff hposted
      simp only [CurlClient.cancelRequest, hmap] at hiff
      simp [causedByCancel, causedByResume, FindsCaller, hposted, hiff]
  | @cancelRequest hash caller x rest hidle hposted hmap =>
      have hiff := hs.cancelsOnly_iff hposted
      simp only [CurlClient.cancelRequest, hmap] at hiff
      simp [causedByCancel, causedByResume, FindsCaller, hposted, hiff]
  | @didCancelledReturns hash x hthread hmap =>
      rcases hs.cancelling hash hthread with ⟨task, htask, hid, _⟩
      simp [causedByCancel, causedByResume, FindsCaller, htask,
        hs.cancelsOnly_end_iff hthread hmap hid]
  | _ => simp [causedByCancel, causedByResume, FindsCaller]

/-- **When a call acts on its own task.**  In every run: no step caused by a task's `Cancel`
completes another task, removes the handle of another task or erases its entry, and none caused by a
task's `Resume` adds the handle of another task, if and only if the client thread never finds a
later task under the hash of a cancelled one, nor under the hash of a resumed one a later task whose
handle is not in the multi handle. -/
theorem acts_on_own_task_iff (acts : List (CurlAction Hash)) :
    EveryStep step ActsOnOwnTask create acts ↔
      EveryStep step (fun s a _ => s.FindsCaller a) create acts := by
  refine everyStep_iff (I := Called) ?_ ?_ called_create
  · exact fun s a t hs ht hfinds => ⟨called_step hs ht, (hs.actsOnOwnTask_iff ht).mpr hfinds⟩
  · exact fun s a t hs ht hacts => (hs.actsOnOwnTask_iff ht).mp hacts

/-- Task 0 has finished, task 1 has been created for an equal request and started, and then `Cancel`
of task 0 cancels task 1. -/
theorem cancel_hits_later_task :
    ¬ ∀ acts : List (CurlAction ℕ), EveryStep step ActsOnOwnTask create acts := by
  intro hall
  have hacts := (hall ([.taskWithRequest 7, .resume ⟨0, 7⟩, .runPosted, .handleCurlMsg ⟨0, 7⟩ 0 200,
    .didFinishedReturns, .taskWithRequest 7, .resume ⟨1, 7⟩, .runPosted, .cancel ⟨0, 7⟩] ++
    [.runPosted])).at rfl rfl
  rcases (hacts.1 ⟨0, 7⟩ rfl).completions with ⟨new, hnew, hown⟩
  have hnew := List.append_cancel_left hnew
  subst hnew
  exact absurd (hown _ (List.mem_singleton_self _)) (by decide)

/-! ## Without equal requests -/

/-- No task has been created with the hash of the request. -/
def RequestsNew (s : CallerHistory Hash) : CurlAction Hash → Prop
  | .taskWithRequest request_hash => ∀ x ∈ s.client.tasks, x.identifier_ ≠ request_hash
  | _ => True

/-- No two tasks have the same hash. -/
def Distinct (s : CallerHistory Hash) : Prop :=
  ∀ x ∈ s.client.tasks, ∀ y ∈ s.client.tasks, x.identifier_ = y.identifier_ → x = y

lemma distinct_step (hs : s.Called) (hdistinct : s.Distinct) (ht : s.step a = some t)
    (hnew : s.RequestsNew a) : t.Distinct := by
  rcases step_eq_some ht with ⟨hclient, hrecord⟩
  generalize t.client = client at hclient hrecord
  subst hrecord
  rcases CurlClient.moves_of_step hs.wf hclient with ⟨_, hmoves⟩
  cases hmoves with
  | taskWithRequest hash =>
      intro x hx y hy hxy
      rcases CurlClient.mem_addTask_tasks.mp hx with hx | rfl
      · rcases CurlClient.mem_addTask_tasks.mp hy with hy | rfl
        · exact hdistinct x hx y hy hxy
        · exact absurd hxy (hnew x hx)
      · rcases CurlClient.mem_addTask_tasks.mp hy with hy | rfl
        · exact absurd hxy.symm (hnew y hy)
        · rfl
  | @startRequest hash caller rest _ _ =>
      rcases CurlClient.startRequest_eq { s.client with posted := rest } hash with ⟨_, heq, _⟩
      intro x hx y hy
      simp only [record, heq] at hx hy
      exact hdistinct x hx y hy
  | _ => exact hdistinct

/-- The map has no task but the caller for the hash of the caller. -/
lemma Called.findsOnly (hs : s.Called) (hdistinct : s.Distinct) (hx : x ∈ s.client.tasks) :
    s.client.FindsOnly x := by
  intro y hmap
  rcases hs.wf.mapped hmap with ⟨hid, hy⟩
  exact hdistinct y hy x hx hid

/-- The next cancellation finds its caller. -/
lemma Called.findsCaller_cancel (hs : s.Called) (hdistinct : s.Distinct) {hash : Hash}
    {caller : RequestTask Hash} {rest : List (PostedCall Hash)}
    (hposted : s.client.posted = .cancelRequest hash caller :: rest) :
    s.FindsCaller .runPosted := by
  have hcall := (hs.posted (.cancelRequest hash caller) (by simp [hposted])).2
  simp only [FindsCaller, causedByCancel, causedByResume, hposted, Option.some.injEq]
  refine ⟨?_, fun _ htask => (by cases htask)⟩
  rintro _ rfl
  exact hs.findsOnly hdistinct hcall

lemma Called.findsCaller (hs : s.Called) (hdistinct : s.Distinct) (ht : s.step a = some t) :
    s.FindsCaller a := by
  rcases step_eq_some ht with ⟨hclient, _⟩
  generalize t.client = client at hclient
  rcases CurlClient.moves_of_step hs.wf hclient with ⟨_, hmoves⟩
  cases hmoves with
  | @startRequest hash caller rest _ hposted =>
      have hcall := (hs.posted (.startRequest hash caller) (by simp [hposted])).2
      simp only [FindsCaller, causedByCancel, causedByResume, hposted, Option.some.injEq]
      refine ⟨fun _ htask => (by cases htask), ?_⟩
      rintro _ rfl y hmap
      exact Or.inl (hs.findsOnly hdistinct hcall y hmap)
  | cancelNothing _ hposted _ => exact hs.findsCaller_cancel hdistinct hposted
  | cancelRequest _ hposted _ => exact hs.findsCaller_cancel hdistinct hposted
  | @didCancelledReturns hash x hthread _ =>
      rcases hs.cancelling hash hthread with ⟨task, htask, _, hcreated⟩
      simp only [FindsCaller, htask, Option.some.injEq]
      rintro _ rfl
      exact hs.findsOnly hdistinct hcreated
  | _ => trivial

/-- If no two requests have the same hash, every call acts on its own task only. -/
theorem acts_on_own_task_of_new (acts : List (CurlAction Hash))
    (hnew : EveryStep step (fun s a _ => s.RequestsNew a) create acts) :
    EveryStep step ActsOnOwnTask create acts := by
  refine EveryStep.of_keep (I := fun s => s.Called ∧ s.Distinct) ?_ ?_ hnew
  · intro s a t hs ht hnew
    refine ⟨⟨called_step hs.1 ht, distinct_step hs.1 hs.2 ht hnew⟩, ?_⟩
    exact (hs.1.actsOnOwnTask_iff ht).mpr (hs.1.findsCaller hs.2 ht)
  · refine ⟨called_create, ?_⟩
    intro x hx
    simp [create, CurlClient.create] at hx

end CallerHistory

end FFNetwork
