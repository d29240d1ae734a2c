import FFNetwork.Lib.StepSystem
import Mathlib.Data.List.Nodup
import Mathlib.Logic.Function.Basic

/-!
# CurlClient

`source/net/curl_client.cpp` with the parts of `request_task_impl.cpp` it calls.  Users create tasks
and ask for their start and cancellation on any thread; the client thread runs what has been posted,
in order, and handles the messages of the multi handle.  A request comes in only through its hash.

A step is one section of the code between two points at which others can act.  `DidFinished` and
`DidCancelled` call back into user code, so the functions that call them are cut in two there: what
the callback does are the steps between.  A task that nobody holds any more is destroyed, and its
easy handle leaves the multi handle with it.

* `CurlClient.step` — the step function.
* `CurlClient.WellFormed` — the invariant of every run; `wellFormed_step`.  It has in it that no
  task is completed twice.
-/

namespace FFNetwork

open StepSystem

/-! ## Responses -/

/-- What libcurl says of a transfer. -/
abbrev CURLcode := UInt32

/-- The transfer has gone through. -/
def CURLE_OK : CURLcode := 0

/-- There is no connection to the server. -/
def CURLE_COULDNT_CONNECT : CURLcode := 7

/-- The time for the transfer is over. -/
def CURLE_OPERATION_TIMEDOUT : CURLcode := 28

/-- What a response says of its request. -/
inductive ResponseCode
  | Invalid
  | OK
  | InvalidHandle
  | InvalidParameter
  | RuntimeError
  | Timeout
  | UserCancel
  | ConnectToServerFailed
  | InvalidUrl
  | UnknownError
deriving DecidableEq, Repr

/-- `CurlClient::ConvertCurlCode`. -/
def convertCurlCode (code : CURLcode) : ResponseCode :=
  if code = CURLE_OK then .OK
  else if code = CURLE_COULDNT_CONNECT then .ConnectToServerFailed
  else if code = CURLE_OPERATION_TIMEDOUT then .Timeout
  else .UnknownError

/-- A `RequestTaskImpl`: the task and its easy handle, whose private data is the same hash. -/
structure RequestTask (Hash : Type) where
  /-- How many tasks were created before it. -/
  number : ℕ
  identifier_ : Hash
deriving DecidableEq, Repr

/-- A call of a completion callback, with what the response says. -/
structure Completion (Hash : Type) where
  task : RequestTask Hash
  status_code_ : Int32
  response_code_ : ResponseCode
  cancelled_ : Bool
deriving DecidableEq, Repr

/-! ## The client -/

/-- A call posted to the client thread, with the task that asked for it. -/
inductive PostedCall (Hash : Type)
  | startRequest (hash : Hash) (caller : RequestTask Hash)
  | cancelRequest (hash : Hash) (caller : RequestTask Hash)
deriving DecidableEq, Repr

/-- Where the client thread stands. -/
inductive ClientThread (Hash : Type)
  | idle
  /-- In `HandleCurlMsg`, calling `task->DidFinished` for this easy handle. -/
  | inDidFinished (task handle : RequestTask Hash)
  /-- In `CancelRequest(hash)`, calling `DidCancelled`. -/
  | inDidCancelled (hash : Hash)
  /-- A null pointer or a freed handle has been used. -/
  | crashed
deriving DecidableEq, Repr

/-- The hash whose entry the client thread erases when the callback returns. -/
def ClientThread.erases {Hash : Type} : ClientThread Hash → Option Hash
  | .inDidFinished _ handle => some handle.identifier_
  | .inDidCancelled hash => some hash
  | _ => none

/-- The steps of users, and those of the client thread. -/
inductive CurlAction (Hash : Type)
  | taskWithRequest (request_hash : Hash)
  | resume (task : RequestTask Hash)
  | cancel (task : RequestTask Hash)
  /-- The users drop their pointers to the task. -/
  | release (task : RequestTask Hash)
  /-- The client thread runs the next posted call, up to its callback if it makes one. -/
  | runPosted
  | didCancelledReturns
  /-- The client thread handles the `CURLMSG_DONE` of an easy handle, up to the callback. -/
  | handleCurlMsg (handle : RequestTask Hash) (result : CURLcode) (status_code : Int32)
  | didFinishedReturns
deriving Repr

/-- A `CurlClient`, with the calls posted to its thread, the place of that thread, the tasks with
the pointers to them, and the completions so far. -/
structure CurlClient (Hash : Type) where
  request_task_map_ : Hash → Option (RequestTask Hash)
  /-- The easy handles in the multi handle, by their tasks. -/
  curl_multi_handle_ : List (RequestTask Hash)
  posted : List (PostedCall Hash)
  thread : ClientThread Hash
  /-- The tasks created so far. -/
  tasks : List (RequestTask Hash)
  /-- The tasks that users hold pointers to. -/
  held : List (RequestTask Hash)
  resumed : List (RequestTask Hash)
  completions : List (Completion Hash)

namespace CurlClient

variable {Hash : Type} [DecidableEq Hash]

/-- `CurlClient::CurlClient`. -/
def create : CurlClient Hash := ⟨fun _ => none, [], [], .idle, [], [], [], []⟩

/-- The tasks whose completion callback has been called, in order. -/
def completed (s : CurlClient Hash) : List (RequestTask Hash) := s.completions.map Completion.task

/-- Somebody holds a pointer to the task: a user, the map, or `HandleCurlMsg` in its `task`. -/
def alive (s : CurlClient Hash) (t : RequestTask Hash) : Bool :=
  t ∈ s.held || s.request_task_map_ t.identifier_ = some t ||
    match s.thread with
    | .inDidFinished task _ => task = t
    | _ => false

/-- `curl_easy_cleanup` takes the handles of destroyed tasks out of the multi handle. -/
def collect (s : CurlClient Hash) : CurlClient Hash :=
  { s with curl_multi_handle_ := s.curl_multi_handle_.filter s.alive }

/-- The task that `TaskWithRequest` creates. -/
def nextTask (s : CurlClient Hash) (request_hash : Hash) : RequestTask Hash :=
  ⟨s.tasks.length, request_hash⟩

/-- `TaskWithRequest`, without what happens to the task it may take out of the map. -/
def addTask (s : CurlClient Hash) (request_hash : Hash) : CurlClient Hash :=
  let request_task := s.nextTask request_hash
  { s with
    request_task_map_ := Function.update s.request_task_map_ request_hash (some request_task)
    tasks := s.tasks ++ [request_task]
    held := s.held ++ [request_task] }

/-- `TaskWithRequest`.  A task that it takes out of the map is destroyed if nobody else holds it. -/
def taskWithRequest (s : CurlClient Hash) (request_hash : Hash) : CurlClient Hash :=
  (s.addTask request_hash).collect

/-- `StartRequest`, by the hash alone. -/
def startRequest (s : CurlClient Hash) (hash : Hash) : CurlClient Hash :=
  match s.request_task_map_ hash with
  | none => s
  | some request_task =>
      -- a handle that is in the multi handle is not added again
      if request_task ∈ s.curl_multi_handle_ then s
      else { s with curl_multi_handle_ := s.curl_multi_handle_ ++ [request_task] }

/-- `CancelRequest` up to the callback. -/
def cancelRequest (s : CurlClient Hash) (hash : Hash) : CurlClient Hash :=
  match s.request_task_map_ hash with
  | none => s
  | some request_task =>
      { s with
        completions := s.completions ++ [⟨request_task, 0, .UserCancel, true⟩]
        thread := .inDidCancelled hash }

/-- `curl_multi_remove_handle`, then `CleanupRequest`; the client thread is done with the task. -/
def removeAndCleanup (s : CurlClient Hash) (handle : RequestTask Hash) (hash : Hash) :
    CurlClient Hash :=
  collect { s with
    curl_multi_handle_ := s.curl_multi_handle_.erase handle
    request_task_map_ := Function.update s.request_task_map_ hash none
    thread := .idle }

/-- `CancelRequest` after the callback: `request_task` is a reference into the map, so the handle
removed is that of the task found there now. -/
def afterDidCancelled (s : CurlClient Hash) (hash : Hash) : CurlClient Hash :=
  match s.request_task_map_ hash with
  | none => { s with thread := .crashed }
  | some request_task => s.removeAndCleanup request_task hash

/-- `HandleCurlMsg` for one message, up to the callback.  The look-up goes by the hash. -/
def handleCurlMsg (s : CurlClient Hash) (handle : RequestTask Hash) (result : CURLcode)
    (status_code : Int32) : CurlClient Hash :=
  match s.request_task_map_ handle.identifier_ with
  | none => { s with thread := .crashed }
  | some task =>
      { s with
        completions := s.completions ++ [⟨task, status_code, convertCurlCode result, false⟩]
        thread := .inDidFinished task handle }

/-- `HandleCurlMsg` after the callback. -/
def afterDidFinished (s : CurlClient Hash) (handle : RequestTask Hash) : CurlClient Hash :=
  if s.alive handle then s.removeAndCleanup handle handle.identifier_
  else { s with thread := .crashed }

/-- The step function; a client that has crashed takes no step. -/
def step (s : CurlClient Hash) (a : CurlAction Hash) : Option (CurlClient Hash) :=
  if s.thread = .crashed then none
  else
    match a with
    | .taskWithRequest request_hash => some (s.taskWithRequest request_hash)
    | .resume task =>
        if task ∈ s.held then
          some { s with
            posted := s.posted ++ [.startRequest task.identifier_ task]
            resumed := s.resumed ++ [task] }
        else none
    | .cancel task =>
        if task ∈ s.held then
          some { s with posted := s.posted ++ [.cancelRequest task.identifier_ task] }
        else none
    | .release task => some (collect { s with held := s.held.filter (· ≠ task) })
    | .runPosted =>
        match s.thread, s.posted with
        | .idle, .startRequest hash _ :: rest => some ({ s with posted := rest }.startRequest hash)
        | .idle, .cancelRequest hash _ :: rest =>
            some ({ s with posted := rest }.cancelRequest hash)
        | _, _ => none
    | .didCancelledReturns =>
        match s.thread with
        | .inDidCancelled hash => some (s.afterDidCancelled hash)
        | _ => none
    | .handleCurlMsg handle result status_code =>
        if s.thread = .idle ∧ handle ∈ s.curl_multi_handle_ then
          some (s.handleCurlMsg handle result status_code)
        else none
    | .didFinishedReturns =>
        match s.thread with
        | .inDidFinished _ handle => some (s.afterDidFinished handle)
        | _ => none

/-! ## What the functions do to the map and the multi handle -/

variable {s t : CurlClient Hash} {x : RequestTask Hash} {h hash : Hash}

lemma mem_collect :
    x ∈ s.collect.curl_multi_handle_ ↔ x ∈ s.curl_multi_handle_ ∧ s.alive x = true :=
  List.mem_filter

lemma alive_iff : s.alive x = true ↔
    x ∈ s.held ∨ s.request_task_map_ x.identifier_ = some x ∨
      ∃ handle, s.thread = .inDidFinished x handle := by
  rw [alive, Bool.or_eq_true, Bool.or_eq_true, decide_eq_true_iff, decide_eq_true_iff, or_assoc]
  refine or_congr_right (or_congr_right ?_)
  cases s.thread with
  | inDidFinished task handle => simp
  | _ => simp

lemma addTask_map_self : (s.addTask h).request_task_map_ h = some (s.nextTask h) :=
  Function.update_self ..

lemma addTask_map_other (hne : h ≠ hash) :
    (s.addTask hash).request_task_map_ h = s.request_task_map_ h :=
  Function.update_of_ne hne ..

lemma mem_addTask_tasks : x ∈ (s.addTask h).tasks ↔ x ∈ s.tasks ∨ x = s.nextTask h := by
  show x ∈ s.tasks ++ [s.nextTask h] ↔ _
  rw [List.mem_append, List.mem_singleton]

lemma removeAndCleanup_map_self : (s.removeAndCleanup x h).request_task_map_ h = none :=
  Function.update_self ..

lemma removeAndCleanup_map_other (hne : h ≠ hash) :
    (s.removeAndCleanup x hash).request_task_map_ h = s.request_task_map_ h :=
  Function.update_of_ne hne ..

/-- `StartRequest` changes nothing but the multi handle. -/
lemma startRequest_eq (s : CurlClient Hash) (h : Hash) :
    ∃ handles, s.startRequest h = { s with curl_multi_handle_ := handles } ∧
      ∀ x ∈ s.curl_multi_handle_, x ∈ handles := by
  rw [startRequest]
  split
  · exact ⟨_, rfl, fun x hx => hx⟩
  · split
    · exact ⟨_, rfl, fun x hx => hx⟩
    · exact ⟨_, rfl, fun x hx => List.mem_append_left _ hx⟩

lemma mem_startRequest (hmap : s.request_task_map_ h = some x) {y : RequestTask Hash} :
    y ∈ (s.startRequest h).curl_multi_handle_ ↔ y ∈ s.curl_multi_handle_ ∨ y = x := by
  rw [startRequest, hmap]
  by_cases hmem : x ∈ s.curl_multi_handle_
  · simp only [hmem, if_true]
    exact ⟨Or.inl, fun hy => hy.elim id fun hy => hy ▸ hmem⟩
  · simp only [hmem, if_false, List.mem_append, List.mem_singleton]

/-! ## The invariant of every run -/

/-- The invariant.  `once` says that nothing is completed twice; `done` and `erasing` carry it: a
completed task that is still in the map is the one the thread is about to erase. -/
structure WellFormed (s : CurlClient Hash) : Prop where
  mapped : ∀ {h x}, s.request_task_map_ h = some x → x.identifier_ = h ∧ x ∈ s.tasks
  numbered : ∀ x ∈ s.tasks, x.number < s.tasks.length
  handles : ∀ x ∈ s.curl_multi_handle_, x ∈ s.tasks
  nodup : s.curl_multi_handle_.Nodup
  held : ∀ x ∈ s.held, x ∈ s.tasks
  resumed : ∀ x ∈ s.resumed, x ∈ s.tasks
  created : ∀ x ∈ s.completed, x ∈ s.tasks
  once : s.completed.Nodup
  done : s.thread ≠ .crashed → ∀ x ∈ s.completed,
    s.request_task_map_ x.identifier_ = some x → s.thread.erases = some x.identifier_
  erasing : ∀ h, s.thread.erases = some h → s.request_task_map_ h ≠ none

omit [DecidableEq Hash] in
lemma wellFormed_create : (create : CurlClient Hash).WellFormed where
  mapped hx := nomatch hx
  numbered _ hx := nomatch hx
  handles _ hx := nomatch hx
  nodup := List.nodup_nil
  held _ hx := nomatch hx
  resumed _ hx := nomatch hx
  created _ hx := nomatch hx
  once := List.nodup_nil
  done _ _ hx := nomatch hx
  erasing _ hh := nomatch hh

omit [DecidableEq Hash] in
/-- The next task is a new one. -/
lemma WellFormed.nextTask_notMem (wf : s.WellFormed) (h : Hash) : s.nextTask h ∉ s.tasks :=
  fun hmem => absurd (wf.numbered _ hmem) (lt_irrefl _)

lemma WellFormed.collect (wf : s.WellFormed) : s.collect.WellFormed :=
  { wf with
    handles := fun x hx => wf.handles x (mem_collect.mp hx).1
    nodup := wf.nodup.filter _ }

lemma WellFormed.addTask (wf : s.WellFormed) (hash : Hash) : (s.addTask hash).WellFormed := by
  have hold : ∀ x ∈ s.tasks, x ∈ (s.addTask hash).tasks :=
    fun x hx => mem_addTask_tasks.mpr (Or.inl hx)
  refine ⟨?_, ?_, fun x hx => hold x (wf.handles x hx), wf.nodup, ?_,
    fun x hx => hold x (wf.resumed x hx), fun x hx => hold x (wf.created x hx), wf.once, ?_, ?_⟩
  · intro h x hx
    rw [mem_addTask_tasks]
    by_cases hh : h = hash
    · subst hh
      rw [addTask_map_self] at hx
      obtain rfl := Option.some.inj hx
      exact ⟨rfl, Or.inr rfl⟩
    · rw [addTask_map_other hh] at hx
      exact ⟨(wf.mapped hx).1, Or.inl (wf.mapped hx).2⟩
  · intro x hx
    show x.number < (s.tasks ++ [s.nextTask hash]).length
    rw [List.length_append, List.length_singleton]
    rcases mem_addTask_tasks.mp hx with hx | rfl
    · exact Nat.lt_succ_of_lt (wf.numbered x hx)
    · exact Nat.lt_succ_self _
  · intro x hx
    exact mem_addTask_tasks.mpr ((List.mem_append.mp hx).imp (wf.held x) List.mem_singleton.mp)
  · intro hthread x hx hmap
    refine wf.done hthread x hx ?_
    by_cases hh : x.identifier_ = hash
    · subst hh
      rw [addTask_map_self] at hmap
      exact absurd (Option.some.inj hmap ▸ wf.created x hx) (wf.nextTask_notMem _)
    · rwa [addTask_map_other hh] at hmap
  · intro h hh
    by_cases heq : h = hash
    · rw [heq, addTask_map_self]
      exact Option.some_ne_none _
    · rw [addTask_map_other heq]
      exact wf.erasing h hh

lemma WellFormed.startRequest (wf : s.WellFormed) (hash : Hash) :
    (s.startRequest hash).WellFormed := by
  rw [CurlClient.startRequest]
  split
  · exact wf
  · next task hmap =>
      split
      · exact wf
      · next hnew =>
          refine { wf with handles := fun x hx => ?_, nodup := ?_ }
          · rcases List.mem_append.mp hx with hx | hx
            · exact wf.handles x hx
            · rw [List.mem_singleton.mp hx]
              exact (wf.mapped hmap).2
          · exact wf.nodup.append (List.nodup_singleton _) (by simpa using hnew)

omit [DecidableEq Hash] in
/-- A completion by the client thread, of the task that the map has for a hash. -/
lemma WellFormed.complete (wf : s.WellFormed) (hidle : s.thread = .idle)
    (hmap : s.request_task_map_ hash = some x) (c : Completion Hash) (hc : c.task = x)
    (thread : ClientThread Hash) (hthread : thread.erases = some hash) :
    WellFormed { s with completions := s.completions ++ [c], thread := thread } := by
  have hcompleted : (s.completions ++ [c]).map Completion.task = s.completed ++ [x] := by
    rw [List.map_append, List.map_singleton, hc, completed]
  have hnotdone : ∀ y ∈ s.completed, s.request_task_map_ y.identifier_ ≠ some y := by
    intro y hy hmap'
    have herases := wf.done (by rw [hidle]; exact nofun) y hy hmap'
    rw [hidle] at herases
    exact nomatch herases
  have hnew : x ∉ s.completed := fun hmem => hnotdone x hmem (by rwa [(wf.mapped hmap).1])
  refine { wf with
    created := fun y hy => ?_, once := ?_, done := fun _ y hy hy' => ?_,
    erasing := fun h hh => ?_ }
  · rw [completed, hcompleted] at hy
    rcases List.mem_append.mp hy with hy | hy
    · exact wf.created y hy
    · rw [List.mem_singleton.mp hy]
      exact (wf.mapped hmap).2
  · rw [completed, hcompleted]
    exact wf.once.append (List.nodup_singleton _) (by simpa using hnew)
  · rw [completed, hcompleted] at hy
    rcases List.mem_append.mp hy with hy | hy
    · exact absurd hy' (hnotdone y hy)
    · rw [List.mem_singleton.mp hy, (wf.mapped hmap).1]
      exact hthread
  · have hh : thread.erases = some h := hh
    rw [hthread] at hh
    rw [← Option.some.inj hh]
    show s.request_task_map_ hash ≠ none
    rw [hmap]
    exact Option.some_ne_none _

lemma WellFormed.removeAndCleanup (wf : s.WellFormed) (hthread : s.thread ≠ .crashed)
    (herases : s.thread.erases = some hash) (handle : RequestTask Hash) :
    (s.removeAndCleanup handle hash).WellFormed := by
  refine WellFormed.collect { wf with
    mapped := fun {h x} hx => ?_, handles := fun x hx => wf.handles x (List.mem_of_mem_erase hx),
    nodup := wf.nodup.erase _, done := fun _ x hx hmap => ?_, erasing := fun h hh => nomatch hh }
  · have hx : (s.removeAndCleanup handle hash).request_task_map_ h = some x := hx
    by_cases hh : h = hash
    · rw [hh, removeAndCleanup_map_self] at hx
      exact nomatch hx
    · rw [removeAndCleanup_map_other hh] at hx
      exact wf.mapped hx
  · have hmap : (s.removeAndCleanup handle hash).request_task_map_ x.identifier_ = some x := hmap
    by_cases hh : x.identifier_ = hash
    · rw [hh, removeAndCleanup_map_self] at hmap
      exact nomatch hmap
    · rw [removeAndCleanup_map_other hh] at hmap
      have hx' := wf.done hthread x hx hmap
      rw [herases] at hx'
      exact absurd (Option.some.inj hx').symm hh

omit [DecidableEq Hash] in
lemma WellFormed.crash (wf : s.WellFormed) : WellFormed { s with thread := .crashed } :=
  { wf with done := fun h => absurd rfl h, erasing := fun _ hh => nomatch hh }

/-! ## What a step can be -/

/-- The transitions of a well-formed client, each with what has to hold for it. -/
inductive Moves (s : CurlClient Hash) : CurlAction Hash → CurlClient Hash → Prop
  | taskWithRequest (hash : Hash) : Moves s (.taskWithRequest hash) (s.taskWithRequest hash)
  | resume {x : RequestTask Hash} (hheld : x ∈ s.held) :
      Moves s (.resume x) { s with
        posted := s.posted ++ [.startRequest x.identifier_ x]
        resumed := s.resumed ++ [x] }
  | cancel {x : RequestTask Hash} (hheld : x ∈ s.held) :
      Moves s (.cancel x) { s with posted := s.posted ++ [.cancelRequest x.identifier_ x] }
  | release (x : RequestTask Hash) :
      Moves s (.release x) (collect { s with held := s.held.filter (· ≠ x) })
  | startRequest {hash : Hash} {caller : RequestTask Hash} {rest : List (PostedCall Hash)}
      (hidle : s.thread = .idle) (hposted : s.posted = .startRequest hash caller :: rest) :
      Moves s .runPosted (CurlClient.startRequest { s with posted := rest } hash)
  | cancelNothing {hash : Hash} {caller : RequestTask Hash} {rest : List (PostedCall Hash)}
      (hidle : s.thread = .idle) (hposted : s.posted = .cancelRequest hash caller :: rest)
      (hmap : s.request_task_map_ hash = none) :
      Moves s .runPosted { s with posted := rest }
  | cancelRequest {hash : Hash} {caller x : RequestTask Hash} {rest : List (PostedCall Hash)}
      (hidle : s.thread = .idle) (hposted : s.posted = .cancelRequest hash caller :: rest)
      (hmap : s.request_task_map_ hash = some x) :
      Moves s .runPosted { s with
        posted := rest
        completions := s.completions ++ [⟨x, 0, .UserCancel, true⟩]
        thread := .inDidCancelled hash }
  | didCancelledReturns {hash : Hash} {x : RequestTask Hash}
      (hthread : s.thread = .inDidCancelled hash) (hmap : s.request_task_map_ hash = some x) :
      Moves s .didCancelledReturns (s.removeAndCleanup x hash)
  | handleCurlMsg {handle x : RequestTask Hash} {result : CURLcode} {status_code : Int32}
      (hidle : s.thread = .idle) (hhandle : handle ∈ s.curl_multi_handle_)
      (hmap : s.request_task_map_ handle.identifier_ = some x) :
      Moves s (.handleCurlMsg handle result status_code) { s with
        completions := s.completions ++ [⟨x, status_code, convertCurlCode result, false⟩]
        thread := .inDidFinished x handle }
  | nullTask {handle : RequestTask Hash} {result : CURLcode} {status_code : Int32}
      (hidle : s.thread = .idle) (hhandle : handle ∈ s.curl_multi_handle_)
      (hmap : s.request_task_map_ handle.identifier_ = none) :
      Moves s (.handleCurlMsg handle result status_code) { s with thread := .crashed }
  | didFinishedReturns {x handle : RequestTask Hash}
      (hthread : s.thread = .inDidFinished x handle) (halive : s.alive handle = true) :
      Moves s .didFinishedReturns (s.removeAndCleanup handle handle.identifier_)
  | freedHandle {x handle : RequestTask Hash}
      (hthread : s.thread = .inDidFinished x handle) (hfreed : s.alive handle = false) :
      Moves s .didFinishedReturns { s with thread := .crashed }

/-- **What one step does.** -/
theorem moves_of_step (wf : s.WellFormed) {a : CurlAction Hash} (ht : s.step a = some t) :
    s.thread ≠ .crashed ∧ s.Moves a t := by
  unfold step at ht
  split at ht
  · cases ht
  · next hthread =>
      refine ⟨hthread, ?_⟩
      cases a with
      | taskWithRequest hash =>
          obtain rfl := Option.some.inj ht
          exact .taskWithRequest hash
      | resume x =>
          simp only at ht
          split at ht
          · next hheld =>
              obtain rfl := Option.some.inj ht
              exact .resume hheld
          · cases ht
      | cancel x =>
          simp only at ht
          split at ht
          · next hheld =>
              obtain rfl := Option.some.inj ht
              exact .cancel hheld
          · cases ht
      | release x =>
          obtain rfl := Option.some.inj ht
          exact .release x
      | runPosted =>
          simp only at ht
          split at ht
          · next hash caller rest hidle hposted =>
              obtain rfl := Option.some.inj ht
              exact .startRequest hidle hposted
          · next hash caller rest hidle hposted =>
              obtain rfl := Option.some.inj ht
              rw [CurlClient.cancelRequest]
              split
              · next hmap => exact .cancelNothing hidle hposted hmap
              · next x hmap => exact .cancelRequest hidle hposted hmap
          · cases ht
      | didCancelledReturns =>
          simp only at ht
          split at ht
          · next hash hcancelled =>
              obtain rfl := Option.some.inj ht
              have hsome := wf.erasing hash (by rw [hcancelled]; rfl)
              obtain ⟨x, hmap⟩ := Option.ne_none_iff_exists'.mp hsome
              rw [afterDidCancelled, hmap]
              exact .didCancelledReturns hcancelled hmap
          · cases ht
      | handleCurlMsg handle result status_code =>
          simp only at ht
          split at ht
          · next hcond =>
              obtain rfl := Option.some.inj ht
              rw [CurlClient.handleCurlMsg]
              split
              · next hmap => exact .nullTask hcond.1 hcond.2 hmap
              · next x hmap => exact .handleCurlMsg hcond.1 hcond.2 hmap
          · cases ht
      | didFinishedReturns =>
          simp only at ht
          split at ht
          · next x handle hfinished =>
              obtain rfl := Option.some.inj ht
              rw [afterDidFinished]
              split
              · next halive => exact .didFinishedReturns hfinished halive
              · next hfreed => exact .freedHandle hfinished (Bool.eq_false_iff.mpr hfreed)
          · cases ht

theorem wellFormed_step (wf : s.WellFormed) {a : CurlAction Hash} (ht : s.step a = some t) :
    t.WellFormed := by
  obtain ⟨hthread, hmoves⟩ := moves_of_step wf ht
  cases hmoves with
  | taskWithRequest hash => exact (wf.addTask hash).collect
  | resume hheld =>
      refine { wf with resumed := fun x hx => ?_ }
      rcases List.mem_append.mp hx with hx | hx
      · exact wf.resumed x hx
      · rw [List.mem_singleton.mp hx]
        exact wf.held _ hheld
  | cancel hheld => exact { wf with }
  | release x =>
      exact WellFormed.collect { wf with held := fun y hy => wf.held y (List.mem_of_mem_filter hy) }
  | @startRequest hash caller rest hidle hposted =>
      exact WellFormed.startRequest (s := { s with posted := rest }) { wf with } hash
  | cancelNothing hidle hposted hmap => exact { wf with }
  | @cancelRequest hash caller x rest hidle hposted hmap =>
      exact { wf.complete hidle hmap ⟨x, 0, .UserCancel, true⟩ rfl (.inDidCancelled hash) rfl with }
  | didCancelledReturns hcancelled hmap =>
      exact wf.removeAndCleanup hthread (by rw [hcancelled]; rfl) _
  | handleCurlMsg hidle hhandle hmap => exact wf.complete hidle hmap _ rfl _ rfl
  | nullTask hidle hhandle hmap => exact wf.crash
  | didFinishedReturns hfinished halive =>
      exact wf.removeAndCleanup hthread (by rw [hfinished]; rfl) _
  | freedHandle hfinished hfreed => exact wf.crash

theorem wellFormed_run {acts : List (CurlAction Hash)} (wf : s.WellFormed)
    (hrun : run step s acts = some t) : t.WellFormed :=
  run_invariant (I := WellFormed) (fun _ _ _ wf ht => wellFormed_step wf ht) wf hrun

end CurlClient

end FFNetwork
