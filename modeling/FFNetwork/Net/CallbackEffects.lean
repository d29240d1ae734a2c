import FFNetwork.Net.OwnTask

/-!
# A completion and its callback

`HandleCurlMsg` and `CancelRequest` complete a request in three parts: they call `DidFinished` or
`DidCancelled`, the callback runs, and then they take the handle out of the multi handle and erase
the entry of the map under the hash.  The callback is user code, which may ask for requests of its
own, and other threads go on as well.

* `CompletingCall.perform` — the call as a whole, for any behaviour of the callback.
* `RemovesOnly` — what it may do to the map and the multi handle, from its beginning to its end.
* `Undisturbed` — a condition on the client when the call begins and on what the callback does.
* **`removesOnly_iff`** — the call removes its own request and nothing else exactly under it.
-/

namespace FFNetwork

open StepSystem

/-- A call of the client thread that completes a request. -/
inductive CompletingCall (Hash : Type)
  | handleCurlMsg (handle : RequestTask Hash) (result : CURLcode) (status_code : Int32)
  | cancelRequest (hash : Hash) (caller : RequestTask Hash)

namespace CurlAction

variable {Hash : Type} {a : CurlAction Hash} {h : Hash}

/-- What user code can do, in the callback or on another thread. -/
def byUser : CurlAction Hash → Bool
  | .taskWithRequest _ | .resume _ | .cancel _ | .release _ => true
  | _ => false

/-- The hash of the request that the action asks for. -/
def requests : CurlAction Hash → Option Hash
  | .taskWithRequest request_hash => some request_hash
  | _ => none

lemma requests_eq_some : a.requests = some h ↔ a = .taskWithRequest h := by
  cases a <;> simp [requests]

end CurlAction

namespace CurlClient

variable {Hash : Type} [DecidableEq Hash] {s t u : CurlClient Hash} {x task : RequestTask Hash}
  {hash : Hash} {a : CurlAction Hash} {callback : List (CurlAction Hash)}

/-! ## What the callback can do -/

/-- The hashes of the requests that the callback asks for. -/
def requested (callback : List (CurlAction Hash)) : List Hash :=
  callback.filterMap CurlAction.requests

omit [DecidableEq Hash] in
lemma mem_requested {h : Hash} : h ∈ requested callback ↔ .taskWithRequest h ∈ callback := by
  simp [requested, List.mem_filterMap, CurlAction.requests_eq_some]

/-- From the beginning of the callback to its end somebody has a pointer to the task: a user who
does not drop it, or the map, in which no request of the callback replaces it. -/
def KeptThrough (s : CurlClient Hash) (callback : List (CurlAction Hash)) (x : RequestTask Hash) :
    Prop :=
  x ∈ s.held ∧ .release x ∉ callback ∨
    s.request_task_map_ x.identifier_ = some x ∧ x.identifier_ ∉ requested callback

/-- What a step of user code does.  Only a request changes an entry of the map, and gives it a task
that is new; a handle that leaves the multi handle is that of a task nobody holds. -/
structure UserStep (s : CurlClient Hash) (a : CurlAction Hash) (t : CurlClient Hash) : Prop where
  thread : t.thread = s.thread
  tasks : ∀ x ∈ s.tasks, x ∈ t.tasks
  added : ∀ x ∈ t.tasks, x ∈ s.tasks ∨ ∃ h, a = .taskWithRequest h ∧ x = s.nextTask h
  map : ∀ h, (a = .taskWithRequest h ∧ t.request_task_map_ h = some (s.nextTask h)) ∨
    (a ≠ .taskWithRequest h ∧ t.request_task_map_ h = s.request_task_map_ h)
  held : ∀ x ∈ s.tasks, (x ∈ t.held ↔ x ∈ s.held ∧ a ≠ .release x)
  handles : ∀ x ∈ s.curl_multi_handle_, t.alive x = true → x ∈ t.curl_multi_handle_

lemma userStep_of_step (wf : s.WellFormed) (ha : a.byUser = true) (ht : s.step a = some t) :
    s.UserStep a t := by
  obtain ⟨_, hmoves⟩ := moves_of_step wf ht
  cases hmoves with
  | taskWithRequest hash =>
      refine ⟨rfl, fun x hx => List.mem_append_left _ hx, fun x hx => ?_, fun h => ?_,
        fun x hx => ?_, fun x hx halive => mem_collect.mpr ⟨hx, halive⟩⟩
      · exact (mem_addTask_tasks.mp hx).imp_right fun heq => ⟨hash, rfl, heq⟩
      · by_cases hh : hash = h
        · subst hh
          exact Or.inl ⟨rfl, addTask_map_self⟩
        · exact Or.inr ⟨by simpa using hh, addTask_map_other (Ne.symm hh)⟩
      · have hne : x ≠ s.nextTask hash := fun heq => wf.nextTask_notMem hash (heq ▸ hx)
        show x ∈ s.held ++ [s.nextTask hash] ↔ _
        simp [hne]
  | resume _ =>
      exact ⟨rfl, fun _ hx => hx, fun _ hx => Or.inl hx, fun h => Or.inr ⟨by simp, rfl⟩,
        fun x _ => by simp, fun _ hx _ => hx⟩
  | cancel _ =>
      exact ⟨rfl, fun _ hx => hx, fun _ hx => Or.inl hx, fun h => Or.inr ⟨by simp, rfl⟩,
        fun x _ => by simp, fun _ hx _ => hx⟩
  | release y =>
      refine ⟨rfl, fun _ hx => hx, fun _ hx => Or.inl hx, fun h => Or.inr ⟨by simp, rfl⟩,
        fun x _ => ?_, fun x hx halive => mem_collect.mpr ⟨hx, halive⟩⟩
      show x ∈ s.held.filter (· ≠ y) ↔ _
      simp [eq_comm (a := y)]
  | _ => simp [CurlAction.byUser] at ha

/-- What a callback leaves behind. -/
structure AfterCallback (s t : CurlClient Hash) (callback : List (CurlAction Hash)) : Prop where
  wf : t.WellFormed
  alive : t.HandlesAlive
  thread : t.thread = s.thread
  tasks : ∀ x ∈ s.tasks, x ∈ t.tasks
  /-- Without a request for the hash its entry is the one from before, -/
  same : ∀ h ∉ requested callback, t.request_task_map_ h = s.request_task_map_ h
  /-- and with one it is a task that was not there before. -/
  fresh : ∀ h ∈ requested callback, ∃ x, t.request_task_map_ h = some x ∧ x ∉ s.tasks
  held : ∀ x ∈ s.tasks, (x ∈ t.held ↔ x ∈ s.held ∧ .release x ∉ callback)
  handles : ∀ x ∈ s.curl_multi_handle_, t.alive x = true → x ∈ t.curl_multi_handle_
  /-- The map has all the new tasks, unless one of them has replaced another. -/
  added : (∀ x ∈ t.tasks, x ∉ s.tasks → t.request_task_map_ x.identifier_ = some x) ↔
    (requested callback).Nodup

/-- What the map has for a hash when the callback returns. -/
lemma AfterCallback.entry_iff (h : s.AfterCallback t callback) (hash : Hash)
    (hcreated : task ∈ s.tasks) :
    t.request_task_map_ hash = some task ↔
      hash ∉ requested callback ∧ s.request_task_map_ hash = some task := by
  by_cases hasked : hash ∈ requested callback
  · obtain ⟨y, hy, hnew⟩ := h.fresh hash hasked
    simp only [hasked, not_true_eq_false, false_and, iff_false, hy, Option.some.injEq]
    rintro rfl
    exact hnew hcreated
  · simp [hasked, h.same hash hasked]

/-- Who has a pointer to the task when the callback returns. -/
lemma AfterCallback.kept_iff (h : s.AfterCallback t callback) (hcreated : x ∈ s.tasks) :
    x ∈ t.held ∨ t.request_task_map_ x.identifier_ = some x ↔ s.KeptThrough callback x := by
  rw [KeptThrough, h.held x hcreated, h.entry_iff _ hcreated, and_comm (a := _ ∉ requested _)]

/-- Nobody gets a pointer to an old task that had none to it before. -/
lemma AfterCallback.alive_before (h : s.AfterCallback t callback) (hcreated : x ∈ s.tasks)
    (halive : t.alive x = true) : s.alive x = true := by
  rw [alive_iff, ← or_assoc, h.kept_iff hcreated, h.thread] at halive
  rw [alive_iff, ← or_assoc]
  exact halive.imp_left fun hkept => hkept.imp And.left And.left

/-- The task of a first request stays in the map if the callback does not ask for the hash again. -/
lemma AfterCallback.added_cons (wf : s.WellFormed) (wf' : u.WellFormed) (hfirst : s.UserStep a u)
    (hrest : u.AfterCallback t callback) :
    (∀ x ∈ t.tasks, x ∉ s.tasks → t.request_task_map_ x.identifier_ = some x) ↔
      (requested (a :: callback)).Nodup := by
  cases ha : a.requests with
  | none =>
      rw [requested, List.filterMap_cons_none ha, ← requested, ← hrest.added]
      refine forall₂_congr fun x _ => imp_congr_left (not_congr ⟨hfirst.tasks x, fun hx => ?_⟩)
      refine (hfirst.added x hx).resolve_right ?_
      rintro ⟨h, rfl, _⟩
      cases ha
  | some h =>
      have hasked := CurlAction.requests_eq_some.mp ha
      have hentry := ((hfirst.map h).resolve_right fun hne => hne.1 hasked).2
      have hcreated : s.nextTask h ∈ u.tasks := (wf'.mapped hentry).2
      have hkept := hrest.entry_iff h hcreated
      rw [requested, List.filterMap_cons_some ha, List.nodup_cons, ← requested, ← hrest.added]
      constructor
      · intro hall
        have hmapped := hall _ (hrest.tasks _ hcreated) (wf.nextTask_notMem h)
        exact ⟨(hkept.mp hmapped).1, fun x hx hnew => hall x hx fun hold =>
          hnew (hfirst.tasks x hold)⟩
      · rintro ⟨hlater, hall⟩ x hx hnew
        by_cases hxu : x ∈ u.tasks
        · obtain ⟨h', hasked', rfl⟩ := (hfirst.added x hxu).resolve_left hnew
          obtain rfl := CurlAction.taskWithRequest.inj (hasked.symm.trans hasked')
          exact hkept.mpr ⟨hlater, hentry⟩
        · exact hall x hx hxu

theorem afterCallback_of_run (wf : s.WellFormed) (halive : s.HandlesAlive)
    (huser : ∀ a ∈ callback, a.byUser = true) (hrun : run step s callback = some t) :
    s.AfterCallback t callback := by
  induction callback generalizing s with
  | nil =>
      rw [run_nil, Option.some.injEq] at hrun
      subst hrun
      exact ⟨wf, halive, rfl, fun _ hx => hx, fun _ _ => rfl, by simp [requested],
        fun _ _ => by simp, fun _ hx _ => hx,
        by simpa [requested] using fun x hx hnew => absurd hx hnew⟩
  | cons a callback ih =>
      obtain ⟨v, hv, hrun⟩ := run_cons_eq_some.mp hrun
      have wf' := wellFormed_step wf hv
      have hfirst := userStep_of_step wf (huser a (by simp)) hv
      have hrest := ih wf' (handlesAlive_step wf halive hv) (fun b hb => huser b (by simp [hb]))
        hrun
      refine ⟨hrest.wf, hrest.alive, hrest.thread.trans hfirst.thread,
        fun x hx => hrest.tasks x (hfirst.tasks x hx), fun h hnot => ?_, fun h hmem => ?_,
        fun x hx => ?_, fun x hx halive => ?_, hrest.added_cons wf wf' hfirst⟩
      · rw [mem_requested, List.mem_cons, not_or, ← mem_requested] at hnot
        rw [hrest.same h hnot.2]
        exact ((hfirst.map h).resolve_left fun hh => hnot.1 hh.1.symm).2
      · by_cases hlater : h ∈ requested callback
        · obtain ⟨x, hx, hnew⟩ := hrest.fresh h hlater
          exact ⟨x, hx, fun hold => hnew (hfirst.tasks x hold)⟩
        · rw [mem_requested, List.mem_cons, ← mem_requested] at hmem
          have ha := hmem.resolve_right hlater
          have hentry := ((hfirst.map h).resolve_right fun hh => hh.1 ha.symm).2
          exact ⟨_, (hrest.same h hlater).trans hentry, wf.nextTask_notMem h⟩
      · rw [hrest.held x (hfirst.tasks x hx), hfirst.held x hx, List.mem_cons, not_or, and_assoc,
          ne_comm]
      · have hcreated := hfirst.tasks x (wf.handles x hx)
        exact hrest.handles x (hfirst.handles x hx (hrest.alive_before hcreated halive)) halive

end CurlClient

/-! ## The call as a whole -/

namespace CompletingCall

variable {Hash : Type} [DecidableEq Hash]

/-- The hash that the entry is erased under. -/
def hash : CompletingCall Hash → Hash
  | .handleCurlMsg handle _ _ => handle.identifier_
  | .cancelRequest hash _ => hash

/-- The request that is finished or cancelled: that of the handle, or the one the map has. -/
def task (call : CompletingCall Hash) (s : CurlClient Hash) : Option (RequestTask Hash) :=
  match call with
  | .handleCurlMsg handle _ _ => some handle
  | .cancelRequest hash _ => s.request_task_map_ hash

/-- The call up to the callback. -/
def enter (call : CompletingCall Hash) (s : CurlClient Hash) : Option (CurlClient Hash) :=
  match call with
  | .handleCurlMsg handle result status_code =>
      s.step (.handleCurlMsg handle result status_code)
  | .cancelRequest hash caller =>
      if s.posted.head? = some (.cancelRequest hash caller) then s.step .runPosted else none

/-- The step that ends it. -/
def returns : CompletingCall Hash → CurlAction Hash
  | .handleCurlMsg _ _ _ => .didFinishedReturns
  | .cancelRequest _ _ => .didCancelledReturns

/-- The call with its callback.  If the look-up has found no task, `DidFinished` is called on a null
pointer and there is no callback. -/
def perform (call : CompletingCall Hash) (s : CurlClient Hash)
    (callback : List (CurlAction Hash)) : Option (CurlClient Hash) :=
  (call.enter s).bind fun entered =>
    if entered.thread = .crashed then some entered
    else (StepSystem.run CurlClient.step entered callback).bind fun returned =>
      returned.step call.returns

/-- The parts of a call: it ends at once with a null pointer, or goes through the callback. -/
lemma perform_eq_some {call : CompletingCall Hash} {s done : CurlClient Hash}
    {callback : List (CurlAction Hash)} (h : call.perform s callback = some done) :
    ∃ entered, call.enter s = some entered ∧
      (done.thread = .crashed ∧ entered.thread = .crashed ∨
        ∃ returned, entered.thread ≠ .crashed ∧
          StepSystem.run CurlClient.step entered callback = some returned ∧
          returned.step call.returns = some done) := by
  obtain ⟨entered, henter, h⟩ := Option.bind_eq_some_iff.mp h
  refine ⟨entered, henter, ?_⟩
  by_cases hcrashed : entered.thread = .crashed
  · rw [if_pos hcrashed, Option.some.injEq] at h
    rw [← h]
    exact Or.inl ⟨hcrashed, hcrashed⟩
  · rw [if_neg hcrashed] at h
    obtain ⟨returned, hcallback, hdone⟩ := Option.bind_eq_some_iff.mp h
    exact Or.inr ⟨returned, hcrashed, hcallback, hdone⟩

end CompletingCall

namespace CurlClient

variable {Hash : Type} [DecidableEq Hash] {s t done : CurlClient Hash} {x task : RequestTask Hash}
  {hash : Hash} {call : CompletingCall Hash} {callback : List (CurlAction Hash)}

/-- Between the beginning of the call and its end the task loses its entry and its handle, and no
other task loses its handle.  Every task that has been added meanwhile is in the map, and an entry
of another task is gone only where one of these has replaced it. -/
structure RemovesOnly (s done : CurlClient Hash) (task : RequestTask Hash) : Prop where
  through : done.thread ≠ .crashed
  entry : ∀ h, done.request_task_map_ h ≠ some task
  handle : task ∉ done.curl_multi_handle_
  added : ∀ x ∈ done.tasks, x ∉ s.tasks → done.request_task_map_ x.identifier_ = some x
  entries : ∀ h x, s.request_task_map_ h = some x → x ≠ task →
    done.request_task_map_ h = some x ∨ ∃ y ∉ s.tasks, done.request_task_map_ h = some y
  handles : ∀ x ∈ s.curl_multi_handle_, x ≠ task → x ∈ done.curl_multi_handle_

/-- The map has the request's own task for the hash.  The callback asks for other requests only,
with pairwise different hashes, and leaves every other handle somebody with a pointer to its
task. -/
structure Undisturbed (s : CurlClient Hash) (hash : Hash) (task : RequestTask Hash)
    (callback : List (CurlAction Hash)) : Prop where
  own : s.request_task_map_ hash = some task
  others : hash ∉ requested callback
  distinct : (requested callback).Nodup
  kept : ∀ x ∈ s.curl_multi_handle_, x ≠ task → s.KeptThrough callback x

/-- What the clean-up leaves in the multi handle, if the map has the task. -/
lemma mem_removeAndCleanup {y : RequestTask Hash} (hmap : s.request_task_map_ hash = some x)
    (hne : y ≠ x) :
    y ∈ (s.removeAndCleanup x hash).curl_multi_handle_ ↔ y ∈ s.curl_multi_handle_ ∧
      (y ∈ s.held ∨ s.request_task_map_ y.identifier_ = some y) := by
  refine mem_collect.trans (and_congr (List.mem_erase_of_ne hne) (alive_iff.trans ?_))
  simp only [reduceCtorEq, exists_false, or_false]
  refine or_congr_right ?_
  by_cases hh : y.identifier_ = hash
  · simp [hh, hmap, Ne.symm hne]
  · rw [Function.update_of_ne hh]

/-- The end of a call that has found its own task. -/
lemma removesOnly_removeAndCleanup_iff (wf : s.WellFormed) (hafter : s.AfterCallback t callback)
    (hmap : s.request_task_map_ hash = some task) (hothers : hash ∉ requested callback) :
    s.RemovesOnly (t.removeAndCleanup task hash) task ↔ s.Undisturbed hash task callback := by
  obtain ⟨hid, hcreated⟩ := wf.mapped hmap
  have hreturned : t.request_task_map_ hash = some task :=
    (hafter.entry_iff hash hcreated).mpr ⟨hothers, hmap⟩
  have hkeeps : ∀ {h x}, x ≠ task → ((t.removeAndCleanup task hash).request_task_map_ h = some x ↔
      t.request_task_map_ h = some x) := by
    intro h x hne
    by_cases hh : h = hash
    · rw [hh, removeAndCleanup_map_self, hreturned]
      simp [hne.symm]
    · rw [removeAndCleanup_map_other hh]
  have hnew : ∀ {x}, x ∉ s.tasks → x ≠ task := fun hx heq => hx (heq ▸ hcreated)
  constructor
  · intro honly
    refine ⟨hmap, hothers, hafter.added.mp fun x hx hx' => ?_, fun x hx hne => ?_⟩
    · exact (hkeeps (hnew hx')).mp (honly.added x hx hx')
    · have hstays := (mem_removeAndCleanup hreturned hne).mp (honly.handles x hx hne)
      exact (hafter.kept_iff (wf.handles x hx)).mp hstays.2
  · intro hundisturbed
    refine ⟨by simp [removeAndCleanup, collect], fun h hx => ?_, fun hx => ?_, fun x hx hx' => ?_,
      fun h x hx hne => ?_, fun x hx hne => ?_⟩
    · by_cases hh : h = hash
      · rw [hh, removeAndCleanup_map_self] at hx
        cases hx
      · rw [removeAndCleanup_map_other hh] at hx
        exact hh ((hafter.wf.mapped hx).1.symm.trans hid)
    · exact hafter.wf.nodup.not_mem_erase (mem_collect.mp hx).1
    · exact (hkeeps (hnew hx')).mpr (hafter.added.mpr hundisturbed.distinct x hx hx')
    · by_cases hasked : h ∈ requested callback
      · obtain ⟨y, hy, hy'⟩ := hafter.fresh h hasked
        exact Or.inr ⟨y, hy', (hkeeps (hnew hy')).mpr hy⟩
      · exact Or.inl ((hkeeps hne).mpr ((hafter.same h hasked).trans hx))
    · have hkept := (hafter.kept_iff (wf.handles x hx)).mpr (hundisturbed.kept x hx hne)
      have halive : t.alive x = true := alive_iff.mpr (or_assoc.mp (Or.inl hkept))
      exact (mem_removeAndCleanup hreturned hne).mpr ⟨hafter.handles x hx halive, hkept⟩

/-- The clean-up erases whatever the map has for the hash, which must be the task from before. -/
lemma RemovesOnly.found {y : RequestTask Hash} (hafter : s.AfterCallback t callback)
    (honly : s.RemovesOnly (t.removeAndCleanup x hash) task)
    (hmap : t.request_task_map_ hash = some y) :
    hash ∉ requested callback ∧ s.request_task_map_ hash = some task := by
  obtain ⟨hid, hcreated⟩ := hafter.wf.mapped hmap
  have herased : (t.removeAndCleanup x hash).request_task_map_ hash = none :=
    removeAndCleanup_map_self
  by_cases hy : y ∈ s.tasks
  · obtain ⟨hothers, hbefore⟩ := (hafter.entry_iff hash hy).mp hmap
    by_cases hne : y = task
    · exact ⟨hothers, hne ▸ hbefore⟩
    · simpa [herased] using honly.entries hash y hbefore hne
  · have hkept := honly.added y hcreated hy
    rw [hid, herased] at hkept
    cases hkept

/-- The end of a call that erases an entry and removes the handle of some task, which is the
request's own if the map has that. -/
lemma removesOnly_erased_iff {y : RequestTask Hash} (wf : s.WellFormed)
    (hafter : s.AfterCallback t callback) (hmap : t.request_task_map_ hash = some y)
    (hremoved : hash ∉ requested callback → s.request_task_map_ hash = some task → x = task) :
    s.RemovesOnly (t.removeAndCleanup x hash) task ↔ s.Undisturbed hash task callback := by
  constructor
  · intro honly
    obtain ⟨hothers, hown⟩ := honly.found hafter hmap
    obtain rfl := hremoved hothers hown
    exact (removesOnly_removeAndCleanup_iff wf hafter hown hothers).mp honly
  · intro h
    obtain rfl := hremoved h.others h.own
    exact (removesOnly_removeAndCleanup_iff wf hafter h.own h.others).mpr h

/-- The end of `HandleCurlMsg`.  The thread holds the task it has found, which is alive if it is
the handle's own. -/
lemma removesOnly_finished_iff {handle : RequestTask Hash} (wf : s.WellFormed)
    (hafter : s.AfterCallback t callback) (hthread : s.thread = .inDidFinished x handle)
    (hfound : s.request_task_map_ handle.identifier_ = some x)
    (hdone : t.step .didFinishedReturns = some done) :
    s.RemovesOnly done handle ↔ s.Undisturbed handle.identifier_ handle callback := by
  have hreturned := hafter.thread.trans hthread
  obtain ⟨_, hmoves⟩ := moves_of_step hafter.wf hdone
  cases hmoves with
  | didFinishedReturns hfinished _ =>
      rw [hreturned] at hfinished
      cases hfinished
      obtain ⟨y, hy⟩ := Option.ne_none_iff_exists'.mp
        (hafter.wf.erasing handle.identifier_ (by simp [hreturned, ClientThread.erases]))
      exact removesOnly_erased_iff wf hafter hy fun _ _ => rfl
  | freedHandle hfinished hfreed =>
      refine ⟨fun honly => absurd rfl honly.through, fun h => ?_⟩
      rw [hreturned] at hfinished
      cases hfinished
      obtain rfl := Option.some.inj (hfound.symm.trans h.own)
      rw [alive_iff.mpr (Or.inr (Or.inr ⟨_, hreturned⟩))] at hfreed
      cases hfreed

/-- The end of `CancelRequest`, which goes by the map alone. -/
lemma removesOnly_cancelled_iff (wf : s.WellFormed) (hafter : s.AfterCallback t callback)
    (hthread : s.thread = .inDidCancelled hash) (hdone : t.step .didCancelledReturns = some done) :
    s.RemovesOnly done task ↔ s.Undisturbed hash task callback := by
  have hreturned := hafter.thread.trans hthread
  obtain ⟨_, hmoves⟩ := moves_of_step hafter.wf hdone
  cases hmoves with
  | didCancelledReturns hcancelled hmap =>
      rw [hreturned] at hcancelled
      cases hcancelled
      refine removesOnly_erased_iff wf hafter hmap fun hothers hown => ?_
      have htask := (hafter.entry_iff hash (wf.mapped hown).2).mpr ⟨hothers, hown⟩
      exact Option.some.inj (hmap.symm.trans htask)

/-! ### Up to the callback nothing happens to the two containers, the tasks and their pointers -/

section Entered

variable {posted : List (PostedCall Hash)} {completions : List (Completion Hash)}
  {thread : ClientThread Hash}

omit [DecidableEq Hash] in
lemma removesOnly_entered_iff :
    RemovesOnly { s with posted, completions, thread } done task ↔ s.RemovesOnly done task :=
  ⟨fun h => { h with }, fun h => { h with }⟩

omit [DecidableEq Hash] in
lemma undisturbed_entered_iff :
    Undisturbed { s with posted, completions, thread } hash task callback ↔
      s.Undisturbed hash task callback :=
  ⟨fun h => { h with }, fun h => { h with }⟩

end Entered

lemma handlesAlive_run {acts : List (CurlAction Hash)} (hrun : run step create acts = some s) :
    s.WellFormed ∧ s.HandlesAlive := by
  refine run_invariant (I := fun s => s.WellFormed ∧ s.HandlesAlive) ?_ ?_ hrun
  · exact fun s a t hs ht => ⟨wellFormed_step hs.1 ht, handlesAlive_step hs.1 hs.2 ht⟩
  · exact ⟨wellFormed_create, fun _ x hx => by simp [create] at hx⟩

/-- `HandleCurlMsg` as a whole. -/
lemma removesOnly_handleCurlMsg_iff {handle : RequestTask Hash} {result : CURLcode}
    {status_code : Int32} (wf : s.WellFormed) (halive : s.HandlesAlive)
    (huser : ∀ a ∈ callback, a.byUser = true)
    (hcall : (CompletingCall.handleCurlMsg handle result status_code).perform s callback =
      some done) :
    s.RemovesOnly done handle ↔ s.Undisturbed handle.identifier_ handle callback := by
  obtain ⟨entered, henter, hcall⟩ := CompletingCall.perform_eq_some hcall
  have hstep : s.step (.handleCurlMsg handle result status_code) = some entered := henter
  have wf' := wellFormed_step wf hstep
  have halive' := handlesAlive_step wf halive hstep
  obtain ⟨_, hmoves⟩ := moves_of_step wf hstep
  cases hmoves with
  | handleCurlMsg hidle hhandle hmap =>
      rcases hcall with ⟨_, hcrashed⟩ | ⟨t, _, hcallback, hdone⟩
      · cases hcrashed
      · have hafter := afterCallback_of_run wf' halive' huser hcallback
        exact removesOnly_entered_iff.symm.trans
          ((removesOnly_finished_iff wf' hafter rfl hmap hdone).trans undisturbed_entered_iff)
  | nullTask hidle hhandle hmap =>
      rcases hcall with ⟨hcrashed, _⟩ | ⟨t, hthrough, _⟩
      · refine ⟨fun honly => absurd hcrashed honly.through, fun h => ?_⟩
        rw [h.own] at hmap
        cases hmap
      · exact absurd rfl hthrough

/-- `CancelRequest` as a whole, on a request that the map has. -/
lemma removesOnly_cancelRequest_iff {caller : RequestTask Hash} (wf : s.WellFormed)
    (halive : s.HandlesAlive) (huser : ∀ a ∈ callback, a.byUser = true)
    (hfound : s.request_task_map_ hash = some task)
    (hcall : (CompletingCall.cancelRequest hash caller).perform s callback = some done) :
    s.RemovesOnly done task ↔ s.Undisturbed hash task callback := by
  obtain ⟨entered, henter, hcall⟩ := CompletingCall.perform_eq_some hcall
  simp only [CompletingCall.enter] at henter
  split at henter
  case isFalse => cases henter
  case isTrue hposted =>
    have wf' := wellFormed_step wf henter
    have halive' := handlesAlive_step wf halive henter
    obtain ⟨_, hmoves⟩ := moves_of_step wf henter
    cases hmoves with
    | startRequest hidle hhead => simp [hhead] at hposted
    | cancelNothing hidle hhead hnone =>
        simp only [hhead, List.head?_cons, Option.some.injEq, PostedCall.cancelRequest.injEq]
          at hposted
        rw [hposted.1, hfound] at hnone
        cases hnone
    | cancelRequest hidle hhead _ =>
        simp only [hhead, List.head?_cons, Option.some.injEq, PostedCall.cancelRequest.injEq]
          at hposted
        rcases hcall with ⟨_, hcrashed⟩ | ⟨t, _, hcallback, hdone⟩
        · cases hcrashed
        · have hafter := afterCallback_of_run wf' halive' huser hcallback
          exact removesOnly_entered_iff.symm.trans ((removesOnly_cancelled_iff wf' hafter
            (by rw [hposted.1]) hdone).trans undisturbed_entered_iff)

/-- **A completion with its callback.**  In every state that a run reaches, and for every behaviour
of the callback, a call that finishes or cancels a request removes that request and nothing else,
and keeps what the callback adds, if and only if the map has the request's own task, and the
callback asks for other requests only, with pairwise different hashes, and leaves no other handle
without a pointer to its task. -/
theorem removesOnly_iff {acts : List (CurlAction Hash)} (hrun : run step create acts = some s)
    (huser : ∀ a ∈ callback, a.byUser = true) (htask : call.task s = some task)
    (hcall : call.perform s callback = some done) :
    s.RemovesOnly done task ↔ s.Undisturbed call.hash task callback := by
  obtain ⟨wf, halive⟩ := handlesAlive_run hrun
  cases call with
  | handleCurlMsg handle result status_code =>
      obtain rfl := Option.some.inj htask
      exact removesOnly_handleCurlMsg_iff wf halive huser hcall
  | cancelRequest hash caller => exact removesOnly_cancelRequest_iff wf halive huser htask hcall

/-- One of two started requests is finished, and the callback asks for a third one and drops the
pointer to the second, which the map still has. -/
theorem removesOnly_other_request :
    ∃ s done : CurlClient ℕ,
      run step create [.taskWithRequest 7, .resume ⟨0, 7⟩, .taskWithRequest 5, .resume ⟨1, 5⟩,
        .runPosted, .runPosted] = some s ∧
      (CompletingCall.handleCurlMsg ⟨0, 7⟩ 0 200).perform s
        [.taskWithRequest 8, .resume ⟨2, 8⟩, .release ⟨1, 5⟩] = some done ∧
      s.RemovesOnly done ⟨0, 7⟩ := by
  refine ⟨_, _, rfl, rfl, (@removesOnly_iff ℕ _ _ _ ⟨0, 7⟩ (.handleCurlMsg ⟨0, 7⟩ 0 200)
    [.taskWithRequest 8, .resume ⟨2, 8⟩, .release ⟨1, 5⟩] [.taskWithRequest 7, .resume ⟨0, 7⟩,
    .taskWithRequest 5, .resume ⟨1, 5⟩, .runPosted, .runPosted] rfl (by decide) rfl rfl).mpr ?_⟩
  refine ⟨rfl, by decide, by decide, fun x hx hne => Or.inr ?_⟩
  have hx : x ∈ [⟨0, 7⟩, ⟨1, 5⟩] := hx
  simp only [List.mem_cons, List.not_mem_nil, or_false] at hx
  obtain rfl := hx.resolve_left hne
  exact ⟨rfl, by decide⟩

/-- The callback performs the request again, and the end of `HandleCurlMsg` erases the new task. -/
theorem retry_erased :
    ¬ ∀ (acts : List (CurlAction ℕ)) (call : CompletingCall ℕ) (callback : List (CurlAction ℕ))
      (s done : CurlClient ℕ) (task : RequestTask ℕ), run step create acts = some s →
      (∀ a ∈ callback, a.byUser = true) → call.task s = some task →
      call.perform s callback = some done → s.RemovesOnly done task := by
  intro hall
  have honly := hall [.taskWithRequest 7, .resume ⟨0, 7⟩, .runPosted]
    (.handleCurlMsg ⟨0, 7⟩ 0 200) [.taskWithRequest 7, .resume ⟨1, 7⟩] _ _ ⟨0, 7⟩ rfl
    (by decide) rfl rfl
  have hkept := honly.added ⟨1, 7⟩ (by decide) (by decide)
  cases hkept

end CurlClient

end FFNetwork
