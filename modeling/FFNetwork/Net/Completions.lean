import FFNetwork.Net.CurlClient

/-!
# Which requests are completed

No task is completed twice: a completed task is out of the map before the client thread looks
anything up again.  But the map has one entry for each hash, so a task whose request is equal to one
under way takes the other's place, or is erased in its place, and one of the two is never completed.

* `Lost` — the task is not completed and will not be; `lost_step`.
* `Tracked` — every task not completed has its entry, and its start is posted or done.
* **`completed_exactly_once_iff`** — when every request is completed.
-/

namespace FFNetwork

open StepSystem

namespace CurlClient

variable {Hash : Type} [DecidableEq Hash] {s t : CurlClient Hash} {x : RequestTask Hash}
  {a : CurlAction Hash}

/-- Nothing is under way: no posted call is outstanding or being run, no handle is in the multi
handle, and every `PerformRequest` has started its task. -/
structure Quiescent (s : CurlClient Hash) : Prop where
  idle : s.thread = .idle
  posted : s.posted = []
  handles : s.curl_multi_handle_ = []
  performed : ∀ x ∈ s.tasks, x ∈ s.resumed

/-- `TaskWithRequest` finds no entry for its hash. -/
def FindsUnmapped (s : CurlClient Hash) : CurlAction Hash → Prop
  | .taskWithRequest hash => s.request_task_map_ hash = none
  | _ => True

/-! ## Tasks that are lost -/

/-- The task has not been completed, and has no entry, or one that the thread is about to erase. -/
structure Lost (s : CurlClient Hash) (x : RequestTask Hash) : Prop where
  created : x ∈ s.tasks
  open_ : x ∉ s.completed
  unmapped : s.thread ≠ .crashed → s.request_task_map_ x.identifier_ = some x →
    s.thread.erases = some x.identifier_

omit [DecidableEq Hash] in
lemma mem_completed_append {c : Completion Hash} {thread : ClientThread Hash} :
    x ∈ completed { s with completions := s.completions ++ [c], thread := thread } ↔
      x ∈ s.completed ∨ x = c.task := by
  rw [completed, List.map_append, List.mem_append, List.map_singleton, List.mem_singleton,
    completed]

omit [DecidableEq Hash] in
/-- The idle client thread completes only tasks that are in the map for good. -/
lemma Lost.complete (lost : s.Lost x) (wf : s.WellFormed) (hidle : s.thread = .idle) {hash : Hash}
    {y : RequestTask Hash} (hmap : s.request_task_map_ hash = some y) (c : Completion Hash)
    (hc : c.task = y) (thread : ClientThread Hash) :
    Lost { s with completions := s.completions ++ [c], thread := thread } x := by
  have hunmapped : s.request_task_map_ x.identifier_ ≠ some x := by
    intro hx
    have herases := lost.unmapped (by rw [hidle]; exact nofun) hx
    rw [hidle] at herases
    exact nomatch herases
  refine ⟨lost.created, fun hx => ?_, fun _ hx => absurd hx hunmapped⟩
  rcases mem_completed_append.mp hx with hx | hx
  · exact lost.open_ hx
  · rw [hc] at hx
    subst hx
    exact hunmapped (by rwa [(wf.mapped hmap).1])

lemma Lost.removeAndCleanup (lost : s.Lost x) (hthread : s.thread ≠ .crashed) {hash : Hash}
    (herases : s.thread.erases = some hash) (handle : RequestTask Hash) :
    (s.removeAndCleanup handle hash).Lost x := by
  refine ⟨lost.created, lost.open_, fun _ hx => ?_⟩
  by_cases hh : x.identifier_ = hash
  · rw [hh, removeAndCleanup_map_self] at hx
    exact nomatch hx
  · rw [removeAndCleanup_map_other hh] at hx
    have hx' := lost.unmapped hthread hx
    rw [herases] at hx'
    exact absurd (Option.some.inj hx').symm hh

/-- A lost task stays lost. -/
theorem lost_step (wf : s.WellFormed) (ht : s.step a = some t) (lost : s.Lost x) : t.Lost x := by
  obtain ⟨hthread, hmoves⟩ := moves_of_step wf ht
  cases hmoves with
  | taskWithRequest hash =>
      refine ⟨mem_addTask_tasks.mpr (Or.inl lost.created), lost.open_, fun _ hx => ?_⟩
      have hx : (s.addTask hash).request_task_map_ x.identifier_ = some x := hx
      by_cases hh : x.identifier_ = hash
      · rw [hh, addTask_map_self] at hx
        exact absurd (Option.some.inj hx ▸ lost.created) (wf.nextTask_notMem hash)
      · rw [addTask_map_other hh] at hx
        exact lost.unmapped hthread hx
  | resume hheld => exact ⟨lost.created, lost.open_, lost.unmapped⟩
  | cancel hheld => exact ⟨lost.created, lost.open_, lost.unmapped⟩
  | release y => exact ⟨lost.created, lost.open_, lost.unmapped⟩
  | @startRequest hash caller rest hidle hposted =>
      obtain ⟨handles, heq, _⟩ := startRequest_eq { s with posted := rest } hash
      rw [heq]
      exact ⟨lost.created, lost.open_, lost.unmapped⟩
  | cancelNothing hidle hposted hmap => exact ⟨lost.created, lost.open_, lost.unmapped⟩
  | @cancelRequest hash caller y rest hidle hposted hmap =>
      have hlost := lost.complete wf hidle hmap ⟨y, 0, .UserCancel, true⟩ rfl (.inDidCancelled hash)
      exact ⟨hlost.created, hlost.open_, hlost.unmapped⟩
  | didCancelledReturns hcancelled hmap =>
      exact lost.removeAndCleanup hthread (by rw [hcancelled]; rfl) _
  | handleCurlMsg hidle hhandle hmap => exact lost.complete wf hidle hmap _ rfl _
  | nullTask hidle hhandle hmap => exact ⟨lost.created, lost.open_, fun h => absurd rfl h⟩
  | didFinishedReturns hfinished halive =>
      exact lost.removeAndCleanup hthread (by rw [hfinished]; rfl) _
  | freedHandle hfinished hfreed => exact ⟨lost.created, lost.open_, fun h => absurd rfl h⟩

/-- A `TaskWithRequest` that finds an entry loses a task: the one it replaces, or, if that one is
just being completed, the new one. -/
theorem lost_of_mapped (wf : s.WellFormed) {hash : Hash}
    (ht : s.step (.taskWithRequest hash) = some t) (hmap : s.request_task_map_ hash ≠ none) :
    ∃ x, t.Lost x := by
  obtain ⟨hthread, hmoves⟩ := moves_of_step wf ht
  cases hmoves
  obtain ⟨old, hold⟩ := Option.ne_none_iff_exists'.mp hmap
  have hid := (wf.mapped hold).1
  by_cases hdone : old ∈ s.completed
  · refine ⟨s.nextTask hash, mem_addTask_tasks.mpr (Or.inr rfl), fun hmem => ?_, fun _ _ => ?_⟩
    · exact wf.nextTask_notMem hash (wf.created _ hmem)
    · have herases := wf.done hthread old hdone (by rwa [hid])
      rwa [hid] at herases
  · refine ⟨old, mem_addTask_tasks.mpr (Or.inl (wf.mapped hold).2), hdone, fun _ hx => ?_⟩
    have hx : (s.addTask hash).request_task_map_ old.identifier_ = some old := hx
    rw [hid, addTask_map_self] at hx
    exact absurd (Option.some.inj hx ▸ (wf.mapped hold).2) (wf.nextTask_notMem hash)

/-! ## When no task is lost -/

/-- A task that is not completed has its entry, which nobody is about to erase; and once resumed its
start is posted or done. -/
structure Tracked (s : CurlClient Hash) : Prop where
  mapped : ∀ x ∈ s.tasks, x ∉ s.completed →
    s.request_task_map_ x.identifier_ = some x ∧ s.thread.erases ≠ some x.identifier_
  started : ∀ x ∈ s.tasks, x ∉ s.completed → x ∈ s.resumed →
    x ∈ s.curl_multi_handle_ ∨ ∃ caller, .startRequest x.identifier_ caller ∈ s.posted

omit [DecidableEq Hash] in
lemma tracked_create : (create : CurlClient Hash).Tracked where
  mapped _ hx := nomatch hx
  started _ hx := nomatch hx

lemma mem_collect_of_mapped (hx : x ∈ s.curl_multi_handle_)
    (hmap : s.request_task_map_ x.identifier_ = some x) : x ∈ s.collect.curl_multi_handle_ :=
  mem_collect.mpr ⟨hx, alive_iff.mpr (Or.inr (Or.inl hmap))⟩

lemma Tracked.taskWithRequest (tr : s.Tracked) (wf : s.WellFormed) {hash : Hash}
    (hnone : s.request_task_map_ hash = none) : (s.taskWithRequest hash).Tracked := by
  have hother : ∀ y ∈ s.tasks, y ∉ s.completed →
      (s.addTask hash).request_task_map_ y.identifier_ = some y := by
    intro y hy hopen
    have hmap := (tr.mapped y hy hopen).1
    have hne : y.identifier_ ≠ hash := fun heq => by
      rw [heq, hnone] at hmap
      exact nomatch hmap
    rw [addTask_map_other hne, hmap]
  constructor
  · intro y hy hopen
    rcases mem_addTask_tasks.mp hy with hy | rfl
    · exact ⟨hother y hy hopen, (tr.mapped y hy hopen).2⟩
    · exact ⟨addTask_map_self, fun herases => wf.erasing _ herases hnone⟩
  · intro y hy hopen hres
    rcases mem_addTask_tasks.mp hy with hy | rfl
    · exact (tr.started y hy hopen hres).imp
        (fun hmem => mem_collect_of_mapped (s := s.addTask hash) hmem (hother y hy hopen)) id
    · exact absurd (wf.resumed _ hres) (wf.nextTask_notMem hash)

omit [DecidableEq Hash] in
/-- The idle client thread completes the task of an entry; the others keep theirs. -/
lemma Tracked.complete (tr : s.Tracked) {hash : Hash} {y : RequestTask Hash}
    (hmap : s.request_task_map_ hash = some y) (c : Completion Hash) (hc : c.task = y)
    (thread : ClientThread Hash) (hthread : thread.erases = some hash) :
    Tracked { s with completions := s.completions ++ [c], thread := thread } := by
  have hopen' : ∀ z, z ∉ completed { s with completions := s.completions ++ [c], thread := thread }
      → z ∉ s.completed ∧ z ≠ y := by
    intro z hz
    rw [mem_completed_append, not_or, hc] at hz
    exact hz
  constructor
  · intro z hz hopen
    have hzmap := (tr.mapped z hz (hopen' z hopen).1).1
    refine ⟨hzmap, fun herases => ?_⟩
    have herases : thread.erases = some z.identifier_ := herases
    rw [hthread] at herases
    rw [← Option.some.inj herases, hmap] at hzmap
    exact (hopen' z hopen).2 (Option.some.inj hzmap).symm
  · exact fun z hz hopen => tr.started z hz (hopen' z hopen).1

lemma Tracked.removeAndCleanup (tr : s.Tracked) {hash : Hash}
    (herases : s.thread.erases = some hash) {handle : RequestTask Hash}
    (hhandle : handle.identifier_ = hash) : (s.removeAndCleanup handle hash).Tracked := by
  have hother : ∀ y ∈ s.tasks, y ∉ s.completed → y.identifier_ ≠ hash := by
    intro y hy hopen heq
    exact (tr.mapped y hy hopen).2 (by rw [herases, heq])
  have hkept : ∀ y ∈ s.tasks, y ∉ s.completed →
      (s.removeAndCleanup handle hash).request_task_map_ y.identifier_ = some y := by
    intro y hy hopen
    rw [removeAndCleanup_map_other (hother y hy hopen)]
    exact (tr.mapped y hy hopen).1
  refine ⟨fun y hy hopen => ⟨hkept y hy hopen, nofun⟩, fun y hy hopen hres => ?_⟩
  refine (tr.started y hy hopen hres).imp (fun hmem => mem_collect_of_mapped ?_ ?_) id
  · refine (List.mem_erase_of_ne fun heq => ?_).mpr hmem
    exact hother y hy hopen (heq ▸ hhandle)
  · exact hkept y hy hopen

lemma Tracked.startRequest (tr : s.Tracked) {hash : Hash} {caller : RequestTask Hash}
    {rest : List (PostedCall Hash)} (hposted : s.posted = .startRequest hash caller :: rest) :
    (CurlClient.startRequest { s with posted := rest } hash).Tracked := by
  obtain ⟨handles, heq, hsub⟩ := startRequest_eq { s with posted := rest } hash
  refine ⟨fun y hy hopen => ?_, fun y hy hopen hres => ?_⟩
  · rw [heq] at hy hopen ⊢
    exact tr.mapped y hy hopen
  · have hy' : y ∈ s.tasks := by rw [heq] at hy; exact hy
    have hopen' : y ∉ s.completed := by rw [heq] at hopen; exact hopen
    have hres' : y ∈ s.resumed := by rw [heq] at hres; exact hres
    rcases tr.started y hy' hopen' hres' with hmem | ⟨caller', hmem⟩
    · rw [heq]
      exact Or.inl (hsub y hmem)
    · rw [hposted] at hmem
      rcases List.mem_cons.mp hmem with hhead | hmem
      · obtain ⟨rfl, _⟩ := PostedCall.startRequest.inj hhead
        exact Or.inl ((mem_startRequest (s := { s with posted := rest })
          (tr.mapped y hy' hopen').1).mpr (Or.inr rfl))
      · rw [heq]
        exact Or.inr ⟨caller', hmem⟩

omit [DecidableEq Hash] in
/-- Taking a cancellation off the posted calls leaves the starts. -/
lemma Tracked.dropCancel (tr : s.Tracked) {hash : Hash} {caller : RequestTask Hash}
    {rest : List (PostedCall Hash)} (hposted : s.posted = .cancelRequest hash caller :: rest) :
    Tracked { s with posted := rest } := by
  refine ⟨tr.mapped, fun y hy hopen hres => (tr.started y hy hopen hres).imp id ?_⟩
  rintro ⟨caller', hmem⟩
  rw [hposted] at hmem
  rcases List.mem_cons.mp hmem with hhead | hmem
  · exact nomatch hhead
  · exact ⟨caller', hmem⟩

theorem tracked_step (wf : s.WellFormed) (ht : s.step a = some t) (hfinds : s.FindsUnmapped a)
    (tr : s.Tracked) : t.Tracked := by
  obtain ⟨hthread, hmoves⟩ := moves_of_step wf ht
  cases hmoves with
  | taskWithRequest hash => exact tr.taskWithRequest wf hfinds
  | @resume y hheld =>
      refine ⟨tr.mapped, fun z hz hopen hres => ?_⟩
      rcases List.mem_append.mp hres with hres | hres
      · exact (tr.started z hz hopen hres).imp id fun ⟨caller, hmem⟩ =>
          ⟨caller, List.mem_append_left _ hmem⟩
      · obtain rfl := List.mem_singleton.mp hres
        exact Or.inr ⟨z, List.mem_append_right _ (List.mem_singleton_self _)⟩
  | cancel hheld =>
      refine ⟨tr.mapped, fun z hz hopen hres => (tr.started z hz hopen hres).imp id ?_⟩
      exact fun ⟨caller, hmem⟩ => ⟨caller, List.mem_append_left _ hmem⟩
  | release y =>
      refine ⟨tr.mapped, fun z hz hopen hres => (tr.started z hz hopen hres).imp ?_ id⟩
      exact fun hmem => mem_collect_of_mapped hmem (tr.mapped z hz hopen).1
  | startRequest hidle hposted => exact tr.startRequest hposted
  | cancelNothing hidle hposted hmap => exact tr.dropCancel hposted
  | cancelRequest hidle hposted hmap =>
      exact (tr.dropCancel hposted).complete hmap _ rfl _ rfl
  | didCancelledReturns hcancelled hmap =>
      exact tr.removeAndCleanup (by rw [hcancelled]; rfl) (wf.mapped hmap).1
  | handleCurlMsg hidle hhandle hmap => exact tr.complete hmap _ rfl _ rfl
  | nullTask hidle hhandle hmap => exact ⟨fun y hy hopen => ⟨(tr.mapped y hy hopen).1, nofun⟩,
      tr.started⟩
  | didFinishedReturns hfinished halive =>
      exact tr.removeAndCleanup (by rw [hfinished]; rfl) rfl
  | freedHandle hfinished hfreed => exact ⟨fun y hy hopen => ⟨(tr.mapped y hy hopen).1, nofun⟩,
      tr.started⟩

/-- With nothing under way, what is tracked is completed. -/
lemma Tracked.completed_of_quiescent (tr : s.Tracked) (q : s.Quiescent) (hx : x ∈ s.tasks) :
    x ∈ s.completed := by
  by_contra hopen
  rcases tr.started x hx hopen (q.performed x hx) with hmem | ⟨caller, hmem⟩
  · rw [q.handles] at hmem
    exact absurd hmem (List.not_mem_nil)
  · rw [q.posted] at hmem
    exact absurd hmem (List.not_mem_nil)

/-- **When every request is completed.**  In every state that the client can reach each completion
callback has been called at most once.  If nothing is under way, each has been called exactly once
if and only if every `TaskWithRequest` of the run has found no entry for the hash of its request. -/
theorem completed_exactly_once_iff {acts : List (CurlAction Hash)} {s : CurlClient Hash}
    (hrun : run step create acts = some s) :
    (∀ x, s.completed.count x ≤ 1) ∧
    (s.Quiescent → ((∀ x ∈ s.tasks, s.completed.count x = 1) ↔
      EveryStep step (fun s a _ => s.FindsUnmapped a) create acts)) := by
  have wf := wellFormed_run wellFormed_create hrun
  refine ⟨fun x => List.nodup_iff_count_le_one.mp wf.once x, fun q => ⟨fun hall => ?_, ?_⟩⟩
  · by_contra hnot
    have hlost : ∃ x, s.Lost x := by
      refine exists_of_not_everyStep (I := WellFormed) (Q := fun s => ∃ x, s.Lost x)
        (fun s a t wf ht => wellFormed_step wf ht) ?_ ?_ wellFormed_create hrun hnot
      · intro s a t wf ht hfinds
        cases a with
        | taskWithRequest hash => exact lost_of_mapped wf ht hfinds
        | _ => exact absurd trivial hfinds
      · exact fun s a t wf ht ⟨x, lost⟩ => ⟨x, lost_step wf ht lost⟩
    obtain ⟨x, lost⟩ := hlost
    have hone := hall x lost.created
    rw [List.count_eq_zero_of_not_mem lost.open_] at hone
    exact absurd hone (by decide)
  · intro hfinds x hx
    have htracked : s.WellFormed ∧ s.Tracked :=
      run_invariant_of (I := fun s => s.WellFormed ∧ s.Tracked)
        (fun s a t ⟨wf, tr⟩ ht hf => ⟨wellFormed_step wf ht, tracked_step wf ht hf tr⟩)
        ⟨wellFormed_create, tracked_create⟩ hfinds hrun
    exact List.count_eq_one_of_mem wf.once (htracked.2.completed_of_quiescent q hx)

/-- One request, from `PerformRequest` to the end of its transfer. -/
theorem one_request_completed :
    ∃ s : CurlClient ℕ, run step create [.taskWithRequest 7, .resume ⟨0, 7⟩, .runPosted,
        .handleCurlMsg ⟨0, 7⟩ CURLE_OK 200, .didFinishedReturns] = some s ∧
      s.Quiescent ∧ EveryStep step (fun s a _ => s.FindsUnmapped a) create
        [.taskWithRequest 7, .resume ⟨0, 7⟩, .runPosted, .handleCurlMsg ⟨0, 7⟩ CURLE_OK 200,
          .didFinishedReturns] :=
  have q : Quiescent _ := ⟨rfl, rfl, rfl, by decide⟩
  ⟨_, rfl, q, ((completed_exactly_once_iff rfl).2 q).mp (by decide)⟩

/-- Two equal requests under way: the second task takes the place of the first, which is never
completed. -/
theorem equal_requests_complete_one :
    ¬ ∀ (acts : List (CurlAction ℕ)) (s : CurlClient ℕ), run step create acts = some s →
      s.Quiescent → ∀ x ∈ s.tasks, s.completed.count x = 1 := by
  intro hall
  have hone := hall [.taskWithRequest 7, .resume ⟨0, 7⟩, .taskWithRequest 7, .resume ⟨1, 7⟩,
      .runPosted, .runPosted, .handleCurlMsg ⟨1, 7⟩ CURLE_OK 200, .didFinishedReturns]
    _ rfl ⟨rfl, rfl, rfl, by decide⟩ ⟨0, 7⟩ (by decide)
  exact absurd hone (by decide)

end CurlClient

end FFNetwork
