import FFNetwork.Net.CurlClient

/-!
# Whose handle it is

`HandleCurlMsg` finds the task of a finished handle by the hash in the handle's private data.  That
is the owner of the handle as long as no other task has taken over the hash while the handle was in
the multi handle.

* `Owned` — every handle in the multi handle is found again by its hash.
* **`delivers_to_owner_iff`** — when every message is delivered to the owner of the handle.
-/

namespace FFNetwork

open StepSystem

namespace CurlClient

variable {Hash : Type} [DecidableEq Hash] {s t : CurlClient Hash} {x : RequestTask Hash}
  {a : CurlAction Hash}

/-- Every handle in the multi handle belongs to the task that the map has for its hash. -/
def Owned (s : CurlClient Hash) : Prop :=
  ∀ x ∈ s.curl_multi_handle_, s.request_task_map_ x.identifier_ = some x

/-- Every handle is owned after the step, and a message handled in it has found the owner. -/
def DeliversToOwner (s : CurlClient Hash) (a : CurlAction Hash) (t : CurlClient Hash) : Prop :=
  t.Owned ∧ ∀ handle result status_code, a = .handleCurlMsg handle result status_code →
    s.request_task_map_ handle.identifier_ = some handle

/-- A user holds a pointer to the task, or `HandleCurlMsg` does. -/
def Kept (s : CurlClient Hash) (x : RequestTask Hash) : Prop :=
  x ∈ s.held ∨ ∃ handle, s.thread = .inDidFinished x handle

/-- `TaskWithRequest` takes no task out of the map whose handle stays in the multi handle. -/
def KeepsOwner (s : CurlClient Hash) : CurlAction Hash → Prop
  | .taskWithRequest hash => ∀ old, s.request_task_map_ hash = some old →
      old ∉ s.curl_multi_handle_ ∨ ¬ s.Kept old
  | _ => True

/-- The state that `KeepsOwner` preserves.  While a message is handled, its handle stays in the
multi handle and its owner alive. -/
structure OwnersFound (s : CurlClient Hash) : Prop where
  wf : s.WellFormed
  owned : s.Owned
  handling : ∀ x handle, s.thread = .inDidFinished x handle →
    x = handle ∧ handle ∈ s.curl_multi_handle_

omit [DecidableEq Hash] in
lemma ownersFound_create : (create : CurlClient Hash).OwnersFound where
  wf := wellFormed_create
  owned _ hx := nomatch hx
  handling _ _ hthread := nomatch hthread

/-- A task that is replaced in the map leaves the multi handle, because it was not there or because
it is destroyed. -/
lemma OwnersFound.taskWithRequest (of : s.OwnersFound) {hash : Hash}
    (hkeeps : s.KeepsOwner (.taskWithRequest hash)) : (s.taskWithRequest hash).Owned := by
  intro y hy
  obtain ⟨hmem, halive⟩ := mem_collect.mp hy
  have hmem : y ∈ s.curl_multi_handle_ := hmem
  have hmap := of.owned y hmem
  have hold : y ∈ s.tasks := of.wf.handles y hmem
  have hnew : y ≠ s.nextTask hash := fun heq => of.wf.nextTask_notMem hash (heq ▸ hold)
  show (s.addTask hash).request_task_map_ y.identifier_ = some y
  by_cases hh : y.identifier_ = hash
  · subst hh
    have hkept := (hkeeps y hmap).resolve_left (not_not.mpr hmem)
    rcases alive_iff.mp halive with hheld | hmap' | hthread
    · rcases List.mem_append.mp hheld with hheld | hheld
      · exact absurd (Or.inl hheld) hkept
      · exact absurd (List.mem_singleton.mp hheld) hnew
    · exact hmap'
    · exact absurd (Or.inr hthread) hkept
  · rw [addTask_map_other hh, hmap]

/-- The client thread erases an entry together with the handle of its task. -/
lemma OwnersFound.removeAndCleanup (of : s.OwnersFound) {hash : Hash} {handle : RequestTask Hash}
    (hmap : s.request_task_map_ hash = some handle) :
    (s.removeAndCleanup handle hash).Owned := by
  intro y hy
  obtain ⟨hmem, _⟩ := mem_collect.mp hy
  have hmem : y ∈ s.curl_multi_handle_.erase handle := hmem
  obtain ⟨hne, hmem⟩ := (List.Nodup.mem_erase_iff of.wf.nodup).mp hmem
  have hy := of.owned y hmem
  have hh : y.identifier_ ≠ hash := fun heq => by
    rw [heq, hmap] at hy
    exact hne (Option.some.inj hy).symm
  rw [removeAndCleanup_map_other hh, hy]

/-- A handle whose message is being handled stays: `HandleCurlMsg` holds its owner. -/
lemma OwnersFound.handling_collect (of : s.OwnersFound) {u : CurlClient Hash}
    (hhandles : u.curl_multi_handle_ = s.curl_multi_handle_) (hthread : u.thread = s.thread)
    {handle : RequestTask Hash} (hx : u.collect.thread = .inDidFinished x handle) :
    x = handle ∧ handle ∈ u.collect.curl_multi_handle_ := by
  obtain ⟨rfl, hmem⟩ := of.handling x handle (hthread ▸ hx)
  exact ⟨rfl, mem_collect.mpr ⟨hhandles ▸ hmem, alive_iff.mpr (Or.inr (Or.inr ⟨_, hx⟩))⟩⟩

lemma OwnersFound.startRequest (of : s.OwnersFound) {hash : Hash}
    {rest : List (PostedCall Hash)} :
    (CurlClient.startRequest { s with posted := rest } hash).Owned := by
  intro y hy
  cases hmap : s.request_task_map_ hash with
  | none =>
      rw [CurlClient.startRequest] at hy ⊢
      simp only [hmap] at hy ⊢
      exact of.owned y hy
  | some z =>
      obtain ⟨handles, heq, _⟩ := startRequest_eq { s with posted := rest } hash
      have hy' := (mem_startRequest (s := { s with posted := rest }) hmap).mp hy
      rw [heq]
      rcases hy' with hy' | rfl
      · exact of.owned y hy'
      · show s.request_task_map_ y.identifier_ = some y
        rw [(of.wf.mapped hmap).1, hmap]

theorem ownersFound_step (of : s.OwnersFound) (ht : s.step a = some t) (hkeeps : s.KeepsOwner a) :
    t.OwnersFound := by
  have wf' := wellFormed_step of.wf ht
  obtain ⟨hthread, hmoves⟩ := moves_of_step of.wf ht
  cases hmoves with
  | taskWithRequest hash =>
      exact ⟨wf', of.taskWithRequest hkeeps, fun x handle hx =>
        of.handling_collect (u := s.addTask hash) rfl rfl hx⟩
  | resume hheld => exact ⟨wf', of.owned, of.handling⟩
  | cancel hheld => exact ⟨wf', of.owned, of.handling⟩
  | release y =>
      exact ⟨wf', fun z hz => of.owned z (mem_collect.mp hz).1, fun x handle hx =>
        of.handling_collect (u := { s with held := s.held.filter (· ≠ y) }) rfl rfl hx⟩
  | @startRequest hash caller rest hidle hposted =>
      refine ⟨wf', of.startRequest, fun x handle hx => ?_⟩
      obtain ⟨handles, heq, _⟩ := startRequest_eq { s with posted := rest } hash
      rw [heq] at hx
      have hx : s.thread = .inDidFinished x handle := hx
      rw [hidle] at hx
      cases hx
  | cancelNothing hidle hposted hmap => exact ⟨wf', of.owned, of.handling⟩
  | cancelRequest hidle hposted hmap => exact ⟨wf', of.owned, fun _ _ hx => by cases hx⟩
  | didCancelledReturns hcancelled hmap =>
      exact ⟨wf', of.removeAndCleanup hmap, fun _ _ hx => by cases hx⟩
  | @handleCurlMsg handle y result status_code hidle hhandle hmap =>
      refine ⟨wf', of.owned, fun x handle' hx => ?_⟩
      obtain ⟨rfl, rfl⟩ := ClientThread.inDidFinished.inj hx
      exact ⟨Option.some.inj (hmap.symm.trans (of.owned handle hhandle)), hhandle⟩
  | @nullTask handle result status_code hidle hhandle hmap =>
      rw [of.owned handle hhandle] at hmap
      cases hmap
  | @didFinishedReturns y handle hfinished halive =>
      obtain ⟨rfl, hmem⟩ := of.handling y handle hfinished
      exact ⟨wf', of.removeAndCleanup (of.owned y hmem), fun _ _ hx => by cases hx⟩
  | freedHandle hfinished hfreed => exact ⟨wf', of.owned, fun _ _ hx => by cases hx⟩

/-- A message is about a handle in the multi handle. -/
lemma OwnersFound.handled (of : s.OwnersFound) {handle : RequestTask Hash} {result : CURLcode}
    {status_code : Int32} (ht : s.step (.handleCurlMsg handle result status_code) = some t) :
    s.request_task_map_ handle.identifier_ = some handle := by
  obtain ⟨hthread, hmoves⟩ := moves_of_step of.wf ht
  cases hmoves with
  | handleCurlMsg hidle hhandle hmap => exact of.owned handle hhandle
  | nullTask hidle hhandle hmap => exact of.owned handle hhandle

lemma keepsOwner_of_deliversToOwner (of : s.OwnersFound) (ht : s.step a = some t)
    (hdelivers : s.DeliversToOwner a t) : s.KeepsOwner a := by
  obtain ⟨hthread, hmoves⟩ := moves_of_step of.wf ht
  cases hmoves with
  | taskWithRequest hash =>
      intro old hold
      by_contra hnot
      rw [not_or, not_not, not_not] at hnot
      obtain ⟨hid, hcreated⟩ := of.wf.mapped hold
      have halive : (s.addTask hash).alive old = true :=
        alive_iff.mpr (hnot.2.imp (List.mem_append_left _) Or.inr)
      have howned := hdelivers.1 old (mem_collect.mpr ⟨hnot.1, halive⟩)
      have howned : (s.addTask hash).request_task_map_ old.identifier_ = some old := howned
      rw [hid, addTask_map_self] at howned
      exact of.wf.nextTask_notMem hash (Option.some.inj howned ▸ hcreated)
  | _ => trivial

/-- **When every message is delivered to the owner of its handle.**  In every run: each handle in
the multi handle belongs to the task that the map has for its hash, after every step, and every
message is handled by the owner of its handle, if and only if no `TaskWithRequest` replaces a task
whose handle stays in the multi handle. -/
theorem delivers_to_owner_iff (acts : List (CurlAction Hash)) :
    EveryStep step DeliversToOwner create acts ↔
      EveryStep step (fun s a _ => s.KeepsOwner a) create acts := by
  refine everyStep_iff (I := OwnersFound) ?_ ?_ ownersFound_create
  · intro s a t of ht hkeeps
    have of' := ownersFound_step of ht hkeeps
    refine ⟨of', of'.owned, ?_⟩
    rintro handle result status_code rfl
    exact of.handled ht
  · exact fun s a t of ht hdelivers => keepsOwner_of_deliversToOwner of ht hdelivers

/-- A second task for an equal request, while the handle of the first is in the multi handle. -/
theorem handle_without_owner :
    ¬ ∀ acts : List (CurlAction ℕ), EveryStep step DeliversToOwner create acts := by
  intro hall
  have hdelivers := (hall ([.taskWithRequest 7, .resume ⟨0, 7⟩, .runPosted] ++
    [.taskWithRequest 7])).at rfl rfl
  exact absurd (hdelivers.1 ⟨0, 7⟩ (by decide)) (by decide)

end CurlClient

end FFNetwork
