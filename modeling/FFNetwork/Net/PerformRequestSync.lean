import FFNetwork.Lib.CondVar
import FFNetwork.Lib.StepSystem

/-!
# `Client::PerformRequestSync`

`source/net/client.cpp`: the caller waits for a flag on its own stack, which the completion callback
sets on the client thread.  The callback unlocks the mutex before it notifies, and the caller
leaves, with all that the callback refers to, as soon as it sees the flag.

* `SyncRequest.step` — the caller and the callback, step by step.
* **`callback_inside_frame_iff`** — when the callback never touches the frame of a call that has
  returned.
-/

namespace FFNetwork

open StepSystem

/-! ## The two parties -/

/-- The threads that lock `mutex`. -/
inductive SyncParty where
  | caller
  | callback
  deriving DecidableEq

/-- Where the caller is: before it locks, at the test of `response_ready`, in `cv.wait`, behind a
test that has ended the loop, or back with a value. -/
inductive CallerProgress (Response : Type) where
  | started
  | testing
  | waiting
  | leaving
  | returned (value : Option Response)

/-- Where the callback is. -/
inductive CallbackProgress (Response : Type) where
  | pending
  | locked (response : Response)
  | outputSet (response : Response)
  | readySet (response : Response)
  | unlocked (response : Response)
  | notified (response : Response)

/-- The caller holds the mutex. -/
def CallerProgress.holds {Response : Type} : CallerProgress Response → Bool
  | .testing | .leaving => true
  | _ => false

/-- The callback holds the mutex. -/
def CallbackProgress.holds {Response : Type} : CallbackProgress Response → Bool
  | .locked _ | .outputSet _ | .readySet _ => true
  | _ => false

/-- The callback has set `output_response`. -/
def CallbackProgress.written {Response : Type} : CallbackProgress Response → Bool
  | .pending | .locked _ => false
  | _ => true

/-- The callback has set `response_ready`. -/
def CallbackProgress.raised {Response : Type} : CallbackProgress Response → Bool
  | .pending | .locked _ | .outputSet _ => false
  | _ => true

/-- The response that the callback has been given. -/
def CallbackProgress.response {Response : Type} : CallbackProgress Response → Option Response
  | .pending => none
  | .locked r | .outputSet r | .readySet r | .unlocked r | .notified r => some r

/-- The variables of a `PerformRequestSync` call, and where its two parties are. -/
structure SyncRequest (Response : Type) where
  mutex : Option SyncParty
  cv : CondVar Unit
  response_ready : Bool
  output_response : Option Response
  caller : CallerProgress Response
  callback : CallbackProgress Response

/-- A step of the caller, of the callback, or a wake-up without a reason. -/
inductive SyncAction (Response : Type) where
  | lock
  | test
  | spuriousWake
  | relock
  | leave
  | callbackLocks (response : Response)
  | callbackSetsOutput
  | callbackSetsReady
  | callbackUnlocks
  | callbackNotifies

/-- The callback uses the caller's frame in each of its steps. -/
def SyncAction.UsesFrame {Response : Type} : SyncAction Response → Prop
  | .lock | .test | .spuriousWake | .relock | .leave => False
  | .callbackLocks _ | .callbackSetsOutput | .callbackSetsReady | .callbackUnlocks
  | .callbackNotifies => True

namespace SyncRequest

variable {Response : Type} {s t : SyncRequest Response}

/-- The call has handed its callback to `PerformRequest`. -/
def start : SyncRequest Response := ⟨none, .empty, false, none, .started, .pending⟩

/-- `notify_one` with nobody but the caller inside. -/
def notify (cv : CondVar Unit) : Option (CondVar Unit) :=
  cv.notifyOne (if () ∈ cv.blocked then some () else none)

/-- The state after one more step.  A party waits for a mutex that is locked. -/
def step (s : SyncRequest Response) : SyncAction Response → Option (SyncRequest Response)
  | .lock =>
      match s.caller, s.mutex with
      | .started, none => some { s with mutex := some .caller, caller := .testing }
      | _, _ => none
  | .test =>
      match s.caller with
      | .testing =>
          if s.response_ready then some { s with caller := .leaving }
          else some { s with mutex := none, cv := s.cv.wait (), caller := .waiting }
      | _ => none
  | .spuriousWake =>
      match s.caller with
      | .waiting => (s.cv.wake ()).map fun cv => { s with cv := cv }
      | _ => none
  | .relock =>
      match s.caller, s.mutex with
      | .waiting, none =>
          (s.cv.resume ()).map fun cv =>
            { s with mutex := some .caller, cv := cv, caller := .testing }
      | _, _ => none
  | .leave =>
      match s.caller with
      | .leaving => some { s with mutex := none, caller := .returned s.output_response }
      | _ => none
  | .callbackLocks response =>
      match s.callback, s.mutex with
      | .pending, none => some { s with mutex := some .callback, callback := .locked response }
      | _, _ => none
  | .callbackSetsOutput =>
      match s.callback with
      | .locked response =>
          some { s with output_response := some response, callback := .outputSet response }
      | _ => none
  | .callbackSetsReady =>
      match s.callback with
      | .outputSet response =>
          some { s with response_ready := true, callback := .readySet response }
      | _ => none
  | .callbackUnlocks =>
      match s.callback with
      | .readySet response => some { s with mutex := none, callback := .unlocked response }
      | _ => none
  | .callbackNotifies =>
      match s.callback with
      | .unlocked response =>
          (notify s.cv).map fun cv => { s with cv := cv, callback := .notified response }
      | _ => none

/-! ## What a step can do -/

/-- What a step can do to all but the condition variable. -/
inductive Moves (s : SyncRequest Response) : SyncAction Response → SyncRequest Response → Prop
  | lock (hcaller : s.caller = .started) (hmutex : s.mutex = none) :
      s.Moves .lock { s with mutex := some .caller, caller := .testing }
  | testReady (hcaller : s.caller = .testing) (hready : s.response_ready = true) :
      s.Moves .test { s with caller := .leaving }
  | testWaits (hcaller : s.caller = .testing) (hready : s.response_ready = false) :
      s.Moves .test { s with mutex := none, cv := s.cv.wait (), caller := .waiting }
  | spuriousWake {cv : CondVar Unit} (hcaller : s.caller = .waiting) :
      s.Moves .spuriousWake { s with cv := cv }
  | relock {cv : CondVar Unit} (hcaller : s.caller = .waiting) (hmutex : s.mutex = none) :
      s.Moves .relock { s with mutex := some .caller, cv := cv, caller := .testing }
  | leave (hcaller : s.caller = .leaving) :
      s.Moves .leave { s with mutex := none, caller := .returned s.output_response }
  | callbackLocks {response : Response} (hcallback : s.callback = .pending)
      (hmutex : s.mutex = none) :
      s.Moves (.callbackLocks response)
        { s with mutex := some .callback, callback := .locked response }
  | callbackSetsOutput {response : Response} (hcallback : s.callback = .locked response) :
      s.Moves .callbackSetsOutput
        { s with output_response := some response, callback := .outputSet response }
  | callbackSetsReady {response : Response} (hcallback : s.callback = .outputSet response) :
      s.Moves .callbackSetsReady
        { s with response_ready := true, callback := .readySet response }
  | callbackUnlocks {response : Response} (hcallback : s.callback = .readySet response) :
      s.Moves .callbackUnlocks { s with mutex := none, callback := .unlocked response }
  | callbackNotifies {response : Response} {cv : CondVar Unit}
      (hcallback : s.callback = .unlocked response) :
      s.Moves .callbackNotifies { s with cv := cv, callback := .notified response }

lemma moves_of_step {a : SyncAction Response} (ht : s.step a = some t) : s.Moves a t := by
  cases a with
  | lock =>
      simp only [step] at ht
      split at ht <;> cases ht
      exact .lock ‹_› ‹_›
  | test =>
      simp only [step] at ht
      split at ht
      · rename_i hcaller
        split at ht <;> cases ht
        · exact .testReady hcaller ‹_›
        · exact .testWaits hcaller (Bool.eq_false_iff.mpr ‹_›)
      · cases ht
  | spuriousWake =>
      simp only [step] at ht
      split at ht
      · rcases Option.map_eq_some_iff.mp ht with ⟨cv, _, rfl⟩
        exact .spuriousWake ‹_›
      · cases ht
  | relock =>
      simp only [step] at ht
      split at ht
      · rcases Option.map_eq_some_iff.mp ht with ⟨cv, _, rfl⟩
        exact .relock ‹_› ‹_›
      · cases ht
  | leave =>
      simp only [step] at ht
      split at ht <;> cases ht
      exact .leave ‹_›
  | callbackLocks response =>
      simp only [step] at ht
      split at ht <;> cases ht
      exact .callbackLocks ‹_› ‹_›
  | callbackSetsOutput =>
      simp only [step] at ht
      split at ht <;> cases ht
      exact .callbackSetsOutput ‹_›
  | callbackSetsReady =>
      simp only [step] at ht
      split at ht <;> cases ht
      exact .callbackSetsReady ‹_›
  | callbackUnlocks =>
      simp only [step] at ht
      split at ht <;> cases ht
      exact .callbackUnlocks ‹_›
  | callbackNotifies =>
      simp only [step] at ht
      split at ht
      · rcases Option.map_eq_some_iff.mp ht with ⟨cv, _, rfl⟩
        exact .callbackNotifies ‹_›
      · cases ht

/-! ## Who holds the mutex, and what the flag means -/

/-- What holds between the mutex, the flag, the output and the two parties. -/
structure Sound (s : SyncRequest Response) : Prop where
  callerHolds : s.mutex = some .caller ↔ s.caller.holds = true
  callbackHolds : s.mutex = some .callback ↔ s.callback.holds = true
  output : s.callback.written = true → s.output_response = s.callback.response
  ready : s.response_ready = true → s.callback.raised = true
  leaving : s.caller = .leaving → s.response_ready = true
  returned : ∀ value, s.caller = .returned value →
    value = s.callback.response ∧ s.callback.raised = true

lemma sound_start : (start : SyncRequest Response).Sound := by
  constructor <;> simp [start, CallerProgress.holds, CallbackProgress.holds,
    CallbackProgress.written]

lemma written_of_raised {c : CallbackProgress Response} (hraised : c.raised = true) :
    c.written = true := by
  cases c <;> simp [CallbackProgress.raised] at hraised <;> rfl

/-- Whoever has been given a response has it for good. -/
theorem sound_step {a : SyncAction Response} (hs : s.Sound) (ht : s.step a = some t) : t.Sound := by
  have hcaller := hs.callerHolds
  have hcallback := hs.callbackHolds
  cases moves_of_step ht with
  | lock hstarted hmutex =>
      simp only [hstarted, hmutex, CallerProgress.holds] at hcaller hcallback
      exact ⟨by simp [CallerProgress.holds], by simpa using hcallback, hs.output, hs.ready,
        by simp, by simp⟩
  | testReady htesting hready =>
      simp only [htesting, CallerProgress.holds] at hcaller
      exact ⟨by simpa [CallerProgress.holds] using hcaller, hcallback, hs.output, hs.ready,
        fun _ => hready, by simp⟩
  | testWaits htesting hready =>
      simp only [htesting, CallerProgress.holds] at hcaller
      rw [hcaller.mpr trivial] at hcallback
      exact ⟨by simp [CallerProgress.holds], by simpa using hcallback, hs.output, hs.ready,
        by simp, by simp⟩
  | spuriousWake hwaiting =>
      exact ⟨hcaller, hcallback, hs.output, hs.ready, hs.leaving, hs.returned⟩
  | relock hwaiting hmutex =>
      rw [hmutex] at hcallback
      exact ⟨by simp [CallerProgress.holds], by simpa using hcallback, hs.output, hs.ready,
        by simp, by simp⟩
  | leave hleaving =>
      simp only [hleaving, CallerProgress.holds] at hcaller
      rw [hcaller.mpr trivial] at hcallback
      have hraised := hs.ready (hs.leaving hleaving)
      refine ⟨by simp [CallerProgress.holds], by simpa using hcallback, hs.output, hs.ready,
        by simp, ?_⟩
      rintro value ⟨⟩
      exact ⟨hs.output (written_of_raised hraised), hraised⟩
  | callbackLocks hpending hmutex =>
      rw [hmutex] at hcaller
      refine ⟨by simpa using hcaller, by simp [CallbackProgress.holds],
        by simp [CallbackProgress.written], ?_, hs.leaving, ?_⟩
      · intro hready
        simpa [hpending, CallbackProgress.raised] using hs.ready hready
      · intro value hvalue
        simpa [hpending, CallbackProgress.raised] using hs.returned value hvalue
  | callbackSetsOutput hlocked =>
      refine ⟨hcaller, by simpa [hlocked, CallbackProgress.holds] using hcallback, fun _ => rfl,
        ?_, hs.leaving, ?_⟩
      · intro hready
        simpa [hlocked, CallbackProgress.raised] using hs.ready hready
      · intro value hvalue
        simpa [hlocked, CallbackProgress.raised] using hs.returned value hvalue
  | callbackSetsReady houtputSet =>
      refine ⟨hcaller, by simpa [houtputSet, CallbackProgress.holds] using hcallback, ?_,
        fun _ => rfl, fun _ => rfl, ?_⟩
      · intro _
        simpa [houtputSet, CallbackProgress.written, CallbackProgress.response] using hs.output
      · intro value hvalue
        simpa [houtputSet, CallbackProgress.raised] using hs.returned value hvalue
  | callbackUnlocks hreadySet =>
      simp only [hreadySet, CallbackProgress.holds] at hcallback
      rw [hcallback.mpr trivial] at hcaller
      refine ⟨by simpa using hcaller, by simp [CallbackProgress.holds], ?_, fun _ => rfl,
        hs.leaving, ?_⟩
      · intro _
        simpa [hreadySet, CallbackProgress.written, CallbackProgress.response] using hs.output
      · intro value hvalue
        simpa [hreadySet, CallbackProgress.raised, CallbackProgress.response]
          using hs.returned value hvalue
  | callbackNotifies hunlocked =>
      refine ⟨hcaller, by simpa [hunlocked, CallbackProgress.holds] using hcallback, ?_,
        fun _ => rfl, hs.leaving, ?_⟩
      · intro _
        simpa [hunlocked, CallbackProgress.written, CallbackProgress.response] using hs.output
      · intro value hvalue
        simpa [hunlocked, CallbackProgress.raised, CallbackProgress.response]
          using hs.returned value hvalue

/-! ## The frame of a call that has returned -/

/-- Once the caller has returned, the callback takes no step that uses the frame. -/
def FrameLeftAlone (s : SyncRequest Response) : Prop :=
  ∀ value, s.caller = .returned value → ∀ more, EveryStep step (fun _ a _ => ¬ a.UsesFrame) s more

/-- What the caller has returned is the response that the callback has been given. -/
def ReturnsResponse (s : SyncRequest Response) : Prop :=
  ∀ value, s.caller = .returned value → value.isSome = true ∧ value = s.callback.response

/-- The callback has no step left. -/
def CallbackDone (s : SyncRequest Response) : Prop := ∃ response, s.callback = .notified response

/-- The caller leaves only when the callback has notified it. -/
def LeavesNotified (s : SyncRequest Response) : SyncAction Response → Prop
  | .leave => s.CallbackDone
  | _ => True

/-- With the caller back and the callback at its end there is no step left. -/
lemma step_eq_none {value : Option Response} (hcaller : s.caller = .returned value)
    (hdone : s.CallbackDone) (a : SyncAction Response) : s.step a = none := by
  rcases hdone with ⟨response, hcallback⟩
  cases a <;> simp [step, hcaller, hcallback]

lemma frameLeftAlone_of_done (hdone : ∀ value, s.caller = .returned value → s.CallbackDone) :
    s.FrameLeftAlone := by
  intro value hcaller more
  cases more with
  | nil => trivial
  | cons a more =>
      intro t ht
      rw [step_eq_none hcaller (hdone value hcaller)] at ht
      cases ht

lemma done_of_step {a : SyncAction Response} (ht : s.step a = some t)
    (hdone : ∀ value, s.caller = .returned value → s.CallbackDone) (hleaves : s.LeavesNotified a) :
    ∀ value, t.caller = .returned value → t.CallbackDone := by
  intro value hvalue
  cases moves_of_step ht with
  | leave hleaving => exact hleaves
  | lock => cases hvalue
  | testReady => cases hvalue
  | testWaits => cases hvalue
  | relock => cases hvalue
  | callbackNotifies hunlocked => exact ⟨_, rfl⟩
  | _ =>
      rcases hdone value hvalue with ⟨response, hcallback⟩
      simp_all

lemma exists_notify (cv : CondVar Unit) : ∃ cv', notify cv = some cv' := by
  by_cases hblocked : () ∈ cv.blocked
  · simp [notify, CondVar.notifyOne, CondVar.wake, hblocked]
  · have hnone : cv.blocked = ∅ := Finset.eq_empty_of_forall_notMem fun _ => hblocked
    simp [notify, CondVar.notifyOne, hnone]

/-- A caller that leaves has seen the flag, so the callback has only its last step left. -/
lemma Sound.callback_of_leaving (hs : s.Sound) (hleaving : s.caller = .leaving) :
    (∃ response, s.callback = .unlocked response) ∨ s.CallbackDone := by
  have hraised := hs.ready (hs.leaving hleaving)
  have hmutex := hs.callerHolds.mpr (by simp [hleaving, CallerProgress.holds])
  have hholds := hs.callbackHolds
  rw [hmutex] at hholds
  cases hcallback : s.callback with
  | unlocked response => exact Or.inl ⟨response, rfl⟩
  | notified response => exact Or.inr ⟨response, hcallback⟩
  | _ => simp [hcallback, CallbackProgress.raised, CallbackProgress.holds] at hraised hholds

lemma leavesNotified_of_frameLeftAlone (hs : s.Sound) {a : SyncAction Response}
    (ht : s.step a = some t) (halone : t.FrameLeftAlone) : s.LeavesNotified a := by
  cases moves_of_step ht with
  | leave hleaving =>
      rcases hs.callback_of_leaving hleaving with ⟨response, hunlocked⟩ | hdone
      · rcases exists_notify s.cv with ⟨cv, hcv⟩
        set u : SyncRequest Response :=
          { s with mutex := none, caller := .returned s.output_response }
        have hnext : u.step .callbackNotifies =
            some { u with cv := cv, callback := .notified response } := by
          simp [step, u, hunlocked, hcv]
        exact absurd trivial (halone s.output_response rfl [.callbackNotifies] _ hnext).1
      · exact hdone
  | _ => trivial

lemma Sound.returnsResponse (hs : s.Sound) : s.ReturnsResponse := by
  intro value hvalue
  rcases hs.returned value hvalue with ⟨heq, hraised⟩
  refine ⟨?_, heq⟩
  cases hcallback : s.callback <;> simp [heq, hcallback, CallbackProgress.raised,
    CallbackProgress.response] at hraised ⊢

/-- **When the callback never touches the frame of a call that has returned.**  In every
interleaving: after each step, the value returned is the response that the callback has been given,
and a callback whose caller has returned never again uses the frame, if and only if the caller
leaves only when the callback has notified it. -/
theorem callback_inside_frame_iff (acts : List (SyncAction Response)) :
    EveryStep step (fun _ _ t => t.FrameLeftAlone ∧ t.ReturnsResponse) start acts ↔
      EveryStep step (fun s a _ => s.LeavesNotified a) start acts := by
  refine everyStep_iff
    (I := fun s => s.Sound ∧ ∀ value, s.caller = .returned value → s.CallbackDone) ?_ ?_
    ⟨sound_start, fun value hvalue => by cases hvalue⟩
  · rintro s a t ⟨hs, hdone⟩ ht hleaves
    have hs' := sound_step hs ht
    have hdone' := done_of_step ht hdone hleaves
    exact ⟨⟨hs', hdone'⟩, frameLeftAlone_of_done hdone', hs'.returnsResponse⟩
  · rintro s a t ⟨hs, _⟩ ht ⟨halone, _⟩
    exact leavesNotified_of_frameLeftAlone hs ht halone

/-- The callback has unlocked and not yet notified when the caller, which has not locked before,
tests the flag and returns. -/
theorem callback_notifies_dead_frame :
    ¬ ∀ acts : List (SyncAction ℕ),
      EveryStep step (fun _ _ t => t.FrameLeftAlone ∧ t.ReturnsResponse) start acts := by
  intro hall
  have halone := ((hall ([.callbackLocks 200, .callbackSetsOutput, .callbackSetsReady,
    .callbackUnlocks, .lock, .test] ++ [.leave])).at rfl rfl).1
  exact (halone (some 200) rfl [.callbackNotifies] _ rfl).1 trivial

end SyncRequest

end FFNetwork
