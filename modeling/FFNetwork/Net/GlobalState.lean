import FFNetwork.Base.Thread.SharedMutex
import Mathlib.Data.Finset.Card

/-!
# The global state of libcurl

`ConfigCurlGlobalState` of `source/net/curl_client.cpp` counts the live clients in a static variable
and sets libcurl up with the first one and cleans up with the last.  It locks a mutex around this
that it has created for itself a line before.

* `GlobalState.step` — calls of any number of constructors and destructors, step by step.
* `lock_granted` — no call ever waits for its mutex.
* **`init_follows_clients_iff`** — when libcurl follows the number of live clients.
-/

namespace FFNetwork

open StepSystem

/-! ## ConfigCurlGlobalState -/

/-- How far a call has come, with its variable `previous_curl_clients_active`. -/
inductive ConfigProgress where
  | created
  | locked
  | read (previous : ℤ)
  | updated (previous : ℤ)
  | tested

/-- A call of `ConfigCurlGlobalState`, with the number of its mutex. -/
structure ConfigCall where
  added_client : Bool
  mutex : ℕ
  progress : ConfigProgress

/-- The life of a client as far as this function sees it.  The constructor and the destructor each
make one call. -/
inductive ClientLife where
  | unborn
  | configuring (call : ConfigCall)
  | constructed
  | destroyed

/-- The value of `curl_clients_active` after the update. -/
def updateActive (added_client : Bool) (curl_clients_active : ℤ) : ℤ :=
  if added_client then curl_clients_active + 1
  else if curl_clients_active ≠ 0 then curl_clients_active - 1
  else curl_clients_active

/-- The static counter, the mutexes created so far, the calls made of libcurl, and the clients.
`live`, `rises` and `falls` are kept for the proofs: the clients of which the constructor's call has
locked its mutex and the destructor's has not, and how often their number has left 0 and come
back. -/
structure GlobalState (Client : Type) where
  curl_clients_active : ℤ
  mutexes : List (SharedMutexPosix Client)
  lives : Client → ClientLife
  inits : ℕ
  cleanups : ℕ
  live : Finset Client
  rises : ℕ
  falls : ℕ

/-- The next step of the call that a client's constructor or destructor makes. -/
inductive ConfigAction (Client : Type) where
  | construct (client : Client)
  | destroy (client : Client)
  | lock (client : Client)
  | read (client : Client)
  | update (client : Client)
  | test (client : Client)
  | unlock (client : Client)

namespace GlobalState

variable {Client : Type} [DecidableEq Client] {s t : GlobalState Client} {c d : Client}
  {call : ConfigCall}

omit [DecidableEq Client] in
/-- No client has been constructed yet. -/
def start : GlobalState Client := ⟨0, [], fun _ => .unborn, 0, 0, ∅, 0, 0⟩

/-- The client is at another place of its life. -/
def setLife (s : GlobalState Client) (c : Client) (life : ClientLife) : GlobalState Client :=
  { s with lives := Function.update s.lives c life }

/-- `SharedMutex::Create`, the first line of the function. -/
def enter (s : GlobalState Client) (c : Client) (added_client : Bool) : GlobalState Client :=
  { s with mutexes := s.mutexes ++ [SharedMutexPosix.create] }.setLife c
    (.configuring ⟨added_client, s.mutexes.length, .created⟩)

/-- The live clients, once the call has its lock. -/
def nowLive (s : GlobalState Client) (c : Client) (added_client : Bool) : Finset Client :=
  if added_client then insert c s.live else s.live.erase c

/-- The call has its lock. -/
def locked (s : GlobalState Client) (c : Client) (call : ConfigCall)
    (mutex : SharedMutexPosix Client) : GlobalState Client :=
  { s with
    mutexes := s.mutexes.set call.mutex mutex
    live := s.nowLive c call.added_client
    rises := if call.added_client ∧ s.live = ∅ then s.rises + 1 else s.rises
    falls := if ¬ call.added_client ∧ s.live.erase c = ∅ then s.falls + 1 else s.falls }.setLife c
    (.configuring { call with progress := .locked })

/-- `curl_global_init` or `curl_global_cleanup`, as the old and the new value say. -/
def tested (s : GlobalState Client) (c : Client) (call : ConfigCall) (previous : ℤ) :
    GlobalState Client :=
  { s with
    inits := if previous = 0 ∧ s.curl_clients_active = 1 then s.inits + 1 else s.inits
    cleanups :=
      if ¬ (previous = 0 ∧ s.curl_clients_active = 1) ∧ previous = 1 ∧ s.curl_clients_active = 0
      then s.cleanups + 1 else s.cleanups }.setLife c
    (.configuring { call with progress := .tested })

/-- The state after one more step; a lock that is held is waited for. -/
def step (s : GlobalState Client) : ConfigAction Client → Option (GlobalState Client)
  | .construct c =>
      match s.lives c with
      | .unborn => some (s.enter c true)
      | _ => none
  | .destroy c =>
      match s.lives c with
      | .constructed => some (s.enter c false)
      | _ => none
  | .lock c =>
      match s.lives c with
      | .configuring ⟨added_client, mutex, .created⟩ =>
          (s.mutexes[mutex]?.bind fun m => m.lock c 0).map fun m =>
            s.locked c ⟨added_client, mutex, .created⟩ m
      | _ => none
  | .read c =>
      match s.lives c with
      | .configuring ⟨added_client, mutex, .locked⟩ =>
          some (s.setLife c (.configuring ⟨added_client, mutex, .read s.curl_clients_active⟩))
      | _ => none
  | .update c =>
      match s.lives c with
      | .configuring ⟨added_client, mutex, .read previous⟩ =>
          some ({ s with
            curl_clients_active := updateActive added_client s.curl_clients_active }.setLife c
              (.configuring ⟨added_client, mutex, .updated previous⟩))
      | _ => none
  | .test c =>
      match s.lives c with
      | .configuring ⟨added_client, mutex, .updated previous⟩ =>
          some (s.tested c ⟨added_client, mutex, .updated previous⟩ previous)
      | _ => none
  | .unlock c =>
      match s.lives c with
      | .configuring ⟨added_client, mutex, .tested⟩ =>
          (s.mutexes[mutex]?.bind fun m => m.unlock c).map fun m =>
            { s with mutexes := s.mutexes.set mutex m }.setLife c
              (if added_client then .constructed else .destroyed)
      | _ => none

/-- The client's call is between its lock and its unlock. -/
def Inside (s : GlobalState Client) (c : Client) : Prop :=
  ∃ call, s.lives c = .configuring call ∧ call.progress ≠ .created

/-- What a step can do. -/
inductive Moves (s : GlobalState Client) : ConfigAction Client → GlobalState Client → Prop
  | construct {c : Client} (hlife : s.lives c = .unborn) :
      s.Moves (.construct c) (s.enter c true)
  | destroy {c : Client} (hlife : s.lives c = .constructed) :
      s.Moves (.destroy c) (s.enter c false)
  | lock {c : Client} {added_client : Bool} {mutex : ℕ} {m : SharedMutexPosix Client}
      (hlife : s.lives c = .configuring ⟨added_client, mutex, .created⟩) :
      s.Moves (.lock c) (s.locked c ⟨added_client, mutex, .created⟩ m)
  | read {c : Client} {added_client : Bool} {mutex : ℕ}
      (hlife : s.lives c = .configuring ⟨added_client, mutex, .locked⟩) :
      s.Moves (.read c)
        (s.setLife c (.configuring ⟨added_client, mutex, .read s.curl_clients_active⟩))
  | update {c : Client} {added_client : Bool} {mutex : ℕ} {previous : ℤ}
      (hlife : s.lives c = .configuring ⟨added_client, mutex, .read previous⟩) :
      s.Moves (.update c)
        ({ s with
          curl_clients_active := updateActive added_client s.curl_clients_active }.setLife c
            (.configuring ⟨added_client, mutex, .updated previous⟩))
  | test {c : Client} {added_client : Bool} {mutex : ℕ} {previous : ℤ}
      (hlife : s.lives c = .configuring ⟨added_client, mutex, .updated previous⟩) :
      s.Moves (.test c) (s.tested c ⟨added_client, mutex, .updated previous⟩ previous)
  | unlock {c : Client} {added_client : Bool} {mutex : ℕ} {m : SharedMutexPosix Client}
      (hlife : s.lives c = .configuring ⟨added_client, mutex, .tested⟩) :
      s.Moves (.unlock c)
        ({ s with mutexes := s.mutexes.set mutex m }.setLife c
          (if added_client then .constructed else .destroyed))

lemma moves_of_step {a : ConfigAction Client} (ht : s.step a = some t) : s.Moves a t := by
  cases a with
  | construct c =>
      simp only [step] at ht
      split at ht <;> cases ht
      exact .construct ‹_›
  | destroy c =>
      simp only [step] at ht
      split at ht <;> cases ht
      exact .destroy ‹_›
  | lock c =>
      simp only [step] at ht
      split at ht
      · rcases Option.map_eq_some_iff.mp ht with ⟨m, _, rfl⟩
        exact .lock ‹_›
      · cases ht
  | read c =>
      simp only [step] at ht
      split at ht <;> cases ht
      exact .read ‹_›
  | update c =>
      simp only [step] at ht
      split at ht <;> cases ht
      exact .update ‹_›
  | test c =>
      simp only [step] at ht
      split at ht <;> cases ht
      exact .test ‹_›
  | unlock c =>
      simp only [step] at ht
      split at ht
      · rcases Option.map_eq_some_iff.mp ht with ⟨m, _, rfl⟩
        exact .unlock ‹_›
      · cases ht

@[simp] lemma lives_setLife_self (s : GlobalState Client) (c : Client) (life : ClientLife) :
    (s.setLife c life).lives c = life := by
  simp [setLife]

lemma lives_setLife_other {life : ClientLife} (hne : d ≠ c) :
    (s.setLife c life).lives d = s.lives d := by
  simp [setLife, hne]

/-- What one client does leaves the others inside or outside. -/
lemma inside_other {life : ClientLife} (hlives : t.lives = Function.update s.lives c life)
    (hne : d ≠ c) : t.Inside d ↔ s.Inside d := by
  simp only [Inside, hlives, Function.update_of_ne hne]

omit [DecidableEq Client] in
lemma not_inside_of_created (hlife : s.lives c = .configuring call)
    (hcreated : call.progress = .created) : ¬ s.Inside c := by
  rintro ⟨call', hlife', hin⟩
  rw [hlife, ClientLife.configuring.injEq] at hlife'
  exact hin (hlife' ▸ hcreated)

/-! ## The mutex of a call -/

/-- Every call has a mutex that no other call has, and has not locked it when it begins. -/
structure OwnMutex (s : GlobalState Client) : Prop where
  bound : ∀ c call, s.lives c = .configuring call → call.mutex < s.mutexes.length
  distinct : ∀ c d call call', s.lives c = .configuring call → s.lives d = .configuring call' →
    call.mutex = call'.mutex → c = d
  fresh : ∀ c call, s.lives c = .configuring call → call.progress = .created →
    s.mutexes[call.mutex]? = some .create

omit [DecidableEq Client] in
lemma ownMutex_start : (start : GlobalState Client).OwnMutex where
  bound _ _ hlife := by cases hlife
  distinct _ _ _ _ hlife := by cases hlife
  fresh _ _ hlife := by cases hlife

lemma OwnMutex.enter (hm : s.OwnMutex) (c : Client) (added_client : Bool) :
    (s.enter c added_client).OwnMutex := by
  have hself : (s.enter c added_client).lives c =
      .configuring ⟨added_client, s.mutexes.length, .created⟩ := lives_setLife_self _ _ _
  have hother : ∀ d, d ≠ c → (s.enter c added_client).lives d = s.lives d :=
    fun d hne => lives_setLife_other hne
  have hmutexes : (s.enter c added_client).mutexes = s.mutexes ++ [.create] := rfl
  have hcase : ∀ d call, (s.enter c added_client).lives d = .configuring call →
      (d = c ∧ call.mutex = s.mutexes.length) ∨ (d ≠ c ∧ s.lives d = .configuring call) := by
    intro d call hd
    by_cases hdc : d = c
    · subst hdc
      rw [hself, ClientLife.configuring.injEq] at hd
      exact Or.inl ⟨rfl, hd ▸ rfl⟩
    · exact Or.inr ⟨hdc, hother d hdc ▸ hd⟩
  refine ⟨?_, ?_, ?_⟩
  · intro d call hd
    rw [hmutexes, List.length_append, List.length_singleton]
    rcases hcase d call hd with ⟨_, hnew⟩ | ⟨_, hold⟩
    · omega
    · exact Nat.lt_succ_of_lt (hm.bound d call hold)
  · intro d e call call' hd he heq
    rcases hcase d call hd with ⟨rfl, hnew⟩ | ⟨_, hold⟩ <;>
      rcases hcase e call' he with ⟨rfl, hnew'⟩ | ⟨_, hold'⟩
    · rfl
    · have := hm.bound e call' hold'
      omega
    · have := hm.bound d call hold
      omega
    · exact hm.distinct d e call call' hold hold' heq
  · intro d call hd hcreated
    rw [hmutexes]
    rcases hcase d call hd with ⟨_, hnew⟩ | ⟨_, hold⟩
    · rw [hnew, List.getElem?_concat_length]
    · rw [List.getElem?_append_left (hm.bound d call hold)]
      exact hm.fresh d call hold hcreated

/-- A call uses only its own mutex. -/
lemma OwnMutex.advance (hm : s.OwnMutex) (hlife : s.lives c = .configuring call)
    {life : ClientLife} (hlives : t.lives = Function.update s.lives c life)
    (hsame : ∀ call', life = .configuring call' →
      call'.mutex = call.mutex ∧ call'.progress ≠ .created)
    (m : Option (SharedMutexPosix Client))
    (hmutexes : t.mutexes = m.elim s.mutexes (s.mutexes.set call.mutex)) : t.OwnMutex := by
  have hlength : t.mutexes.length = s.mutexes.length := by
    cases m <;> simp [hmutexes]
  have hcase : ∀ d call', t.lives d = .configuring call' →
      (d = c ∧ call'.mutex = call.mutex ∧ call'.progress ≠ .created) ∨
        (d ≠ c ∧ s.lives d = .configuring call') := by
    intro d call' hd
    rw [hlives] at hd
    by_cases hdc : d = c
    · subst hdc
      rw [Function.update_self] at hd
      exact Or.inl ⟨rfl, hsame call' hd⟩
    · rw [Function.update_of_ne hdc] at hd
      exact Or.inr ⟨hdc, hd⟩
  refine ⟨?_, ?_, ?_⟩
  · intro d call' hd
    rw [hlength]
    rcases hcase d call' hd with ⟨_, hmutex, _⟩ | ⟨_, hd⟩
    · exact hmutex ▸ hm.bound c call hlife
    · exact hm.bound d call' hd
  · intro d e call' call'' hd he heq
    rcases hcase d call' hd with ⟨rfl, hmutex, _⟩ | ⟨_, hd⟩ <;>
      rcases hcase e call'' he with ⟨rfl, hmutex', _⟩ | ⟨_, he⟩
    · rfl
    · exact hm.distinct d e call call'' hlife he (hmutex ▸ heq)
    · exact hm.distinct d e call' call hd hlife (hmutex' ▸ heq)
    · exact hm.distinct d e call' call'' hd he heq
  · intro d call' hd hcreated
    rcases hcase d call' hd with ⟨_, _, hin⟩ | ⟨hdc, hd⟩
    · exact absurd hcreated hin
    · have hne : call.mutex ≠ call'.mutex := fun heq =>
        hdc (hm.distinct c d call call' hlife hd heq).symm
      rw [← hm.fresh d call' hd hcreated, hmutexes]
      cases m <;> simp [List.getElem?_set_ne hne]

lemma ownMutex_step (s : GlobalState Client) (a : ConfigAction Client) (t : GlobalState Client)
    (hm : s.OwnMutex) (ht : s.step a = some t) : t.OwnMutex := by
  cases moves_of_step ht with
  | construct hlife => exact hm.enter _ _
  | destroy hlife => exact hm.enter _ _
  | @lock c added_client mutex m hlife =>
      refine hm.advance hlife rfl ?_ (some m) rfl
      rintro call' ⟨⟩
      simp
  | read hlife =>
      refine hm.advance hlife rfl ?_ none rfl
      rintro call' ⟨⟩
      simp
  | update hlife =>
      refine hm.advance hlife rfl ?_ none rfl
      rintro call' ⟨⟩
      simp
  | test hlife =>
      refine hm.advance hlife rfl ?_ none rfl
      rintro call' ⟨⟩
      simp
  | @unlock c added_client mutex m hlife =>
      refine hm.advance hlife rfl ?_ (some m) rfl
      intro call' hcall
      cases added_client <;> cases hcall

/-- **No call ever waits for its mutex.**  Whatever the other calls are doing, a call that has
created its mutex can lock it. -/
theorem lock_granted {acts : List (ConfigAction Client)} (hrun : run step start acts = some s)
    (hlife : s.lives c = .configuring call) (hcreated : call.progress = .created) :
    (s.step (.lock c)).isSome = true := by
  have hm : s.OwnMutex := run_invariant ownMutex_step ownMutex_start hrun
  rcases call with ⟨added_client, mutex, progress⟩
  simp only at hcreated
  subst hcreated
  have hfresh : s.mutexes[mutex]? = some .create := hm.fresh c _ hlife rfl
  simp [step, hlife, hfresh, SharedMutexPosix.lock, SharedMutexPosix.create, RwLock.request,
    RwLock.grants, RwLock.init, RwLock.Call.mode]

/-! ## What the calls are there for -/

/-- libcurl has been set up once more than cleaned up. -/
def Initialised (s : GlobalState Client) : Prop := s.inits = s.cleanups + 1

/-- Two calls are never inside at once.  With no call inside, libcurl has been set up once for each
time the number of live clients has left 0, and cleaned up once for each time it has come back.
With a constructed client it is set up. -/
structure FollowsClients (s : GlobalState Client) : Prop where
  alone : ∀ c d, s.Inside c → s.Inside d → c = d
  inits : (∀ c, ¬ s.Inside c) → s.inits = s.rises
  cleanups : (∀ c, ¬ s.Inside c) → s.cleanups = s.falls
  initialised : ∀ c, s.lives c = .constructed → s.Initialised

/-- A call takes its lock only when no other call is inside. -/
def LocksAlone (s : GlobalState Client) : ConfigAction Client → Prop
  | .lock _ => ∀ d, ¬ s.Inside d
  | _ => True

/-! ## Calls one after the other -/

/-- The counter is right, and libcurl has been called as often as it should. -/
def Settled (s : GlobalState Client) : Prop :=
  s.curl_clients_active = s.live.card ∧ s.inits = s.rises ∧ s.cleanups = s.falls

/-- The counter is as it was before the call. -/
def Behind (s : GlobalState Client) (added_client : Bool) (curl_clients_active : ℤ) : Prop :=
  if added_client then curl_clients_active + 1 = s.live.card
  else curl_clients_active = s.live.card + 1

/-- The call has still to set libcurl up or to clean up, if the number of live clients has left 0
or come back with it. -/
def Owes (s : GlobalState Client) (added_client : Bool) : Prop :=
  s.inits + (if added_client ∧ s.live.card = 1 then 1 else 0) = s.rises ∧
    s.cleanups + (if ¬ added_client ∧ s.live.card = 0 then 1 else 0) = s.falls

/-- What is true while a call is at its steps. -/
def Working (s : GlobalState Client) (call : ConfigCall) : Prop :=
  match call.progress with
  | .created => True
  | .locked => s.Behind call.added_client s.curl_clients_active ∧ s.Owes call.added_client
  | .read previous =>
      s.Behind call.added_client previous ∧ previous = s.curl_clients_active ∧
        s.Owes call.added_client
  | .updated previous =>
      s.Behind call.added_client previous ∧ s.curl_clients_active = s.live.card ∧
        s.Owes call.added_client
  | .tested => s.Settled

/-- The client is live: the constructor's call has its lock, and the destructor's has not. -/
def Live : ClientLife → Prop
  | .unborn | .destroyed => False
  | .constructed => True
  | .configuring call =>
      match call.progress with
      | .created => call.added_client = false
      | _ => call.added_client = true

/-- The calls come one after the other, and each finds what the one before has left. -/
structure Orderly (s : GlobalState Client) : Prop where
  alone : ∀ c d, s.Inside c → s.Inside d → c = d
  live : ∀ c, c ∈ s.live ↔ Live (s.lives c)
  balance : s.rises = s.falls + if s.live.card = 0 then 0 else 1
  idle : (∀ c, ¬ s.Inside c) → s.Settled
  working : ∀ c call, s.lives c = .configuring call → s.Working call

omit [DecidableEq Client] in
lemma orderly_start : (start : GlobalState Client).Orderly where
  alone c d hc := by
    rcases hc with ⟨call, hlife, _⟩
    cases hlife
  live c := by simp [start, Live]
  balance := rfl
  idle _ := by simp [start, Settled]
  working c call hlife := by cases hlife

/-! ## One step -/

lemma live_configuring (hin : call.progress ≠ .created) :
    Live (.configuring call) ↔ call.added_client = true := by
  rcases call with ⟨added_client, mutex, _ | _⟩ <;> simp [Live] at hin ⊢

omit [DecidableEq Client] in
/-- With one call inside, the invariant is about that call. -/
lemma orderly_of_only (hself : s.lives c = .configuring call) (hin : call.progress ≠ .created)
    (honly : ∀ d, s.Inside d → d = c) (hlive : ∀ d, d ∈ s.live ↔ Live (s.lives d))
    (hbalance : s.rises = s.falls + if s.live.card = 0 then 0 else 1)
    (hworking : s.Working call) : s.Orderly := by
  refine ⟨?_, hlive, hbalance, ?_, ?_⟩
  · intro d e hd he
    rw [honly d hd, honly e he]
  · intro hnone
    exact absurd ⟨call, hself, hin⟩ (hnone c)
  · intro d call' hd
    by_cases hcreated : call'.progress = .created
    · simp [Working, hcreated]
    · have hdc := honly d ⟨call', hd, hcreated⟩
      subst hdc
      rw [hself, ClientLife.configuring.injEq] at hd
      exact hd ▸ hworking

/-- A call that is inside goes on; no other call is inside to see it. -/
lemma Orderly.advance (ho : s.Orderly) (hlife : s.lives c = .configuring call)
    (hin : call.progress ≠ .created) (call' : ConfigCall)
    (hadded : call'.added_client = call.added_client) (hin' : call'.progress ≠ .created)
    (hlives : t.lives = Function.update s.lives c (.configuring call')) (hlive : t.live = s.live)
    (hrises : t.rises = s.rises) (hfalls : t.falls = s.falls) (hworking : t.Working call') :
    t.Orderly := by
  have hself : t.lives c = .configuring call' := by rw [hlives, Function.update_self]
  refine orderly_of_only hself hin' ?_ ?_ ?_ hworking
  · intro d hd
    by_contra hne
    exact hne (ho.alone d c ((inside_other hlives hne).mp hd) ⟨call, hlife, hin⟩)
  · intro d
    rw [hlive, ho.live]
    by_cases hd : d = c
    · subst hd
      rw [hself, hlife, live_configuring hin, live_configuring hin', hadded]
    · rw [hlives, Function.update_of_ne hd]
  · rw [hrises, hfalls, hlive]
    exact ho.balance

/-- A call that only begins changes nothing for the others. -/
lemma Orderly.enter (ho : s.Orderly) {added_client : Bool}
    (hlife : s.lives c = if added_client then .unborn else .constructed) :
    (s.enter c added_client).Orderly := by
  have hself : (s.enter c added_client).lives c =
      .configuring ⟨added_client, s.mutexes.length, .created⟩ := lives_setLife_self _ _ _
  have hother : ∀ d, d ≠ c → (s.enter c added_client).lives d = s.lives d :=
    fun d hne => lives_setLife_other hne
  have hnot : ¬ s.Inside c := by
    rintro ⟨call, hcall, _⟩
    rw [hlife] at hcall
    split at hcall <;> cases hcall
  have hinside : ∀ d, (s.enter c added_client).Inside d ↔ s.Inside d := by
    intro d
    by_cases hd : d = c
    · subst hd
      exact iff_of_false (not_inside_of_created hself rfl) hnot
    · exact inside_other rfl hd
  refine ⟨?_, ?_, ho.balance, ?_, ?_⟩
  · intro d e hd he
    exact ho.alone d e ((hinside d).mp hd) ((hinside e).mp he)
  · intro d
    by_cases hd : d = c
    · subst hd
      rw [hself]
      refine (ho.live d).trans ?_
      rw [hlife]
      cases added_client <;> simp [Live]
    · rw [hother d hd]
      exact ho.live d
  · intro hnone
    exact ho.idle fun d hd => hnone d ((hinside d).mpr hd)
  · intro d call hd
    by_cases hdc : d = c
    · subst hdc
      rw [hself, ClientLife.configuring.injEq] at hd
      subst hd
      trivial
    · rw [hother d hdc] at hd
      exact ho.working d call hd

/-- The numbers when a call takes its lock: the live clients are one more or one less. -/
lemma locked_counts (s : GlobalState Client) {added_client : Bool} (mutex : ℕ)
    (m : SharedMutexPosix Client) (hmem : c ∈ s.live ↔ added_client = false) :
    let t := s.locked c ⟨added_client, mutex, .created⟩ m
    t.live.card + (if added_client then 0 else 1) = s.live.card + (if added_client then 1 else 0) ∧
      t.rises = s.rises + (if added_client ∧ t.live.card = 1 then 1 else 0) ∧
      t.falls = s.falls + (if ¬ added_client ∧ t.live.card = 0 then 1 else 0) := by
  cases added_client with
  | true =>
      have hnew : c ∉ s.live := by simp [hmem]
      by_cases hfirst : s.live = ∅ <;>
        simp [locked, setLife, nowLive, Finset.card_insert_of_notMem hnew, hfirst]
  | false =>
      have hold : c ∈ s.live := by simp [hmem]
      have hpos := Finset.card_pos.mpr ⟨c, hold⟩
      by_cases hlast : s.live.erase c = ∅
      · have hcard := congrArg Finset.card hlast
        rw [Finset.card_erase_of_mem hold, Finset.card_empty] at hcard
        simp [locked, setLife, nowLive, hlast]
        omega
      · have hcard := Finset.card_ne_zero.mpr (Finset.nonempty_iff_ne_empty.mpr hlast)
        rw [Finset.card_erase_of_mem hold] at hcard
        simp [locked, setLife, nowLive, hlast, Finset.card_erase_of_mem hold]
        omega

/-- A call that finds nobody inside and takes its lock. -/
lemma Orderly.locked (ho : s.Orderly) {added_client : Bool} {mutex : ℕ}
    {m : SharedMutexPosix Client}
    (hlife : s.lives c = .configuring ⟨added_client, mutex, .created⟩)
    (hnone : ∀ d, ¬ s.Inside d) :
    (s.locked c ⟨added_client, mutex, .created⟩ m).Orderly := by
  have hmem : c ∈ s.live ↔ added_client = false := by simp [ho.live, hlife, Live]
  have hcounts := locked_counts s mutex m hmem
  have hlive : (s.locked c ⟨added_client, mutex, .created⟩ m).live = s.nowLive c added_client := rfl
  have hlives : (s.locked c ⟨added_client, mutex, .created⟩ m).lives =
      Function.update s.lives c (.configuring ⟨added_client, mutex, .locked⟩) := rfl
  have hactive' : (s.locked c ⟨added_client, mutex, .created⟩ m).curl_clients_active =
      s.curl_clients_active := rfl
  have hinits' : (s.locked c ⟨added_client, mutex, .created⟩ m).inits = s.inits := rfl
  have hcleanups' : (s.locked c ⟨added_client, mutex, .created⟩ m).cleanups = s.cleanups := rfl
  generalize s.locked c ⟨added_client, mutex, .created⟩ m = t
    at hcounts hlive hlives hactive' hinits' hcleanups' ⊢
  rcases ho.idle hnone with ⟨hactive, hinits, hcleanups⟩
  rcases hcounts with ⟨hcard, hrises, hfalls⟩
  have hself : t.lives c = .configuring ⟨added_client, mutex, .locked⟩ := by
    rw [hlives, Function.update_self]
  have hbalance := ho.balance
  refine orderly_of_only hself (by simp) ?_ ?_ ?_ ⟨?_, ?_, ?_⟩
  · intro d hd
    by_contra hne
    exact hnone d ((inside_other hlives hne).mp hd)
  · intro d
    rw [hlive]
    by_cases hd : d = c
    · subst hd
      rw [hself]
      cases added_client <;> simp [nowLive, Live]
    · rw [hlives, Function.update_of_ne hd, ← ho.live]
      cases added_client <;> simp [nowLive, hd]
  · rw [hrises, hfalls, hbalance]
    cases added_client <;> simp [-Finset.card_eq_zero] at hcard ⊢ <;> split_ifs <;> omega
  · rw [Behind, hactive', hactive]
    cases added_client <;> simp at hcard ⊢ <;> omega
  · rw [hinits', hrises, hinits]
  · rw [hcleanups', hfalls, hcleanups]

/-- A call that has done its work leaves. -/
lemma Orderly.unlocked (ho : s.Orderly) {added_client : Bool} {mutex : ℕ}
    (hlife : s.lives c = .configuring ⟨added_client, mutex, .tested⟩)
    (mutexes : List (SharedMutexPosix Client)) :
    ({ s with mutexes := mutexes }.setLife c
      (if added_client then .constructed else .destroyed)).Orderly := by
  generalize hlife' : (if added_client then ClientLife.constructed else .destroyed) = life
  have hout : ∀ call, life ≠ .configuring call := by
    cases added_client <;> simp [← hlife']
  set t := { s with mutexes := mutexes }.setLife c life
  have hself : t.lives c = life := lives_setLife_self _ _ _
  have hnone : ∀ d, ¬ t.Inside d := by
    intro d hd
    by_cases hdc : d = c
    · subst hdc
      rcases hd with ⟨call, hd, _⟩
      exact hout call (hself ▸ hd)
    · exact hdc (ho.alone d c ((inside_other rfl hdc).mp hd) ⟨_, hlife, by simp⟩)
  refine ⟨fun d _ hd => absurd hd (hnone d), ?_, ho.balance, fun _ => ho.working c _ hlife, ?_⟩
  · intro d
    refine (ho.live d).trans ?_
    by_cases hd : d = c
    · subst hd
      rw [hself, hlife, live_configuring (by simp), ← hlife']
      cases added_client <;> simp [Live]
    · rw [show t.lives d = s.lives d from lives_setLife_other hd]
  · intro d call hd
    by_cases hcreated : call.progress = .created
    · simp [Working, hcreated]
    · exact absurd ⟨call, hd, hcreated⟩ (hnone d)

theorem orderly_step {a : ConfigAction Client} (ho : s.Orderly) (ht : s.step a = some t)
    (hlocks : s.LocksAlone a) : t.Orderly := by
  cases moves_of_step ht with
  | construct hlife => exact ho.enter (by simp [hlife])
  | destroy hlife => exact ho.enter (by simp [hlife])
  | lock hlife => exact ho.locked hlife hlocks
  | read hlife =>
      rcases ho.working _ _ hlife with ⟨hbehind, howes⟩
      exact ho.advance hlife (by simp) ⟨_, _, .read _⟩ rfl (by simp) rfl rfl rfl rfl
        ⟨hbehind, rfl, howes⟩
  | @update c added_client mutex previous hlife =>
      rcases ho.working _ _ hlife with ⟨hbehind, hprevious, howes⟩
      refine ho.advance hlife (by simp) ⟨_, _, .updated _⟩ rfl (by simp) rfl rfl rfl rfl
        ⟨hbehind, ?_, howes⟩
      show updateActive added_client s.curl_clients_active = s.live.card
      simp only [Behind, hprevious] at hbehind
      cases added_client <;> simp [updateActive] at hbehind ⊢ <;> omega
  | @test c added_client mutex previous hlife =>
      rcases ho.working _ _ hlife with ⟨hbehind, hactive, hinits, hcleanups⟩
      refine ho.advance hlife (by simp) ⟨_, _, .tested⟩ rfl (by simp) rfl rfl rfl rfl
        ⟨hactive, ?_, ?_⟩
      · show (if previous = 0 ∧ s.curl_clients_active = 1 then s.inits + 1 else s.inits) = s.rises
        simp only [Behind] at hbehind
        rw [← hinits]
        cases added_client with
        | true =>
            simp only [if_true, true_and] at hbehind ⊢
            split_ifs <;> omega
        | false =>
            simp at hbehind ⊢
            omega
      · show (if ¬ (previous = 0 ∧ s.curl_clients_active = 1) ∧ previous = 1 ∧
          s.curl_clients_active = 0 then s.cleanups + 1 else s.cleanups) = s.falls
        simp only [Behind] at hbehind
        rw [← hcleanups]
        cases added_client with
        | true =>
            simp at hbehind ⊢
            omega
        | false =>
            simp [-Finset.card_eq_zero] at hbehind ⊢
            split_ifs <;> omega
  | unlock hlife => exact ho.unlocked hlife _

omit [DecidableEq Client] in
/-- A call inside owes nothing while there is a constructed client. -/
lemma Orderly.initialised (ho : s.Orderly) (hlife : s.lives c = .constructed) :
    s.Initialised := by
  have hmem : c ∈ s.live := by simp [ho.live, hlife, Live]
  have hcard := Finset.card_pos.mpr ⟨c, hmem⟩
  have hbalance := ho.balance
  rw [if_neg (by omega)] at hbalance
  by_cases hnone : ∀ d, ¬ s.Inside d
  · rcases ho.idle hnone with ⟨_, hinits, hcleanups⟩
    rw [Initialised, hinits, hcleanups, hbalance]
  · simp only [not_forall, not_not] at hnone
    rcases hnone with ⟨d, call, hd, hin⟩
    have hworking := ho.working d call hd
    have howed : call.progress = .tested ∨ s.Owes call.added_client := by
      rw [Working] at hworking
      split at hworking <;> simp_all
    rcases howed with htested | ⟨hinits, hcleanups⟩
    · rw [Working, htested] at hworking
      rw [Initialised, hworking.2.1, hworking.2.2, hbalance]
    · have hmore : ¬ (call.added_client = true ∧ s.live.card = 1) := by
        rintro ⟨hadded, hone⟩
        have hdmem : d ∈ s.live := by
          rw [ho.live, hd, live_configuring hin]
          exact hadded
        have hdc : d = c := Finset.card_le_one.mp (by omega) d hdmem c hmem
        subst hdc
        rw [hlife] at hd
        cases hd
      rw [if_neg hmore] at hinits
      rw [if_neg (by omega)] at hcleanups
      rw [Initialised]
      omega

omit [DecidableEq Client] in
lemma Orderly.followsClients (ho : s.Orderly) : s.FollowsClients where
  alone := ho.alone
  inits hnone := (ho.idle hnone).2.1
  cleanups hnone := (ho.idle hnone).2.2
  initialised _ hlife := ho.initialised hlife

/-- A call that takes its lock beside another is inside beside it. -/
lemma locksAlone_of_alone {a : ConfigAction Client} (ht : s.step a = some t)
    (halone : ∀ c d, t.Inside c → t.Inside d → c = d) : s.LocksAlone a := by
  cases moves_of_step ht with
  | @lock c added_client mutex m hlife =>
      rintro d ⟨call, hd, hin⟩
      have hne : d ≠ c := by
        rintro rfl
        exact not_inside_of_created hlife rfl ⟨call, hd, hin⟩
      refine hne (halone d c ⟨call, ?_, hin⟩ ⟨_, lives_setLife_self _ _ _, by simp⟩)
      exact (lives_setLife_other hne).trans hd
  | _ => trivial

/-- **When libcurl follows the number of live clients.**  In every history: no two calls are inside
at once, and libcurl is set up and cleaned up as often as the number of live clients leaves 0 and
comes back, after every step, if and only if no call takes its lock while another is inside. -/
theorem init_follows_clients_iff (acts : List (ConfigAction Client)) :
    EveryStep step (fun _ _ t => t.FollowsClients) start acts ↔
      EveryStep step (fun s a _ => s.LocksAlone a) start acts := by
  refine everyStep_iff (I := Orderly) ?_ ?_ orderly_start
  · intro s a t ho ht hlocks
    have ho' := orderly_step ho ht hlocks
    exact ⟨ho', ho'.followsClients⟩
  · intro s a t _ ht hfollows
    exact locksAlone_of_alone ht hfollows.alone

/-- Two clients are constructed at once, and each locks its own mutex. -/
theorem two_calls_inside :
    ¬ ∀ acts : List (ConfigAction ℕ), EveryStep step (fun _ _ t => t.FollowsClients) start acts := by
  intro hall
  have hfollows := (hall ([.construct 0, .construct 1, .lock 0] ++ [.lock 1])).at rfl rfl
  exact absurd (hfollows.alone 0 1 ⟨_, rfl, by simp⟩ ⟨_, rfl, by simp⟩) (by decide)

end GlobalState

end FFNetwork
