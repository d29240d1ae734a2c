import FFNetwork.Lib.Simulation
import FFNetwork.Net.RequestMemory

/-!
# Requests and the tasks that borrow their bodies

A program makes requests, copies, changes and shares them, makes tasks from them and lets both go,
in any order, while libcurl sends what the tasks have told it to send.  The one program runs over
two kinds of requests: objects with blocks of the heap, as in the source, and plain values, where a
task has a copy of the body.

* `RequestStore.step` — the program, over any `RequestOps`; `heapOps`, `valueOps`.
* `Related` — a store of objects and a store of values; `Alike.change`, `related_step`.
* **`requests_by_value`** — over either one, the program sees and sends the same, up to the first
  undefined behaviour, which comes at the same action.
* **`bodies_accounted`** — every block is the body of one request, and when an action is undefined.
-/

namespace FFNetwork

open StepSystem Slots

/-- A change to a request through its reference. -/
inductive RequestEdit
  | url (text : StdString)
  | method (name : StdString)
  | headers (header_map : HeaderMap)

/-- What can be done with requests `O` and handles `H` over a memory `M`; `none` is undefined
behaviour. -/
structure RequestOps (M O H : Type) where
  create : StdString → HeaderMap → O
  headers : O → HeaderMap
  edit : RequestEdit → O → O
  copy : M → O → HeaderMap → Option (M × O)
  setData : M → O → List UInt8 → Option (M × O)
  /-- `setData` with the pointer that `data` of the request itself returns. -/
  setOwnData : M → O → ℕ → Option (M × O)
  /-- `setData` with the pointer that `data` of the second request returns. -/
  setDataOf : M → O → O → ℕ → Option (M × O)
  dataLength : O → ℕ
  destroy : M → O → Option M
  data : M → O → Option (List UInt8)
  hash : M → O → Option StdString
  construct : M → O → Option H
  identifier : H → StdString
  /-- What libcurl sends for a handle made from the request. -/
  send : M → O → H → Option Transfer

/-- What a program gets to see, and what libcurl sends. -/
inductive Observation
  | data (request : ℕ) (bytes : List UInt8)
  | hash (request : ℕ) (hash : StdString)
  | identifier (task : ℕ) (identifier : StdString)
  | sent (task : ℕ) (transfer : Transfer)

/-- What a program does with requests and tasks, by their numbers. -/
inductive RequestAction
  | create (url : StdString) (header_map : HeaderMap)
  | copy (request : ℕ) (header_map : HeaderMap)
  | edit (request : ℕ) (change : RequestEdit)
  | setData (request : ℕ) (bytes : List UInt8)
  | setDataOf (request source data_length : ℕ)
  | data (request : ℕ)
  | hash (request : ℕ)
  | share (request : ℕ)
  | release (request : ℕ)
  | createTask (request : ℕ)
  | identifier (task : ℕ)
  | send (task : ℕ)
  | destroyTask (task : ℕ)

/-- The requests with the number of pointers that users have, and the tasks with the number of the
request that they point to. -/
structure RequestStore (M O H : Type) where
  memory : M
  requests : List (Option (O × ℕ))
  tasks : List (Option (ℕ × H))
  seen : List Observation
  undefined : Bool

namespace RequestStore

section Program

variable {M O H : Type} (ops : RequestOps M O H)

/-- No requests and no tasks. -/
def empty (memory : M) : RequestStore M O H := ⟨memory, [], [], [], false⟩

/-- A request that a user points to. -/
def held (s : RequestStore M O H) (request : ℕ) : Option (O × ℕ) :=
  (live s.requests request).filter fun x => 0 < x.2

/-- The program goes on with a result if there is one. -/
def goOn {α : Type} (s : RequestStore M O H) (result : Option α)
    (next : α → RequestStore M O H) : RequestStore M O H :=
  match result with
  | none => { s with undefined := true }
  | some x => next x

/-- The request in its slot, with the memory it leaves. -/
def put (s : RequestStore M O H) (request users : ℕ) (x : M × O) : RequestStore M O H :=
  { s with memory := x.1, requests := s.requests.set request (some (x.2, users)) }

/-- The program sees something. -/
def see (s : RequestStore M O H) (x : Observation) : RequestStore M O H :=
  { s with seen := s.seen ++ [x] }

/-- A task has a pointer to the request. -/
def inTask (s : RequestStore M O H) (request : ℕ) : Bool :=
  s.tasks.any fun x => x.any fun y => y.1 == request

/-- A `shared_ptr` to the request is gone. -/
def collect (s : RequestStore M O H) (request : ℕ) : RequestStore M O H :=
  match live s.requests request with
  | none => s
  | some (o, users) =>
      if users = 0 ∧ s.inTask request = false then
        s.goOn (ops.destroy s.memory o) fun memory =>
          { s with memory, requests := s.requests.set request none }
      else s

/-- An action while everything has been defined. -/
def perform (s : RequestStore M O H) : RequestAction → Option (RequestStore M O H)
  | .create url header_map =>
      some { s with requests := s.requests ++ [some (ops.create url header_map, 1)] }
  | .copy request header_map =>
      (s.held request).bind fun x =>
        if (ops.headers x.1).Same header_map then
          some (s.goOn (ops.copy s.memory x.1 header_map) fun y =>
            { s with memory := y.1, requests := s.requests ++ [some (y.2, 1)] })
        else none
  | .edit request change =>
      (s.held request).map fun x => s.put request x.2 (s.memory, ops.edit change x.1)
  | .setData request bytes =>
      (s.held request).map fun x =>
        s.goOn (ops.setData s.memory x.1 bytes) (s.put request x.2)
  | .setDataOf request source data_length =>
      (s.held request).bind fun x =>
        (s.held source).bind fun y =>
          if data_length ≤ ops.dataLength y.1 then
            some (s.goOn
              (if request = source then ops.setOwnData s.memory x.1 data_length
              else ops.setDataOf s.memory x.1 y.1 data_length) (s.put request x.2))
          else none
  | .data request =>
      (s.held request).map fun x =>
        s.goOn (ops.data s.memory x.1) fun bytes => s.see (.data request bytes)
  | .hash request =>
      (s.held request).map fun x =>
        s.goOn (ops.hash s.memory x.1) fun hash => s.see (.hash request hash)
  | .share request =>
      (live s.requests request).map fun x => s.put request (x.2 + 1) (s.memory, x.1)
  | .release request =>
      (s.held request).map fun x => (s.put request (x.2 - 1) (s.memory, x.1)).collect ops request
  | .createTask request =>
      (s.held request).map fun x =>
        s.goOn (ops.construct s.memory x.1) fun handle =>
          { s with tasks := s.tasks ++ [some (request, handle)] }
  | .identifier task =>
      (live s.tasks task).map fun x => s.see (.identifier task (ops.identifier x.2))
  | .send task =>
      (live s.tasks task).bind fun x =>
        (live s.requests x.1).map fun y =>
          s.goOn (ops.send s.memory y.1 x.2) fun transfer => s.see (.sent task transfer)
  | .destroyTask task =>
      (live s.tasks task).map fun x =>
        ({ s with tasks := s.tasks.set task none }).collect ops x.1

/-- The step function; behind undefined behaviour there is no next step. -/
def step (s : RequestStore M O H) (a : RequestAction) : Option (RequestStore M O H) :=
  if s.undefined then none else s.perform ops a

end Program

end RequestStore

/-! ## Objects and values -/

section Ops

variable (sha256 : StdString → StdString)

/-- The edit of an object, which leaves the memory alone. -/
def RequestEdit.onObject (o : RequestObject) : RequestEdit → RequestObject
  | .url text => { o with url_ := text }
  | .method name => { o with method_ := name }
  | .headers header_map => { o with headers_ := header_map }

/-- The edit of a value. -/
def RequestEdit.onValue (r : RequestImpl) : RequestEdit → RequestImpl
  | .url text => { r with url_ := text }
  | .method name => r.setMethod name
  | .headers header_map => { r with headers_ := header_map }

/-- The pointer that `RequestImpl::data` returns. -/
def RequestObject.dataPointer (o : RequestObject) : DataPointer :=
  match o.data_ with
  | none => .outside []
  | some p => .block p

/-- The requests of the source. -/
def heapOps : RequestOps Memory RequestObject HandleInfo where
  create := .create
  headers := RequestObject.headers_
  edit change o := change.onObject o
  copy := RequestObject.copy
  setData m o bytes := o.setData m (.outside bytes) bytes.length
  setOwnData m o n := o.setData m o.dataPointer n
  setDataOf m o o' n := o.setData m o'.dataPointer n
  dataLength := RequestObject.data_length_
  destroy := RequestObject.destroy
  data m o := o.data m
  hash m o := o.hash sha256 m
  construct m o := o.constructCurlHandle sha256 m
  identifier := HandleInfo.request_hash
  send m _ h := h.send m

/-- A request as a value, with the number of calls of `setData`. -/
structure RequestValue where
  request : RequestImpl
  edits : ℕ

/-- A handle with a body of its own, and how often `setData` had been called before it was made. -/
structure HandleValue where
  request_hash : StdString
  options : HandleOptions
  body : List UInt8
  edits : ℕ

/-- The handle of a task for the request. -/
def HandleValue.make (w : RequestValue) : HandleValue where
  request_hash := w.request.hash sha256
  options := handleOptions w.request.url_ w.request.headers_ w.request.method_
  body := w.request.data
  edits := w.edits

/-- What libcurl has been given is sent, unless there is a body and the request has been given
another one since. -/
def HandleValue.send (w : RequestValue) (g : HandleValue) : Option Transfer :=
  if g.body = [] ∨ g.edits = w.edits then some ⟨g.options, g.body⟩ else none

/-- Requests without memory.  Only a request's own body cannot be given to it. -/
def valueOps : RequestOps Unit RequestValue HandleValue where
  create url header_map := ⟨.create url header_map, 0⟩
  headers w := w.request.headers_
  edit change w := { w with request := change.onValue w.request }
  copy _ w header_map := some ((), ⟨w.request.copy header_map, 0⟩)
  setData _ w bytes := some ((), ⟨w.request.setData bytes, w.edits + 1⟩)
  setOwnData _ w n := if n = 0 then some ((), ⟨w.request.setData [], w.edits + 1⟩) else none
  setDataOf _ w w' n := some ((), ⟨w.request.setData (w'.request.data.take n), w.edits + 1⟩)
  dataLength w := w.request.data.length
  destroy _ _ := some ()
  data _ w := some w.request.data
  hash _ w := some (w.request.hash sha256)
  construct _ w := some (.make sha256 w)
  identifier := HandleValue.request_hash
  send _ w g := g.send w

end Ops

/-! ## A store of objects and a store of values -/

/-- The store of the source. -/
abbrev HeapStore := RequestStore Memory RequestObject HandleInfo

/-- The store without memory. -/
abbrev ValueStore := RequestStore Unit RequestValue HandleValue

/-- An object and a value with as many pointers to them. -/
structure SlotAlike (m : Memory) (x : RequestObject × ℕ) (y : RequestValue × ℕ) : Prop where
  stands : x.1.Stands m y.1.request
  users : x.2 = y.2

/-- A handle that points to the body of its request, and one with a copy.  Once `setData` has been
called, what the handle points to is gone. -/
structure HandleAlike (m : Memory) (o : RequestObject) (w : RequestValue) (h : HandleInfo)
    (g : HandleValue) : Prop where
  request_hash : h.request_hash = g.request_hash
  options : h.options = g.options
  edits : g.edits ≤ w.edits
  empty : g.body = [] → h.postFields = none
  points : g.body ≠ [] → ∃ p < m.size, h.postFields = some (p, g.body.length) ∧
    (g.edits = w.edits → o.data_ = some p ∧ w.request.data = g.body) ∧
      (g.edits ≠ w.edits → m.contents p = none)

/-- The block of each request. -/
def RequestStore.owns (s : HeapStore) (request : ℕ) : Option ℕ :=
  (live s.requests request).bind fun x => x.1.data_

/-- A task of each store: they have the same request, and it is there. -/
def TaskAlike (s : HeapStore) (v : ValueStore) (x : ℕ × HandleInfo) (y : ℕ × HandleValue) : Prop :=
  x.1 = y.1 ∧ ∃ o w users, live s.requests x.1 = some (o, users) ∧
    live v.requests x.1 = some (w, users) ∧ HandleAlike s.memory o w x.2 y.2

/-- The requests and the tasks are the same. -/
structure Alike (s : HeapStore) (v : ValueStore) : Prop where
  accounted : s.memory.Accounted s.owns
  requests : ∀ i, Option.Rel (SlotAlike s.memory) (live s.requests i) (live v.requests i)
  requests_length : s.requests.length = v.requests.length
  tasks : ∀ t, Option.Rel (TaskAlike s v) (live s.tasks t) (live v.tasks t)
  tasks_length : s.tasks.length = v.tasks.length

/-- Both have seen the same, and are alike unless their behaviour is undefined. -/
structure Related (s : HeapStore) (v : ValueStore) : Prop where
  undefined : s.undefined = v.undefined
  seen : s.seen = v.seen
  alike : s.undefined = false → Alike s v

variable {s s' : HeapStore} {v v' : ValueStore} {i j t : ℕ} {sha256 : StdString → StdString}

lemma Alike.exists_slot (al : Alike s v) {o : RequestObject} {users : ℕ}
    (h : live s.requests i = some (o, users)) :
    ∃ w, live v.requests i = some (w, users) ∧ o.Stands s.memory w.request := by
  rcases rel_cases (al.requests i) with ⟨hnone, -⟩ | ⟨x, ⟨w, users'⟩, hx, hw, hslot⟩
  · rw [hnone] at h
    cases h
  · rw [h, Option.some.injEq] at hx
    subst hx
    have husers : users = users' := hslot.users
    exact ⟨w, by rw [hw, husers], hslot.stands⟩

lemma Alike.live_none_iff (al : Alike s v) :
    live s.requests i = none ↔ live v.requests i = none := by
  rcases rel_cases (al.requests i) with ⟨hnone, hnone'⟩ | ⟨x, y, hx, hy, -⟩
  · rw [hnone, hnone']
    simp
  · simp [hx, hy]

lemma owns_eq {o : RequestObject} {users : ℕ} (h : live s.requests i = some (o, users)) :
    s.owns i = o.data_ := by
  rw [RequestStore.owns, h]
  rfl

/-- Whoever looks for a request finds it in both stores or in none. -/
lemma Alike.held_cases (al : Alike s v) (i : ℕ) :
    s.held i = none ∧ v.held i = none ∨ ∃ o w users, s.held i = some (o, users) ∧
      v.held i = some (w, users) ∧ live s.requests i = some (o, users) ∧
        live v.requests i = some (w, users) ∧ o.Stands s.memory w.request := by
  cases hlive : live s.requests i with
  | none =>
      refine Or.inl ⟨?_, ?_⟩
      · rw [RequestStore.held, hlive]
        rfl
      · rw [RequestStore.held, al.live_none_iff.mp hlive]
        rfl
  | some x =>
      rcases x with ⟨o, users⟩
      rcases al.exists_slot hlive with ⟨w, hw, hstands⟩
      by_cases husers : 0 < users
      · refine Or.inr ⟨o, w, users, ?_, ?_, rfl, hw, hstands⟩
        · simp [RequestStore.held, hlive, husers]
        · simp [RequestStore.held, hw, husers]
      · have hzero : users = 0 := Nat.eq_zero_of_not_pos husers
        subst hzero
        exact Or.inl ⟨by simp [RequestStore.held, hlive], by simp [RequestStore.held, hw]⟩

/-- Whoever looks for a task finds it in both stores or in none. -/
lemma Alike.task_cases (al : Alike s v) (t : ℕ) :
    live s.tasks t = none ∧ live v.tasks t = none ∨ ∃ i h g, live s.tasks t = some (i, h) ∧
      live v.tasks t = some (i, g) ∧ TaskAlike s v (i, h) (i, g) := by
  rcases rel_cases (al.tasks t) with hnone | ⟨⟨i, h⟩, ⟨i', g⟩, hs, hv, htask⟩
  · exact Or.inl hnone
  · have hi : i = i' := htask.1
    subst hi
    exact Or.inr ⟨i, h, g, hs, hv, htask⟩

/-- What a step does to the memory besides the request it is about. -/
lemma HandleAlike.replaces {m m' : Memory} {o : RequestObject} {w : RequestValue} {h : HandleInfo}
    {g : HandleValue} {old new : Option ℕ} (ha : HandleAlike m o w h g)
    (hr : m.Replaces old m' new) : HandleAlike m' o w h g where
  request_hash := ha.request_hash
  options := ha.options
  edits := ha.edits
  empty := ha.empty
  points hbody := by
    rcases ha.points hbody with ⟨p, hp, hfields, hcurrent, hstale⟩
    refine ⟨p, hp.trans_le hr.size, hfields, hcurrent, fun hne => ?_⟩
    by_cases hold : old = some p
    · exact hr.freed p hold
    · rw [hr.others p hp hold, hstale hne]

/-- A handle is made from what its request has. -/
lemma handleAlike_construct {m : Memory} {o : RequestObject} {w : RequestValue}
    (hs : o.Stands m w.request) :
    ∃ h, o.constructCurlHandle sha256 m = some h ∧ HandleAlike m o w h (.make sha256 w) := by
  have hconstruct : o.constructCurlHandle sha256 m = some
      { request_hash := w.request.hash sha256
        options := handleOptions o.url_ o.headers_ o.method_
        postFields :=
          if o.data_length_ = 0 then none else o.data_.map fun p => (p, o.data_length_) } := by
    rw [RequestObject.constructCurlHandle, hs.hash_eq]
    rfl
  refine ⟨_, hconstruct, rfl, by rw [hs.url, hs.headers, hs.method]; rfl, le_rfl, fun hbody => ?_,
    fun hbody => ?_⟩
  · have hzero : o.data_length_ = 0 := hs.length.trans (List.length_eq_zero_iff.mpr hbody)
    exact if_pos hzero
  · have hne : o.data_ ≠ none := fun hnone => hbody (hs.null.mp hnone)
    rcases Option.ne_none_iff_exists'.mp hne with ⟨p, hp⟩
    refine ⟨p, hs.lt_size hp, ?_, fun _ => ⟨hp, rfl⟩, fun hstale => absurd rfl hstale⟩
    show (if o.data_length_ = 0 then none else o.data_.map fun p => (p, o.data_length_)) = _
    rw [if_neg (hs.pos hp).ne', hp, hs.length]
    rfl

/-- Both handles send the same, or neither sends anything. -/
lemma HandleAlike.send {m : Memory} {o : RequestObject} {w : RequestValue} {h : HandleInfo}
    {g : HandleValue} (ha : HandleAlike m o w h g) (hs : o.Stands m w.request) :
    h.send m = g.send w := by
  by_cases hbody : g.body = []
  · rw [HandleInfo.send, ha.empty hbody, HandleValue.send, if_pos (Or.inl hbody), ha.options, hbody]
  · rcases ha.points hbody with ⟨p, -, hfields, hcurrent, hstale⟩
    rw [HandleInfo.send, hfields, HandleValue.send]
    by_cases hedits : g.edits = w.edits
    · rcases hcurrent hedits with ⟨hp, hdata⟩
      have hread := hs.body p hp
      rw [hs.length, hdata] at hread
      rw [if_pos (Or.inr hedits)]
      simp only [hread, Option.map_some, ha.options]
    · rw [if_neg (not_or.mpr ⟨hbody, hedits⟩)]
      simp only [BlockMemory.read_of_contents_none (hstale hedits), Option.map_none]

/-- **One request changes.**  Its block may be replaced, or it is a new one, or it is gone. -/
theorem Alike.change (al : Alike s v) (i : ℕ)
    (hmemory : s.memory.Replaces (s.owns i) s'.memory (s'.owns i) ∨
      s'.memory = s.memory ∧ s'.owns i = s.owns i)
    (hothers : ∀ j ≠ i, live s'.requests j = live s.requests j)
    (hothers' : ∀ j ≠ i, live v'.requests j = live v.requests j)
    (hlength : s'.requests.length = v'.requests.length)
    (hself : Option.Rel (SlotAlike s'.memory) (live s'.requests i) (live v'.requests i))
    (htasks : s'.tasks = s.tasks) (htasks' : v'.tasks = v.tasks)
    (hhandles : ∀ t h g, live s.tasks t = some (i, h) → TaskAlike s v (i, h) (i, g) →
      TaskAlike s' v' (i, h) (i, g)) :
    Alike s' v' := by
  have howns : s'.owns = Function.update s.owns i (s'.owns i) := by
    funext j
    by_cases hj : j = i
    · rw [hj, Function.update_self]
    · rw [Function.update_of_ne hj, RequestStore.owns, hothers j hj, RequestStore.owns]
  have hframe : ∀ j ≠ i, ∀ p, s.owns j = some p → s'.memory.contents p = s.memory.contents p := by
    intro j hj p hp
    rcases hmemory with hr | ⟨hsame, -⟩
    · exact hr.others p (al.accounted.lt_size hp) fun hi => hj (al.accounted.one j i p hp hi)
    · rw [hsame]
  have hother : ∀ j ≠ i, ∀ h g, TaskAlike s v (j, h) (j, g) → TaskAlike s' v' (j, h) (j, g) := by
    rintro j hj h g ⟨-, o, w, users, ho, hw, ha⟩
    refine ⟨rfl, o, w, users, (hothers j hj).trans ho, (hothers' j hj).trans hw, ?_⟩
    rcases hmemory with hr | ⟨hsame, -⟩
    · exact ha.replaces hr
    · rw [hsame]
      exact ha
  refine ⟨?_, fun j => ?_, hlength, fun t => ?_, ?_⟩
  · rcases hmemory with hr | ⟨hsame, hown⟩
    · rw [howns]
      exact al.accounted.replaces hr
    · rw [hsame, howns, hown, Function.update_eq_self]
      exact al.accounted
  · by_cases hj : j = i
    · rw [hj]
      exact hself
    · rw [hothers j hj, hothers' j hj]
      rcases rel_cases (al.requests j) with ⟨hnone, hnone'⟩ | ⟨x, y, hx, hy, hslot⟩
      · rw [hnone, hnone']
        exact .none
      · rw [hx, hy]
        exact .some ⟨hslot.stands.congr fun p hp => hframe j hj p ((owns_eq hx).trans hp),
          hslot.users⟩
  · rw [htasks, htasks']
    rcases al.task_cases t with ⟨hnone, hnone'⟩ | ⟨j, h, g, ht, ht', htask⟩
    · rw [hnone, hnone']
      exact .none
    · rw [ht, ht']
      by_cases hj : j = i
      · subst hj
        exact .some (hhandles t h g ht htask)
      · exact .some (hother j hj h g htask)
  · rw [htasks, htasks']
    exact al.tasks_length

/-- The request has the block and the body that it had. -/
lemma HandleAlike.congr {m : Memory} {o o' : RequestObject} {w w' : RequestValue} {h : HandleInfo}
    {g : HandleValue} (ha : HandleAlike m o w h g) (hdata : o'.data_ = o.data_)
    (hedits : w'.edits = w.edits) (hbody : w'.request.data = w.request.data) :
    HandleAlike m o' w' h g where
  request_hash := ha.request_hash
  options := ha.options
  edits := hedits.symm ▸ ha.edits
  empty := ha.empty
  points hne := by
    rw [hdata, hedits, hbody]
    exact ha.points hne

/-- The request has been given another body. -/
lemma HandleAlike.edited {m m' : Memory} {o o' : RequestObject} {w : RequestValue} {h : HandleInfo}
    {g : HandleValue} (ha : HandleAlike m o w h g) (hr : m.Replaces o.data_ m' o'.data_)
    (request : RequestImpl) : HandleAlike m' o' ⟨request, w.edits + 1⟩ h g where
  request_hash := ha.request_hash
  options := ha.options
  edits := ha.edits.trans (Nat.le_succ _)
  empty := ha.empty
  points hne := by
    rcases ha.points hne with ⟨p, hp, hfields, hcurrent, hstale⟩
    refine ⟨p, hp.trans_le hr.size, hfields, fun heq => ?_, fun _ => ?_⟩
    · exact absurd (heq ▸ ha.edits) (Nat.not_succ_le_self _)
    · by_cases hedits : g.edits = w.edits
      · exact hr.freed p (hcurrent hedits).1
      · by_cases hold : o.data_ = some p
        · exact hr.freed p hold
        · rw [hr.others p hp hold, hstale hedits]

/-- A request is put back into its slot. -/
lemma Alike.put (al : Alike s v) {o o' : RequestObject} {w w' : RequestValue} {users users' : ℕ}
    {m' : Memory} (ho : live s.requests i = some (o, users))
    (hw : live v.requests i = some (w, users))
    (hmemory : s.memory.Replaces o.data_ m' o'.data_ ∨ m' = s.memory ∧ o'.data_ = o.data_)
    (hstands : o'.Stands m' w'.request)
    (hhandles : ∀ h g, HandleAlike s.memory o w h g → HandleAlike m' o' w' h g) :
    Alike (s.put i users' (m', o')) (v.put i users' ((), w')) := by
  have hlive : live (s.put i users' (m', o')).requests i = some (o', users') := live_set_self ho _
  have hlive' : live (v.put i users' ((), w')).requests i = some (w', users') := live_set_self hw _
  refine al.change i ?_ (fun j hj => live_set_of_ne (Ne.symm hj) _)
    (fun j hj => live_set_of_ne (Ne.symm hj) _) ?_ ?_ rfl rfl ?_
  · rw [owns_eq ho, owns_eq hlive]
    exact hmemory
  · simp only [RequestStore.put, List.length_set]
    exact al.requests_length
  · rw [hlive, hlive']
    exact .some ⟨hstands, rfl⟩
  · rintro t h g - ⟨-, o₁, w₁, users₁, ho₁, hw₁, ha⟩
    rw [ho, Option.some.injEq, Prod.mk.injEq] at ho₁
    rw [hw, Option.some.injEq, Prod.mk.injEq] at hw₁
    rcases ho₁ with ⟨rfl, -⟩
    rcases hw₁ with ⟨rfl, -⟩
    exact ⟨rfl, o', w', users', hlive, hlive', hhandles h g ha⟩

/-- A new request. -/
lemma Alike.append (al : Alike s v) {o' : RequestObject} {w' : RequestValue} {m' : Memory}
    (hmemory : s.memory.Replaces none m' o'.data_) (hstands : o'.Stands m' w'.request) :
    Alike { s with memory := m', requests := s.requests ++ [some (o', 1)] }
      { v with memory := (), requests := v.requests ++ [some (w', 1)] } := by
  have hnone : live s.requests s.requests.length = none := by simp [live]
  have hlive := live_append_self s.requests (some (o', 1))
  have hlive' := live_append_self v.requests (some (w', 1))
  rw [← al.requests_length] at hlive'
  refine al.change s.requests.length (Or.inl ?_) (fun j hj => live_append_of_ne hj _)
    (fun j hj => live_append_of_ne (al.requests_length ▸ hj) _) ?_ ?_ rfl rfl ?_
  · have hold : s.owns s.requests.length = none := by rw [RequestStore.owns, hnone]; rfl
    rw [hold, owns_eq hlive]
    exact hmemory
  · simp [al.requests_length]
  · rw [hlive, hlive']
    exact .some ⟨hstands, rfl⟩
  · rintro t h g - ⟨-, o₁, w₁, users₁, ho₁, -⟩
    rw [hnone] at ho₁
    cases ho₁

lemma inTask_iff {M O H : Type} (s : RequestStore M O H) (i : ℕ) :
    s.inTask i = true ↔ ∃ t h, live s.tasks t = some (i, h) := by
  rw [RequestStore.inTask, List.any_eq_true]
  constructor
  · rintro ⟨x, hx, hi⟩
    rcases List.mem_iff_getElem?.mp hx with ⟨t, ht⟩
    rcases x with _ | ⟨j, h⟩
    · cases hi
    · have hj : j = i := by simpa using hi
      exact ⟨t, h, by rw [live, ht, hj]; rfl⟩
  · rintro ⟨t, h, ht⟩
    exact ⟨some (i, h), List.mem_of_getElem? (getElem?_of_live ht), by simp⟩

lemma Alike.inTask_eq (al : Alike s v) (i : ℕ) : s.inTask i = v.inTask i := by
  rw [Bool.eq_iff_iff, inTask_iff, inTask_iff]
  constructor
  · rintro ⟨t, h, ht⟩
    rcases al.task_cases t with ⟨hnone, -⟩ | ⟨j, h', g, hs, hv, -⟩
    · rw [hnone] at ht
      cases ht
    · rw [ht, Option.some.injEq, Prod.mk.injEq] at hs
      exact ⟨t, g, by rw [hv, hs.1]⟩
  · rintro ⟨t, g, ht⟩
    rcases al.task_cases t with ⟨-, hnone⟩ | ⟨j, h, g', hs, hv, -⟩
    · rw [hnone] at ht
      cases ht
    · rw [ht, Option.some.injEq, Prod.mk.injEq] at hv
      exact ⟨t, h, by rw [hs, hv.1]⟩

/-- A request without pointers to it is destroyed in both stores. -/
lemma Related.collect (hr : Related s v) (hdefined : s.undefined = false) (i : ℕ) :
    Related (s.collect (heapOps sha256) i) (v.collect (valueOps sha256) i) := by
  have al := hr.alike hdefined
  cases hlive : live s.requests i with
  | none =>
      rw [RequestStore.collect, RequestStore.collect, hlive, al.live_none_iff.mp hlive]
      exact hr
  | some x =>
      rcases x with ⟨o, users⟩
      rcases al.exists_slot hlive with ⟨w, hw, hstands⟩
      rw [RequestStore.collect, RequestStore.collect, hlive, hw, al.inTask_eq i]
      simp only
      split
      · next hgone =>
          rcases RequestObject.destroy_replaces hstands with ⟨m', hdestroy, hreplaces⟩
          simp only [heapOps, valueOps, hdestroy, RequestStore.goOn]
          refine ⟨hr.undefined, hr.seen, fun _ => ?_⟩
          have hnone : live (s.requests.set i none) i = none := live_set_self hlive _
          refine al.change i (Or.inl ?_) (fun j hj => live_set_of_ne (Ne.symm hj) _)
            (fun j hj => live_set_of_ne (Ne.symm hj) _) ?_ ?_ rfl rfl ?_
          · have hnew : RequestStore.owns
                { s with memory := m', requests := s.requests.set i none } i = none := by
              rw [RequestStore.owns, hnone]
              rfl
            rw [owns_eq hlive, hnew]
            exact hreplaces
          · simp [al.requests_length]
          · rw [hnone, live_set_self hw]
            exact .none
          · intro t h g ht
            have hin := (inTask_iff s i).mpr ⟨t, h, ht⟩
            rw [al.inTask_eq i, hgone.2] at hin
            cases hin
      · exact hr

lemma Related.goOn (hr : Related s v) {α β : Type} {x : Option α} {y : Option β}
    {next : α → HeapStore} {next' : β → ValueStore}
    (hboth : x = none ∧ y = none ∨ ∃ a b, x = some a ∧ y = some b ∧ Related (next a) (next' b)) :
    Related (s.goOn x next) (v.goOn y next') := by
  rcases hboth with ⟨rfl, rfl⟩ | ⟨a, b, rfl, rfl, hnext⟩
  · exact ⟨rfl, hr.seen, fun hdefined => nomatch hdefined⟩
  · exact hnext

/-- Something is seen. -/
lemma Related.see (hr : Related s v) (x : Observation) : Related (s.see x) (v.see x) where
  undefined := hr.undefined
  seen := congrArg (· ++ [x]) hr.seen
  alike hdefined :=
    let al := hr.alike hdefined
    ⟨al.accounted, al.requests, al.requests_length, al.tasks, al.tasks_length⟩

lemma stands_edit {m : Memory} {o : RequestObject} {r : RequestImpl} (hs : o.Stands m r)
    (change : RequestEdit) : (change.onObject o).Stands m (change.onValue r) := by
  rcases hs with ⟨hurl, hheaders, hmethod, hlength, hnull, hbody⟩
  cases change with
  | url text => exact ⟨rfl, hheaders, hmethod, hlength, hnull, hbody⟩
  | method name => exact ⟨hurl, hheaders, rfl, hlength, hnull, hbody⟩
  | headers header_map => exact ⟨hurl, rfl, hmethod, hlength, hnull, hbody⟩

/-- A request is given bytes of the caller. -/
lemma Related.setData (hr : Related s v) (al : Alike s v) {o : RequestObject} {w : RequestValue}
    {users : ℕ} (ho : live s.requests i = some (o, users))
    (hw : live v.requests i = some (w, users)) (hs : o.Stands s.memory w.request)
    {data : DataPointer} {bytes : List UInt8}
    (hread : 0 < bytes.length → ∀ m', s.memory.Replaces o.data_ m' none →
      ∀ n, data.read (m'.malloc n).2 bytes.length = some bytes) :
    Related (s.goOn (o.setData s.memory data bytes.length) (s.put i users))
      (v.put i users ((), ⟨w.request.setData bytes, w.edits + 1⟩)) := by
  rcases RequestObject.setData_stands hs hread with ⟨m', o', hset, hreplaces, hstands⟩
  rw [hset]
  refine ⟨hr.undefined, hr.seen, fun _ => ?_⟩
  exact al.put ho hw (Or.inl hreplaces) hstands fun h g ha => ha.edited hreplaces _

/-- The body of another request can be read after the request's own has been freed. -/
lemma Alike.read_other (al : Alike s v) {o o' : RequestObject} {w' : RequestValue}
    {users users' n : ℕ} (hne : i ≠ j) (ho : live s.requests i = some (o, users))
    (ho' : live s.requests j = some (o', users')) (hs' : o'.Stands s.memory w'.request)
    (hn : n ≤ o'.data_length_) (hpos : 0 < n) {m' : Memory}
    (hr : s.memory.Replaces o.data_ m' none) (k : ℕ) :
    o'.dataPointer.read (m'.malloc k).2 n = some (w'.request.data.take n) := by
  cases hdata : o'.data_ with
  | none =>
      rw [hs'.length, hs'.null.mp hdata, List.length_nil] at hn
      exact absurd hn hpos.not_ge
  | some p =>
      have hold : o.data_ ≠ some p := by
        intro hp
        exact hne (al.accounted.one i j p (by rw [owns_eq ho, hp]) (by rw [owns_eq ho', hdata]))
      have hread := BlockMemory.read_take (hs'.body p hdata) hn
      rw [RequestObject.dataPointer, hdata]
      exact (BlockMemory.replaces_malloc m' k).read (by simp) (hr.read hold hread)

/-- What is done with a request that a user points to. -/
lemma Alike.rel_held (al : Alike s v) (i : ℕ) {f : RequestObject × ℕ → Option HeapStore}
    {f' : RequestValue × ℕ → Option ValueStore}
    (h : ∀ o w users, live s.requests i = some (o, users) → live v.requests i = some (w, users) →
      o.Stands s.memory w.request → Option.Rel Related (f (o, users)) (f' (w, users))) :
    Option.Rel Related ((s.held i).bind f) ((v.held i).bind f') := by
  rcases al.held_cases i with ⟨hheld, hheld'⟩ | ⟨o, w, users, hheld, hheld', ho, hw, hs⟩
  · rw [hheld, hheld']
    exact .none
  · rw [hheld, hheld']
    exact h o w users ho hw hs

lemma Alike.rel_held_map (al : Alike s v) (i : ℕ) {f : RequestObject × ℕ → HeapStore}
    {f' : RequestValue × ℕ → ValueStore}
    (h : ∀ o w users, live s.requests i = some (o, users) → live v.requests i = some (w, users) →
      o.Stands s.memory w.request → Related (f (o, users)) (f' (w, users))) :
    Option.Rel Related ((s.held i).map f) ((v.held i).map f') := by
  rw [Option.map_eq_bind, Option.map_eq_bind]
  exact al.rel_held i fun o w users ho hw hs => .some (h o w users ho hw hs)

lemma Alike.rel_live_map (al : Alike s v) (i : ℕ) {f : RequestObject × ℕ → HeapStore}
    {f' : RequestValue × ℕ → ValueStore}
    (h : ∀ o w users, live s.requests i = some (o, users) → live v.requests i = some (w, users) →
      o.Stands s.memory w.request → Related (f (o, users)) (f' (w, users))) :
    Option.Rel Related ((live s.requests i).map f) ((live v.requests i).map f') := by
  cases hlive : live s.requests i with
  | none =>
      rw [al.live_none_iff.mp hlive]
      exact .none
  | some x =>
      rcases x with ⟨o, users⟩
      rcases al.exists_slot hlive with ⟨w, hw, hs⟩
      rw [hw]
      exact .some (h o w users hlive hw hs)

/-- What is done with a task. -/
lemma Alike.rel_task (al : Alike s v) (t : ℕ) {f : ℕ × HandleInfo → Option HeapStore}
    {f' : ℕ × HandleValue → Option ValueStore}
    (h : ∀ i handle g, live s.tasks t = some (i, handle) → live v.tasks t = some (i, g) →
      TaskAlike s v (i, handle) (i, g) → Option.Rel Related (f (i, handle)) (f' (i, g))) :
    Option.Rel Related ((live s.tasks t).bind f) ((live v.tasks t).bind f') := by
  rcases al.task_cases t with ⟨hnone, hnone'⟩ | ⟨i, handle, g, ht, ht', htask⟩
  · rw [hnone, hnone']
    exact .none
  · rw [ht, ht']
    exact h i handle g ht ht' htask

/-- `setData` with the pointer of a request. -/
lemma Related.setDataOf (hr : Related s v) (al : Alike s v) {o o' : RequestObject}
    {w w' : RequestValue} {users users' n : ℕ} (ho : live s.requests i = some (o, users))
    (hw : live v.requests i = some (w, users)) (hs : o.Stands s.memory w.request)
    (ho' : live s.requests j = some (o', users')) (hw' : live v.requests j = some (w', users'))
    (hs' : o'.Stands s.memory w'.request) (hn : n ≤ o'.data_length_) :
    Related
      (s.goOn (if i = j then (heapOps sha256).setOwnData s.memory o n
        else (heapOps sha256).setDataOf s.memory o o' n) (s.put i users))
      (v.goOn (if i = j then (valueOps sha256).setOwnData () w n
        else (valueOps sha256).setDataOf () w w' n) (v.put i users)) := by
  by_cases hij : i = j
  · simp only [if_pos hij, heapOps, valueOps]
    subst hij
    rw [ho, Option.some.injEq, Prod.mk.injEq] at ho'
    rcases ho' with ⟨rfl, -⟩
    rcases Nat.eq_zero_or_pos n with rfl | hpos
    · rw [if_pos rfl]
      have hread : 0 < ([] : List UInt8).length → ∀ m', s.memory.Replaces o.data_ m' none →
          ∀ k, o.dataPointer.read (m'.malloc k).2 ([] : List UInt8).length = some [] :=
        fun hlt => absurd hlt (lt_irrefl 0)
      exact hr.setData al ho hw hs hread
    · rw [if_neg hpos.ne']
      have hne : o.data_ ≠ none := by
        intro hnone
        rw [hs.length, hs.null.mp hnone, List.length_nil] at hn
        exact absurd hn hpos.not_ge
      rcases Option.ne_none_iff_exists'.mp hne with ⟨p, hp⟩
      refine hr.goOn (Or.inl ⟨?_, rfl⟩)
      rw [RequestObject.dataPointer, hp]
      exact RequestObject.setData_own hs hp hpos
  · simp only [if_neg hij, heapOps, valueOps]
    have hlength : (w'.request.data.take n).length = n := by
      rw [List.length_take, Nat.min_eq_left (hs'.length ▸ hn)]
    have hread : 0 < (w'.request.data.take n).length → ∀ m', s.memory.Replaces o.data_ m' none →
        ∀ k, o'.dataPointer.read (m'.malloc k).2 (w'.request.data.take n).length =
          some (w'.request.data.take n) := by
      rw [hlength]
      exact fun hpos m' hrep k => al.read_other hij ho ho' hs' hn hpos hrep k
    have hset := hr.setData al ho hw hs hread
    rw [hlength] at hset
    exact hset

/-- A task is made. -/
lemma Related.createTask (hr : Related s v) (al : Alike s v) {o : RequestObject} {w : RequestValue}
    {users : ℕ} {h : HandleInfo} {g : HandleValue} (ho : live s.requests i = some (o, users))
    (hw : live v.requests i = some (w, users)) (ha : HandleAlike s.memory o w h g) :
    Related { s with tasks := s.tasks ++ [some (i, h)] }
      { v with tasks := v.tasks ++ [some (i, g)] } := by
  refine ⟨hr.undefined, hr.seen, fun _ => ⟨al.accounted, al.requests, al.requests_length,
    fun t => ?_, by simp [al.tasks_length]⟩⟩
  by_cases ht : t = s.tasks.length
  · subst ht
    rw [live_append_self, al.tasks_length, live_append_self]
    exact .some ⟨rfl, o, w, users, ho, hw, ha⟩
  · rw [live_append_of_ne ht, live_append_of_ne (al.tasks_length ▸ ht)]
    exact al.tasks t

/-- A task is destroyed. -/
lemma Related.destroyTask (hr : Related s v) (al : Alike s v) {x : ℕ × HandleInfo}
    {y : ℕ × HandleValue} (hx : live s.tasks t = some x) (hy : live v.tasks t = some y) :
    Related { s with tasks := s.tasks.set t none } { v with tasks := v.tasks.set t none } := by
  refine ⟨hr.undefined, hr.seen, fun _ => ⟨al.accounted, al.requests, al.requests_length,
    fun u => ?_, by simp [al.tasks_length]⟩⟩
  by_cases hu : u = t
  · subst hu
    rw [live_set_self hx, live_set_self hy]
    exact .none
  · rw [live_set_of_ne (Ne.symm hu), live_set_of_ne (Ne.symm hu)]
    exact al.tasks u

/-- **One action.**  Both stores can take it to stores that are related again, or none can. -/
theorem related_step (hr : Related s v) (a : RequestAction) :
    Option.Rel Related (RequestStore.step (heapOps sha256) s a)
      (RequestStore.step (valueOps sha256) v a) := by
  cases hdefined : s.undefined with
  | true =>
      have hdefined' := hr.undefined.symm.trans hdefined
      simp only [RequestStore.step, hdefined, hdefined', if_true]
      exact .none
  | false =>
      have hdefined' := hr.undefined.symm.trans hdefined
      have al := hr.alike hdefined
      simp only [RequestStore.step, hdefined, hdefined', Bool.false_eq_true, if_false]
      cases a with
      | create url header_map =>
          refine .some ⟨hr.undefined, hr.seen, fun _ => ?_⟩
          have hs : (RequestObject.create url header_map).Stands s.memory
              (RequestValue.mk (.create url header_map) 0).request :=
            RequestObject.stands_create s.memory url header_map
          exact al.append (BlockMemory.replaces_refl s.memory) hs
      | copy i header_map =>
          refine al.rel_held i fun o w users ho hw hs => ?_
          have hheaders : (heapOps sha256).headers o = (valueOps sha256).headers w := hs.headers
          simp only [hheaders]
          by_cases hsame : ((valueOps sha256).headers w).Same header_map
          · rw [if_pos hsame, if_pos hsame]
            rcases RequestObject.copy_stands hs header_map with ⟨m', o', hcopy, hnew, hs'⟩
            refine .some (hr.goOn (Or.inr ⟨_, _, hcopy, rfl, ?_⟩))
            exact ⟨hr.undefined, hr.seen, fun _ => al.append hnew hs'⟩
          · rw [if_neg hsame, if_neg hsame]
            exact .none
      | edit i change =>
          refine al.rel_held_map i fun o w users ho hw hs => ⟨hr.undefined, hr.seen, fun _ => ?_⟩
          have hdata : (change.onObject o).data_ = o.data_ := by cases change <;> rfl
          have hbody : (change.onValue w.request).data = w.request.data := by cases change <;> rfl
          exact al.put ho hw (Or.inr ⟨rfl, hdata⟩) (stands_edit hs change)
            fun h g ha => ha.congr hdata rfl hbody
      | setData i bytes =>
          refine al.rel_held_map i fun o w users ho hw hs => ?_
          refine hr.setData al ho hw hs fun _ m' _ n => ?_
          simp [DataPointer.read]
      | setDataOf i j n =>
          refine al.rel_held i fun o w users ho hw hs => ?_
          refine al.rel_held j fun o' w' users' ho' hw' hs' => ?_
          have hlength : (heapOps sha256).dataLength o' = (valueOps sha256).dataLength w' :=
            hs'.length
          simp only [hlength]
          by_cases hn : n ≤ (valueOps sha256).dataLength w'
          · rw [if_pos hn, if_pos hn]
            exact .some (hr.setDataOf al ho hw hs ho' hw' hs' (hlength.ge.trans' hn))
          · rw [if_neg hn, if_neg hn]
            exact .none
      | data i =>
          refine al.rel_held_map i fun o w users ho hw hs => ?_
          exact hr.goOn (Or.inr ⟨_, _, hs.data_eq, rfl, hr.see _⟩)
      | hash i =>
          refine al.rel_held_map i fun o w users ho hw hs => ?_
          exact hr.goOn (Or.inr ⟨_, _, hs.hash_eq, rfl, hr.see _⟩)
      | share i =>
          refine al.rel_live_map i fun o w users ho hw hs => ⟨hr.undefined, hr.seen, fun _ => ?_⟩
          exact al.put ho hw (Or.inr ⟨rfl, rfl⟩) hs fun h g ha => ha
      | release i =>
          refine al.rel_held_map i fun o w users ho hw hs => ?_
          have hput : Related (s.put i (users - 1) (s.memory, o)) (v.put i (users - 1) ((), w)) :=
            ⟨hr.undefined, hr.seen, fun _ => al.put ho hw (Or.inr ⟨rfl, rfl⟩) hs fun h g ha => ha⟩
          exact hput.collect hdefined i
      | createTask i =>
          refine al.rel_held_map i fun o w users ho hw hs => ?_
          rcases handleAlike_construct hs with ⟨h, hconstruct, ha⟩
          exact hr.goOn (Or.inr ⟨_, _, hconstruct, rfl, hr.createTask al ho hw ha⟩)
      | identifier t =>
          rw [RequestStore.perform, RequestStore.perform, Option.map_eq_bind, Option.map_eq_bind]
          refine al.rel_task t fun i h g ht ht' htask => .some ?_
          rcases htask with ⟨-, o, w, users, ho, hw, ha⟩
          have hsame : h.request_hash = g.request_hash := ha.request_hash
          simp only [heapOps, valueOps, hsame]
          exact hr.see _
      | send t =>
          refine al.rel_task t fun i h g ht ht' htask => ?_
          rcases htask with ⟨-, o, w, users, ho, hw, ha⟩
          rcases al.exists_slot ho with ⟨w', hw', hs⟩
          rw [hw, Option.some.injEq, Prod.mk.injEq] at hw'
          rw [← hw'.1] at hs
          rw [ho, hw]
          refine .some ?_
          have hsend : (heapOps sha256).send s.memory o h = (valueOps sha256).send () w g :=
            ha.send hs
          simp only [hsend]
          refine hr.goOn ?_
          cases (valueOps sha256).send () w g with
          | none => exact Or.inl ⟨rfl, rfl⟩
          | some transfer => exact Or.inr ⟨transfer, transfer, rfl, rfl, hr.see _⟩
      | destroyTask t =>
          rw [RequestStore.perform, RequestStore.perform, Option.map_eq_bind, Option.map_eq_bind]
          refine al.rel_task t fun i h g ht ht' htask => .some ?_
          exact (hr.destroyTask al ht ht').collect hdefined i

/-! ## Whole runs -/

/-- What has been seen so far, and whether its behaviour is defined. -/
def RequestStore.shown {M O H : Type} (s : RequestStore M O H) : Bool × List Observation :=
  (s.undefined, s.seen)

lemma related_empty : Related (.empty .empty : HeapStore) (.empty () : ValueStore) where
  undefined := rfl
  seen := rfl
  alike _ :=
    { accounted := BlockMemory.accounted_empty
      requests := fun _ => .none
      requests_length := rfl
      tasks := fun _ => .none
      tasks_length := rfl }

/-- The same actions lead to related stores, or to none. -/
lemma related_run (sha256 : StdString → StdString) (acts : List RequestAction) :
    Option.Rel Related (run (RequestStore.step (heapOps sha256)) (.empty .empty) acts)
      (run (RequestStore.step (valueOps sha256)) (.empty ()) acts) :=
  run_rel (fun _ _ a hr => related_step hr a) related_empty acts

/-- **Requests by value.**  For every sequence of actions: over objects with blocks of the heap, and
over values where a task has a copy of the body, the program can take the same actions, sees and
sends the same, and comes to undefined behaviour at the same action. -/
theorem requests_by_value (sha256 : StdString → StdString) (acts : List RequestAction) :
    (run (RequestStore.step (heapOps sha256)) (.empty .empty) acts).map RequestStore.shown =
      (run (RequestStore.step (valueOps sha256)) (.empty ()) acts).map RequestStore.shown := by
  rcases rel_cases (related_run sha256 acts) with ⟨hnone, hnone'⟩ | ⟨s, v, hs, hv, hr⟩
  · rw [hnone, hnone']
    rfl
  · rw [hs, hv]
    exact congrArg some (Prod.ext hr.undefined hr.seen)

/-- A store of objects that has been reached is related to one of values. -/
lemma exists_related {acts : List RequestAction}
    (hrun : run (RequestStore.step (heapOps sha256)) (.empty .empty) acts = some s) :
    ∃ v : ValueStore, Related s v := by
  rcases rel_cases (related_run sha256 acts) with ⟨hnone, -⟩ | ⟨s', v, hs, -, hr⟩
  · rw [hrun] at hnone
    cases hnone
  · rw [hrun, Option.some.injEq] at hs
    subst hs
    exact ⟨v, hr⟩

/-- The actions over values that are undefined. -/
def RequestStore.Undefined (v : ValueStore) : RequestAction → Prop
  | .setDataOf i j n => i = j ∧ n ≠ 0
  | .send t => ∃ i g w users, live v.tasks t = some (i, g) ∧ live v.requests i = some (w, users) ∧
      g.body ≠ [] ∧ g.edits ≠ w.edits
  | _ => False

/-- The request is given its own body, or what libcurl sends is not the request's body any more. -/
def RequestStore.Misuses (s : HeapStore) : RequestAction → Prop
  | .setDataOf i j n => i = j ∧ n ≠ 0
  | .send t => ∃ i h p n, live s.tasks t = some (i, h) ∧ h.postFields = some (p, n) ∧
      s.owns i ≠ some p
  | _ => False

lemma undefined_collect (v : ValueStore) (i : ℕ) :
    (v.collect (valueOps sha256) i).undefined = v.undefined := by
  rw [RequestStore.collect]
  split
  · rfl
  · split
    · rfl
    · rfl

lemma undefined_perform {a : RequestAction} (hdefined : v.undefined = false)
    (ht : v.perform (valueOps sha256) a = some v') : v'.undefined = true ↔ v.Undefined a := by
  cases a with
  | setDataOf i j n =>
      simp only [RequestStore.perform, Option.bind_eq_some_iff, Option.ite_none_right_eq_some,
        Option.some.injEq] at ht
      rcases ht with ⟨x, -, y, -, -, rfl⟩
      by_cases hij : i = j
      · by_cases hn : n = 0
        · simp [RequestStore.Undefined, valueOps, RequestStore.goOn, RequestStore.put, hij, hn,
            hdefined]
        · simp [RequestStore.Undefined, valueOps, RequestStore.goOn, hij, hn]
      · simp [RequestStore.Undefined, valueOps, RequestStore.goOn, RequestStore.put, hij, hdefined]
  | send t =>
      simp only [RequestStore.perform, Option.bind_eq_some_iff, Option.map_eq_some_iff] at ht
      rcases ht with ⟨⟨i, g⟩, htask, ⟨w, users⟩, hw, rfl⟩
      by_cases hsend : g.body = [] ∨ g.edits = w.edits
      · have hsome : (valueOps sha256).send () w g = some ⟨g.options, g.body⟩ := if_pos hsend
        simp only [RequestStore.Undefined, hsome, RequestStore.goOn, RequestStore.see, hdefined]
        refine iff_of_false (by simp) ?_
        rintro ⟨i', g', w', users', htask', hw', hbody, hedits⟩
        rw [htask, Option.some.injEq, Prod.mk.injEq] at htask'
        rcases htask' with ⟨rfl, rfl⟩
        rw [hw, Option.some.injEq, Prod.mk.injEq] at hw'
        rcases hw' with ⟨rfl, -⟩
        exact hsend.elim hbody hedits
      · have hnone : (valueOps sha256).send () w g = none := if_neg hsend
        simp only [hnone, RequestStore.goOn]
        rw [not_or] at hsend
        exact iff_of_true trivial ⟨i, g, w, users, htask, hw, hsend.1, hsend.2⟩
  | create url header_map =>
      simp only [RequestStore.perform, Option.some.injEq] at ht
      simp [← ht, RequestStore.Undefined, hdefined]
  | copy i header_map =>
      simp only [RequestStore.perform, Option.bind_eq_some_iff, Option.ite_none_right_eq_some,
        Option.some.injEq] at ht
      rcases ht with ⟨x, -, -, rfl⟩
      simp [RequestStore.Undefined, valueOps, RequestStore.goOn, hdefined]
  | identifier t =>
      simp only [RequestStore.perform, Option.map_eq_some_iff] at ht
      rcases ht with ⟨x, -, rfl⟩
      simp [RequestStore.Undefined, RequestStore.see, hdefined]
  | destroyTask t =>
      simp only [RequestStore.perform, Option.map_eq_some_iff] at ht
      rcases ht with ⟨x, -, rfl⟩
      simp [RequestStore.Undefined, undefined_collect, hdefined]
  | release i =>
      simp only [RequestStore.perform, Option.map_eq_some_iff] at ht
      rcases ht with ⟨x, -, rfl⟩
      simp [RequestStore.Undefined, undefined_collect, RequestStore.put, hdefined]
  | edit i _ | setData i _ | data i | hash i | share i | createTask i =>
      simp only [RequestStore.perform, Option.map_eq_some_iff] at ht
      rcases ht with ⟨x, -, rfl⟩
      simp [RequestStore.Undefined, valueOps, RequestStore.goOn, RequestStore.put, RequestStore.see,
        hdefined]

/-- What the value store knows by counting, the object store has in its pointers. -/
lemma Alike.misuses_iff (al : Alike s v) (a : RequestAction) : v.Undefined a ↔ s.Misuses a := by
  cases a with
  | send t =>
      rcases al.task_cases t with ⟨hnone, hnone'⟩ | ⟨i, h, g, ht, ht', -, o, w, users, ho, hw, ha⟩
      · simp [RequestStore.Undefined, RequestStore.Misuses, hnone, hnone']
      · rcases al.exists_slot ho with ⟨w', hw', hs⟩
        rw [hw, Option.some.injEq, Prod.mk.injEq] at hw'
        rw [← hw'.1] at hs
        constructor
        · rintro ⟨i', g', w₁, users₁, ht₁, hw₁, hbody, hedits⟩
          rw [ht', Option.some.injEq, Prod.mk.injEq] at ht₁
          rcases ht₁ with ⟨rfl, rfl⟩
          rw [hw, Option.some.injEq, Prod.mk.injEq] at hw₁
          rcases hw₁ with ⟨rfl, -⟩
          rcases ha.points hbody with ⟨p, -, hfields, -, hstale⟩
          refine ⟨i, h, p, _, ht, hfields, ?_⟩
          rw [owns_eq ho]
          intro hp
          rcases hs.there hp with ⟨b, hb⟩
          rw [hstale hedits] at hb
          cases hb
        · rintro ⟨i', h', p, n, ht₁, hfields, howns⟩
          rw [ht, Option.some.injEq, Prod.mk.injEq] at ht₁
          rcases ht₁ with ⟨rfl, rfl⟩
          have hbody : g.body ≠ [] := by
            intro hnil
            have hnone : h.postFields = none := ha.empty hnil
            rw [hnone] at hfields
            cases hfields
          rcases ha.points hbody with ⟨q, -, hfields', hcurrent, -⟩
          refine ⟨i, g, w, users, ht', hw, hbody, fun hedits => howns ?_⟩
          have hpq : some (p, n) = some (q, g.body.length) := hfields.symm.trans hfields'
          rw [Option.some.injEq, Prod.mk.injEq] at hpq
          rw [owns_eq ho, hpq.1]
          exact (hcurrent hedits).1
  | setDataOf i j n => exact Iff.rfl
  | create _ _ | copy _ _ | edit _ _ | setData _ _ | data _ | hash _ | share _ | release _
  | createTask _ | identifier _ | destroyTask _ => exact Iff.rfl

/-- **The blocks.**  As long as everything has been defined, each block of the heap is the body of
one request, each request with a body has its block, and the next action is undefined exactly when
it gives a request its own body, or sends what the request has no more. -/
theorem bodies_accounted {acts : List RequestAction}
    (hrun : run (RequestStore.step (heapOps sha256)) (.empty .empty) acts = some s)
    (hdefined : s.undefined = false) :
    (∀ p, (s.memory.contents p).isSome = true ↔ ∃! i, s.owns i = some p) ∧
      ∀ a t, RequestStore.step (heapOps sha256) s a = some t →
        (t.undefined = true ↔ s.Misuses a) := by
  rcases exists_related hrun with ⟨v, hr⟩
  have al := hr.alike hdefined
  refine ⟨fun p => ⟨fun hp => ?_, fun ⟨i, hi, _⟩ => al.accounted.there i p hi⟩, fun a t ht => ?_⟩
  · rcases al.accounted.owned p hp with ⟨i, hi⟩
    exact ⟨i, hi, fun j hj => al.accounted.one j i p hj hi⟩
  · have hdefined' : v.undefined = false := hr.undefined.symm.trans hdefined
    have hrel : Option.Rel Related (RequestStore.step (heapOps sha256) s a)
        (RequestStore.step (valueOps sha256) v a) := related_step hr a
    rcases rel_cases hrel with ⟨hnone, -⟩ | ⟨t', v', ht', hv, hr'⟩
    · rw [ht] at hnone
      cases hnone
    · rw [ht, Option.some.injEq] at ht'
      subst ht'
      rw [RequestStore.step, hdefined'] at hv
      rw [hr'.undefined, undefined_perform hdefined' hv, al.misuses_iff]

/-- The second of two requests with a task each gets a byte of the first one's body, and is sent
when the first one has another body. -/
def twoTasks : List RequestAction :=
  [.create [] ∅, .setData 0 [1, 2], .createTask 0, .create [1] ∅, .setDataOf 1 0 1, .createTask 1,
    .setData 0 [3], .send 1]

theorem bodies_accounted_twoTasks :
    ∃ s, run (RequestStore.step (heapOps id)) (.empty .empty) twoTasks = some s ∧
      (∀ p, (s.memory.contents p).isSome = true ↔ ∃! i, s.owns i = some p) ∧
        ∀ a t, RequestStore.step (heapOps id) s a = some t →
          (t.undefined = true ↔ s.Misuses a) := by
  have hs : run (RequestStore.step (heapOps id)) (.empty .empty) twoTasks = some _ := rfl
  exact ⟨_, hs, bodies_accounted hs rfl⟩

end FFNetwork
