import FFNetwork.Net.ResponseHeaders
import FFNetwork.Utils.TimeUtils

/-!
# Metrics

The metrics of a request (`include/ffnetwork/response.h`): `RequestTaskImpl::Resume` notes when it
starts and `FillMetrics`, called by `DidFinished`, when it ends.  Both stamps are 32-bit numbers of
milliseconds, in fields of 64 bits.  What `curl_easy_getinfo` says of the transfer and what the
clock reads are arguments of the calls.

* `RequestTaskImpl.request_start_ms_run` — the start is that of the last `Resume`.
* **`measuresDuration_iff`** — the stamps measure the duration of the request iff the 32-bit clock
  does not start again at 0 in between.
-/

namespace FFNetwork

/-- What `curl_easy_getinfo` says of a transfer. -/
structure TransferInfo where
  namelookup_time : Float
  connect_time : Float
  appconnect_time : Float
  pretransfer_time : Float
  starttransfer_time : Float
  total_time : Float
  size_upload : Int64
  size_download : Int64

/-- `struct Metrics`, with its defaults. -/
structure Metrics where
  request_start_ms : UInt64 := 0
  request_end_ms : UInt64 := 0
  dns_time_ms : Float := 0
  connect_time_ms : Float := 0
  ssl_time_ms : Float := 0
  pretransfer_time_ms : Float := 0
  transfer_start_time_ms : Float := 0
  totoal_time_ms : Float := 0
  socket_reuse : Bool := false
  send_byte_count : Int64 := -1
  receive_byte_count : Int64 := -1

/-- A response with its metrics, as the completion callback gets it. -/
structure MeasuredResponse extends ResponseImpl where
  metrics_ : Metrics

/-- A `RequestTaskImpl`.  Its easy handle is null when `curl_easy_init` has failed. -/
structure RequestTaskImpl where
  request_ : RequestImpl
  response_ : ResponseImpl
  handleIsNull : Bool
  cancelled_ : Bool
  metrics_ : Metrics

/-- What happens to a task. -/
inductive TaskEvent
  | resume (nowTimeNanos : UInt64)
  | onReceiveHeader (header : StdString)
  | didCancelled
  | didFinished (http_code : Int32) (response_code : ResponseCode) (info : TransferInfo)
      (nowTimeNanos : UInt64)

/-- The event is a `Resume`. -/
def TaskEvent.isResume : TaskEvent → Bool
  | .resume _ => true
  | _ => false

namespace RequestTaskImpl

/-- The constructor, when `curl_easy_init` has returned null or not. -/
def create (request : RequestImpl) (handleIsNull : Bool) : RequestTaskImpl :=
  ⟨request, .new, handleIsNull, false, {}⟩

/-- `Resume`, as far as the metrics go: the stamp of the start has 32 bits. -/
def resume (task : RequestTaskImpl) (nowTimeNanos : UInt64) : RequestTaskImpl :=
  { task with
    metrics_ := { task.metrics_ with request_start_ms := (nowTimeMillis nowTimeNanos).toUInt64 } }

/-- `FillMetrics`, which does nothing without an easy handle. -/
def fillMetrics (task : RequestTaskImpl) (info : TransferInfo) (nowTimeNanos : UInt64) :
    RequestTaskImpl :=
  if task.handleIsNull then task
  else
    { task with
      metrics_ :=
        { task.metrics_ with
          dns_time_ms := info.namelookup_time * 1000
          connect_time_ms := info.connect_time * 1000
          ssl_time_ms := info.appconnect_time * 1000
          pretransfer_time_ms := info.pretransfer_time * 1000
          transfer_start_time_ms := info.starttransfer_time * 1000
          totoal_time_ms := info.total_time * 1000
          send_byte_count := info.size_upload
          receive_byte_count := info.size_download
          request_end_ms := (nowTimeMillis nowTimeNanos).toUInt64 } }

/-- `DidFinished`: the task, and the response for its completion callback. -/
def didFinished (task : RequestTaskImpl) (http_code : Int32) (response_code : ResponseCode)
    (info : TransferInfo) (nowTimeNanos : UInt64) : RequestTaskImpl × MeasuredResponse :=
  let task := task.fillMetrics info nowTimeNanos
  let response := task.response_.construct task.request_ http_code response_code
  ({ task with response_ := response }, ⟨response, task.metrics_⟩)

/-- `DidCancelled`: the task, and the response for its completion callback. -/
def didCancelled (task : RequestTaskImpl) : RequestTaskImpl × MeasuredResponse :=
  ({ task with cancelled_ := true },
    ⟨⟨some task.request_, some 0, some .UserCancel, true, ∅⟩, task.metrics_⟩)

/-- What an event leaves of the task. -/
def step (task : RequestTaskImpl) : TaskEvent → RequestTaskImpl
  | .resume nowTimeNanos => task.resume nowTimeNanos
  | .onReceiveHeader header => { task with response_ := task.response_.onReceiveHeader header }
  | .didCancelled => task.didCancelled.1
  | .didFinished http_code response_code info nowTimeNanos =>
      (task.didFinished http_code response_code info nowTimeNanos).1

/-- The events one after the other. -/
def run (task : RequestTaskImpl) (events : List TaskEvent) : RequestTaskImpl :=
  events.foldl step task

variable {task : RequestTaskImpl} {event : TaskEvent} {events between : List TaskEvent}

lemma handleIsNull_step (task : RequestTaskImpl) (event : TaskEvent) :
    (task.step event).handleIsNull = task.handleIsNull := by
  cases event with
  | resume nowTimeNanos => rfl
  | onReceiveHeader header => rfl
  | didCancelled => rfl
  | didFinished http_code response_code info nowTimeNanos =>
      simp only [step, didFinished, fillMetrics]
      split
      · rfl
      · rfl

/-- Nothing but `Resume` changes the start. -/
lemma request_start_ms_step (hevent : event.isResume = false) :
    (task.step event).metrics_.request_start_ms = task.metrics_.request_start_ms := by
  cases event with
  | resume nowTimeNanos => cases hevent
  | onReceiveHeader header => rfl
  | didCancelled => rfl
  | didFinished http_code response_code info nowTimeNanos =>
      simp only [step, didFinished, fillMetrics]
      split
      · rfl
      · rfl

lemma handleIsNull_run (task : RequestTaskImpl) (events : List TaskEvent) :
    (task.run events).handleIsNull = task.handleIsNull := by
  induction events generalizing task with
  | nil => rfl
  | cons event events ih => rw [run, List.foldl_cons, ← run, ih, handleIsNull_step]

lemma request_start_ms_run_of_not_resume
    (hevents : ∀ event ∈ events, event.isResume = false) :
    (task.run events).metrics_.request_start_ms = task.metrics_.request_start_ms := by
  induction events generalizing task with
  | nil => rfl
  | cons event events ih =>
      rw [List.forall_mem_cons] at hevents
      rw [run, List.foldl_cons, ← run, ih hevents.2, request_start_ms_step hevents.1]

/-- The start is that of the last `Resume`. -/
lemma request_start_ms_run (task : RequestTaskImpl) (before : List TaskEvent) (s : UInt64)
    (hbetween : ∀ event ∈ between, event.isResume = false) :
    (task.run (before ++ .resume s :: between)).metrics_.request_start_ms =
      (nowTimeMillis s).toUInt64 := by
  have hrun : task.run (before ++ .resume s :: between) =
      ((task.run before).resume s).run between := by
    rw [run, List.foldl_append, List.foldl_cons]
    rfl
  rw [hrun, request_start_ms_run_of_not_resume hbetween]
  rfl

end RequestTaskImpl

/-! ## The duration of a request -/

/-- The metrics of a request from `s` to `e`, in nanoseconds, say how many milliseconds went by. -/
structure Metrics.MeasuresDuration (m : Metrics) (s e : UInt64) : Prop where
  ordered : m.request_end_ms ≥ m.request_start_ms
  duration : (m.request_end_ms - m.request_start_ms).toNat =
    e.toNat / 10 ^ 6 - s.toNat / 10 ^ 6

/-- The stamp is the low half of the number of milliseconds. -/
lemma toNat_nowTimeMillis (nowTimeNanos : UInt64) :
    (nowTimeMillis nowTimeNanos).toUInt64.toNat = nowTimeNanos.toNat / 10 ^ 6 % 2 ^ 32 := by
  rw [nowTimeMillis, UInt32.toNat_toUInt64, UInt64.toNat_toUInt32, UInt64.toNat_div]
  rfl

lemma measuresDuration_of_stamps {m : Metrics} {s e : UInt64} (hse : s ≤ e)
    (hstart : m.request_start_ms = (nowTimeMillis s).toUInt64)
    (hend : m.request_end_ms = (nowTimeMillis e).toUInt64) :
    m.MeasuresDuration s e ↔ s.toNat / 10 ^ 6 / 2 ^ 32 = e.toNat / 10 ^ 6 / 2 ^ 32 := by
  rw [UInt64.le_iff_toNat_le] at hse
  have hstartNat := congrArg UInt64.toNat hstart
  have hendNat := congrArg UInt64.toNat hend
  rw [toNat_nowTimeMillis] at hstartNat hendNat
  have hmillis : s.toNat / 10 ^ 6 ≤ e.toNat / 10 ^ 6 := Nat.div_le_div_right hse
  constructor
  -- the residues are as far apart as the numbers only within one round
  · rintro ⟨hordered, hduration⟩
    rw [UInt64.toNat_sub_of_le _ _ hordered, hstartNat, hendNat] at hduration
    rw [ge_iff_le, UInt64.le_iff_toNat_le, hstartNat, hendNat] at hordered
    omega
  · intro hround
    have hordered : m.request_end_ms ≥ m.request_start_ms := by
      rw [ge_iff_le, UInt64.le_iff_toNat_le, hstartNat, hendNat]
      omega
    refine ⟨hordered, ?_⟩
    rw [UInt64.toNat_sub_of_le _ _ hordered, hstartNat, hendNat]
    omega

/-- **The metrics measure the duration iff start and end are in the same round of the 32-bit
clock.**  The response is that of any task with a handle that has been resumed at `s`, whatever has
happened to it before and, but for another `Resume`, since. -/
theorem measuresDuration_iff (request : RequestImpl) (before between : List TaskEvent)
    (s e : UInt64) (http_code : Int32) (response_code : ResponseCode) (info : TransferInfo)
    (hbetween : ∀ event ∈ between, event.isResume = false) (hse : s ≤ e) :
    (((RequestTaskImpl.create request false).run (before ++ .resume s :: between)).didFinished
      http_code response_code info e).2.metrics_.MeasuresDuration s e ↔
      s.toNat / 10 ^ 6 / 2 ^ 32 = e.toNat / 10 ^ 6 / 2 ^ 32 := by
  have hstart := RequestTaskImpl.request_start_ms_run (.create request false) before s hbetween
  have hnull := RequestTaskImpl.handleIsNull_run (.create request false)
    (before ++ .resume s :: between)
  generalize (RequestTaskImpl.create request false).run (before ++ .resume s :: between) = task
    at hstart hnull ⊢
  have hfill :
      (task.fillMetrics info e).metrics_.request_start_ms = task.metrics_.request_start_ms ∧
        (task.fillMetrics info e).metrics_.request_end_ms = (nowTimeMillis e).toUInt64 := by
    rw [RequestTaskImpl.fillMetrics, if_neg (by rw [hnull]; exact Bool.false_ne_true)]
    exact ⟨rfl, rfl⟩
  exact measuresDuration_of_stamps hse (hfill.1.trans hstart) hfill.2

/-- A transfer of which `curl` has nothing to say. -/
def TransferInfo.none : TransferInfo := ⟨0, 0, 0, 0, 0, 0, 0, 0⟩

/-- A request that takes a second, in the middle of a round. -/
theorem measuresDuration_second :
    ((((RequestTaskImpl.create (.create [] ∅) false).run
      ([] ++ .resume 1700000000000000000 :: [])).didFinished
        200 .OK .none 1700000001000000000).2.metrics_.MeasuresDuration
          1700000000000000000 1700000001000000000 ↔
      (1700000000000000000 : UInt64).toNat / 10 ^ 6 / 2 ^ 32 =
        (1700000001000000000 : UInt64).toNat / 10 ^ 6 / 2 ^ 32) ∧
    (1700000000000000000 : UInt64).toNat / 10 ^ 6 / 2 ^ 32 =
      (1700000001000000000 : UInt64).toNat / 10 ^ 6 / 2 ^ 32 :=
  ⟨measuresDuration_iff (.create [] ∅) [] [] 1700000000000000000 1700000001000000000 200 .OK .none
    (by simp) (by decide), by decide⟩

/-- A request that takes one millisecond, at the end of a round, ends before it starts. -/
theorem not_measuresDuration :
    ¬ ∀ (request : RequestImpl) (before between : List TaskEvent) (s e : UInt64)
      (http_code : Int32) (response_code : ResponseCode) (info : TransferInfo),
      (∀ event ∈ between, event.isResume = false) → s ≤ e →
      (((RequestTaskImpl.create request false).run (before ++ .resume s :: between)).didFinished
        http_code response_code info e).2.metrics_.MeasuresDuration s e := by
  intro h
  have hordered := (h (.create [] ∅) [] [] 1782411427839000000 1782411427840000000 200 .OK .none
    (by simp) (by decide)).ordered
  have hstart : (nowTimeMillis 1782411427839000000).toUInt64 ≤
      (nowTimeMillis 1782411427840000000).toUInt64 := hordered
  revert hstart
  decide

end FFNetwork
