import FFNetwork.Lib.BlockMemory
import FFNetwork.Net.HeaderOrder
import FFNetwork.Net.ResponseHeaders

/-!
# Requests in memory

`RequestImpl` keeps its body in a block from `malloc`, and a task gives libcurl the pointer to that
block, since `CURLOPT_POSTFIELDS` does not copy.  Here a request is the object with the pointer.

* `RequestObject.setData`, `copy`, `destroy`, `hash`, `constructCurlHandle` — the members.
* `Stands` — the object and the memory stand for a `RequestImpl`.
* `setData_stands`, `copy_stands`, `destroy_replaces` — what the members do to the memory.
* `setData_own` — a request cannot be given its own body.
-/

namespace FFNetwork

/-- The method `PUT`. -/
def putMethod : StdString := ['P', 'U', 'T'].map Char.toUInt8

/-- The method `HEAD`. -/
def headMethod : StdString := ['H', 'E', 'A', 'D'].map Char.toUInt8

/-- The heap, as far as requests use it. -/
abbrev Memory := BlockMemory UInt8

/-- A `const unsigned char *`: to bytes that the caller keeps, or to a block of the heap. -/
inductive DataPointer
  | outside (bytes : List UInt8)
  | block (p : ℕ)

/-- The first `n` bytes that it points to. -/
def DataPointer.read (m : Memory) (n : ℕ) : DataPointer → Option (List UInt8)
  | .outside bytes => if n ≤ bytes.length then some (bytes.take n) else none
  | .block p => m.read p n

/-! ## A request -/

/-- A `RequestImpl` as an object.  `data_` is `none` for `nullptr`. -/
structure RequestObject where
  url_ : StdString
  headers_ : HeaderMap
  method_ : StdString
  data_ : Option ℕ
  data_length_ : ℕ

/-- The option for the method. -/
inductive MethodOption
  | httpGet
  | put
  | post
  | noBody
  | customRequest (method : StdString)
  deriving DecidableEq

/-- The options of a handle that libcurl copies or that the task keeps for it. -/
structure HandleOptions where
  url : StdString
  method : MethodOption
  range : Option StdString
  request_headers : List StdString

/-- What a task keeps of its request: the hash, and a handle with `CURLOPT_POSTFIELDS` and
`CURLOPT_POSTFIELDSIZE` if there is a body. -/
structure HandleInfo where
  request_hash : StdString
  options : HandleOptions
  postFields : Option (ℕ × ℕ)

/-- What libcurl sends. -/
structure Transfer where
  options : HandleOptions
  body : List UInt8

/-- The method as an option. -/
def methodOption (method : StdString) : MethodOption :=
  if method = getMethod then .httpGet
  else if method = putMethod then .put
  else if method = postMethod then .post
  else if method = headMethod then .noBody
  else .customRequest (cStr method)

/-- The options that `ConstructCurlHandle` sets, without the body. -/
def handleOptions (url : StdString) (headers : HeaderMap) (method : StdString) : HandleOptions :=
  let (rangeOption, lines) := constructHeaders (.create url headers)
  ⟨cStr url, methodOption method, rangeOption, lines⟩

namespace RequestObject

/-- `RequestImpl::RequestImpl(url, header_map)`. -/
def create (url : StdString) (header_map : HeaderMap) : RequestObject :=
  ⟨url, header_map, getMethod, none, 0⟩

/-- The block that `setData` and the destructor have in common. -/
def freeData (m : Memory) (o : RequestObject) : Option (Memory × RequestObject) :=
  match o.data_ with
  | none => some (m, o)
  | some p => (m.free p).map fun m => (m, { o with data_ := none, data_length_ := 0 })

/-- `RequestImpl::setData`. -/
def setData (m : Memory) (o : RequestObject) (data : DataPointer) (data_length : ℕ) :
    Option (Memory × RequestObject) := do
  let (m, o) ← freeData m { o with data_length_ := data_length }
  if 0 < data_length then
    let (p, m) := m.malloc (data_length + 1)
    let bytes ← data.read m data_length
    let m ← m.write p 0 bytes
    let m ← m.write p data_length [0]
    return (m, { o with data_ := some p, data_length_ := data_length })
  else
    return (m, o)

/-- `RequestImpl::RequestImpl(request)`, where `headerMap()` returns `header_map`.  The block has no
byte behind the body. -/
def copy (m : Memory) (request : RequestObject) (header_map : HeaderMap) :
    Option (Memory × RequestObject) := do
  let o : RequestObject := ⟨request.url_, header_map, request.method_, none, 0⟩
  if 0 < request.data_length_ then
    let (p, m) := m.malloc request.data_length_
    let bytes ← request.data_.bind fun data => m.read data request.data_length_
    let m ← m.write p 0 bytes
    return (m, { o with data_ := some p, data_length_ := request.data_length_ })
  else
    return (m, o)

/-- `RequestImpl::~RequestImpl`. -/
def destroy (m : Memory) (o : RequestObject) : Option Memory := (freeData m o).map Prod.fst

/-- What the caller of `RequestImpl::data` reads. -/
def data (m : Memory) (o : RequestObject) : Option (List UInt8) :=
  match o.data_ with
  | none => some []
  | some p => m.read p o.data_length_

/-- `RequestImpl::hash`. -/
def hash (sha256 : StdString → StdString) (m : Memory) (o : RequestObject) : Option StdString :=
  let amalgamation := (RequestImpl.create o.url_ o.headers_).amalgamation
  match o.data_ with
  | none => some (sha256 amalgamation)
  | some p => (m.read p o.data_length_).map fun data => sha256 (amalgamation ++ data)

/-- `HandleInfo::ConstructCurlHandle`, with the hash that the constructor takes. -/
def constructCurlHandle (sha256 : StdString → StdString) (m : Memory) (o : RequestObject) :
    Option HandleInfo :=
  (o.hash sha256 m).map fun request_hash =>
    { request_hash
      options := handleOptions o.url_ o.headers_ o.method_
      postFields := if o.data_length_ = 0 then none else o.data_.map fun p => (p, o.data_length_) }

end RequestObject

/-- libcurl reads what it sends while it sends it. -/
def HandleInfo.send (m : Memory) (h : HandleInfo) : Option Transfer :=
  match h.postFields with
  | none => some ⟨h.options, []⟩
  | some (p, n) => (m.read p n).map fun body => ⟨h.options, body⟩

/-! ## What an object stands for -/

namespace RequestObject

variable {m m' : Memory} {o o' : RequestObject} {r : RequestImpl} {bytes : List UInt8}
  {sha256 : StdString → StdString} {p : ℕ}

/-- The object is the request, with the body in the block that it points to. -/
structure Stands (m : Memory) (o : RequestObject) (r : RequestImpl) : Prop where
  url : o.url_ = r.url_
  headers : o.headers_ = r.headers_
  method : o.method_ = r.method_
  length : o.data_length_ = r.data.length
  null : o.data_ = none ↔ r.data = []
  body : ∀ p, o.data_ = some p → m.read p o.data_length_ = some r.data

lemma stands_create (m : Memory) (url : StdString) (header_map : HeaderMap) :
    Stands m (create url header_map) (.create url header_map) where
  url := rfl
  headers := rfl
  method := rfl
  length := rfl
  null := by simp [create, RequestImpl.create, RequestImpl.data]
  body _ h := nomatch h

/-- A request whose block is not touched. -/
lemma Stands.congr (hs : Stands m o r)
    (h : ∀ p, o.data_ = some p → m'.contents p = m.contents p) : Stands m' o r :=
  { hs with body := fun p hp => by rw [BlockMemory.read_congr (h p hp), hs.body p hp] }

lemma Stands.there (hs : Stands m o r) (hp : o.data_ = some p) :
    ∃ b, m.contents p = some b := by
  rcases BlockMemory.read_eq_some_iff.mp (hs.body p hp) with ⟨b, hb, -⟩
  exact ⟨b, hb⟩

lemma Stands.pos (hs : Stands m o r) (hp : o.data_ = some p) : 0 < o.data_length_ := by
  rw [hs.length, List.length_pos_iff]
  intro hnil
  rw [hs.null.mpr hnil] at hp
  cases hp

/-- What the object had is gone. -/
lemma freeData_stands (hs : Stands m o r) (length : ℕ) :
    ∃ m' o', freeData m { o with data_length_ := length } = some (m', o') ∧
      m.Replaces o.data_ m' none ∧ o'.data_ = none ∧ o'.url_ = r.url_ ∧ o'.headers_ = r.headers_ ∧
        o'.method_ = r.method_ ∧ (length = 0 → o'.data_length_ = 0) := by
  cases hdata : o.data_ with
  | none =>
      refine ⟨m, { o with data_length_ := length }, ?_, BlockMemory.replaces_refl m, hdata, hs.url,
        hs.headers, hs.method, id⟩
      simp only [freeData, hdata]
  | some p =>
      rcases hs.there hdata with ⟨b, hb⟩
      rcases BlockMemory.exists_free hb with ⟨m', hm'⟩
      refine ⟨m', { o with data_ := none, data_length_ := 0 }, ?_, BlockMemory.replaces_free hm',
        rfl, hs.url, hs.headers, hs.method, fun _ => rfl⟩
      simp only [freeData, hm', Option.map_some]

lemma Stands.lt_size (hs : Stands m o r) (hp : o.data_ = some p) : p < m.size := by
  rcases hs.there hp with ⟨b, hb⟩
  exact BlockMemory.lt_size_of_contents hb

/-- **`setData`.**  If the new bytes can be read after the old ones have been freed, the object
stands for the request with the new body. -/
theorem setData_stands (hs : Stands m o r) {data : DataPointer}
    (hread : 0 < bytes.length → ∀ m', m.Replaces o.data_ m' none →
      ∀ n, data.read (m'.malloc n).2 bytes.length = some bytes) :
    ∃ m' o', setData m o data bytes.length = some (m', o') ∧
      m.Replaces o.data_ m' o'.data_ ∧ Stands m' o' (r.setData bytes) := by
  rcases freeData_stands hs bytes.length with
    ⟨m₁, o₁, hfree, hreplaces, hnone, hurl, hheaders, hmethod, hzero⟩
  have holds : ∀ p, o.data_ = some p → p < m.size := fun p hp => hs.lt_size hp
  by_cases hpos : 0 < bytes.length
  · rcases m₁.fill_spec bytes (Nat.le_succ bytes.length) with
      ⟨m₂, b, hwrite, hnew, hself, hlen, hcopied⟩
    have hfit : bytes.length + [(0 : UInt8)].length ≤ b.length := by
      rw [hlen]
      exact le_rfl
    rcases BlockMemory.write_behind [(0 : UInt8)] hself hfit hcopied le_rfl with
      ⟨m₃, hterminate, hkept, hframe⟩
    refine ⟨m₃, { o₁ with data_ := some m₁.size, data_length_ := bytes.length }, ?_,
      hreplaces.trans holds (hframe hnew), ?_⟩
    · simp [setData, hfree, hpos, hread hpos m₁ hreplaces, hwrite, hterminate]
    · refine ⟨by simp [hurl], by simp [hheaders], ?_, by simp, ?_, ?_⟩
      · simp [RequestImpl.setData, hpos, hmethod]
      · simpa using List.ne_nil_of_length_pos hpos
      · rintro p hp
        rw [← Option.some.inj hp]
        simpa using hkept
  · have hnil : bytes = [] := List.length_eq_zero_iff.mp (Nat.eq_zero_of_not_pos hpos)
    refine ⟨m₁, o₁, ?_, by rw [hnone]; exact hreplaces, ?_⟩
    · simp [setData, hfree, hpos]
    · refine ⟨by simp [hurl], by simp [hheaders], ?_, ?_, ?_, ?_⟩
      · simp [RequestImpl.setData, hpos, hmethod]
      · rw [hzero (Nat.eq_zero_of_not_pos hpos), RequestImpl.setData_data, hnil]
        rfl
      · simp [hnone, hnil]
      · intro p hp
        rw [hnone] at hp
        cases hp

/-- **A request cannot be given its own body.**  `setData` frees it before it copies. -/
theorem setData_own (hs : Stands m o r) (hp : o.data_ = some p) {n : ℕ} (hn : 0 < n) :
    setData m o (.block p) n = none := by
  rcases freeData_stands hs n with ⟨m₁, o₁, hfree, hreplaces, -⟩
  have hgone : (m₁.malloc (n + 1)).2.contents p = none := by
    have hne : p ≠ m₁.size := ((hs.lt_size hp).trans_le hreplaces.size).ne
    rw [BlockMemory.contents_malloc_of_ne hne, hreplaces.freed p hp]
  simp [setData, hfree, hn, DataPointer.read, BlockMemory.read_of_contents_none hgone]

/-- **The copy.**  It has a block of its own. -/
theorem copy_stands (hs : Stands m o r) (header_map : HeaderMap) :
    ∃ m' o', copy m o header_map = some (m', o') ∧ m.Replaces none m' o'.data_ ∧
      Stands m' o' (r.copy header_map) := by
  have hcopy : (r.copy header_map).data = r.data := (r.copy_fields header_map).2.2
  have hmethod : (r.copy header_map).method_ = r.method_ := by
    rw [RequestImpl.copy, RequestImpl.setData]
    split <;> rfl
  rcases r.copy_fields header_map with ⟨hurl, hheaders, -⟩
  cases hdata : o.data_ with
  | none =>
      have hnil := hs.null.mp hdata
      have hzero : o.data_length_ = 0 := by rw [hs.length, hnil]; rfl
      refine ⟨m, ⟨o.url_, header_map, o.method_, none, 0⟩, ?_, BlockMemory.replaces_refl m, ?_⟩
      · simp [copy, hzero]
      · exact ⟨hs.url.trans hurl.symm, hheaders.symm, hs.method.trans hmethod.symm,
          by rw [hcopy, hnil]; rfl, by simp [hcopy, hnil], by simp⟩
  | some p =>
      have hbody := hs.body p hdata
      have hpos := hs.pos hdata
      have hlength := BlockMemory.length_of_read hbody
      rcases m.fill_spec r.data hlength.le with
        ⟨m₁, b, hwrite, hnew, -, -, hcopied⟩
      have hread : (m.malloc o.data_length_).2.read p o.data_length_ = some r.data :=
        (BlockMemory.replaces_malloc m _).read (by simp) hbody
      refine ⟨m₁, ⟨o.url_, header_map, o.method_, some m.size, o.data_length_⟩, ?_, hnew, ?_⟩
      · simp [copy, hpos, hdata, hread, hwrite]
      · refine ⟨hs.url.trans hurl.symm, hheaders.symm, hs.method.trans hmethod.symm,
          hs.length.trans (congrArg List.length hcopy).symm, ?_, ?_⟩
        · rw [hcopy, ← hs.null, hdata]
          simp
        · intro q hq
          rw [← Option.some.inj hq, hcopy]
          simpa [hlength] using hcopied

/-- **The destructor.** -/
theorem destroy_replaces (hs : Stands m o r) :
    ∃ m', destroy m o = some m' ∧ m.Replaces o.data_ m' none := by
  rcases freeData_stands hs o.data_length_ with ⟨m', o', hfree, hreplaces, -⟩
  refine ⟨m', ?_, hreplaces⟩
  rw [destroy, hfree]
  rfl

lemma Stands.data_eq (hs : Stands m o r) : o.data m = some r.data := by
  rw [data]
  cases hdata : o.data_ with
  | none => simp [hs.null.mp hdata]
  | some p => exact hs.body p hdata

lemma Stands.hash_eq (hs : Stands m o r) : o.hash sha256 m = some (r.hash sha256) := by
  have htext : r.amalgamation = (RequestImpl.create r.url_ r.headers_).amalgamation ++ r.data := by
    rw [RequestImpl.amalgamation_eq, RequestImpl.amalgamation_eq]
    have hexcluded : (RequestImpl.create r.url_ r.headers_).excludedHeaders = r.excludedHeaders :=
      rfl
    rw [hexcluded]
    simp [RequestImpl.create, RequestImpl.data]
  rw [hash, RequestImpl.hash, htext, hs.url, hs.headers]
  cases hdata : o.data_ with
  | none => simp [hs.null.mp hdata]
  | some p => simp [hs.body p hdata]

end RequestObject

end FFNetwork
