import Mathlib.Data.List.AList
import Mathlib.Logic.Equiv.Basic

/-!
# `RequestImpl`

`source/net/request_impl.{h,cpp}`: a request, and the hash by which the client knows it.  The hash
is the `sha256` of one text, the url, the header names and values and the body one after the other;
`sha256` itself is a parameter.  A header map is a list of entries with different names, in the
order of its iteration, which is not up to the program.

* `RequestImpl.amalgamation` — the text that is hashed; `amalgamation_eq`.
* `RequestImpl.fields` — what a request without a `Vary` header puts into the text.
* **`hash_identifies_iff`** — when requests with the same hash are the same request.
-/

namespace FFNetwork

/-! ## Strings and header maps -/

/-- `std::string`. -/
abbrev StdString := List UInt8

/-- `std::unordered_map<std::string, std::string>`. -/
abbrev HeaderMap := AList fun _ : StdString => StdString

/-- The method that a request has at first. -/
def getMethod : StdString := ['G', 'E', 'T'].map Char.toUInt8

/-- The method of a request with a body to post. -/
def postMethod : StdString := ['P', 'O', 'S', 'T'].map Char.toUInt8

/-- `operator==`: the order of the entries does not matter. -/
def HeaderMap.Same (m m' : HeaderMap) : Prop := ∀ name, m.lookup name = m'.lookup name

lemma HeaderMap.same_iff_perm {m m' : HeaderMap} : m.Same m' ↔ m.entries.Perm m'.entries := by
  constructor
  · intro hsame
    refine List.lookup_ext m.nodupKeys m'.nodupKeys fun name value => ?_
    have hname : m.entries.dlookup name = m'.entries.dlookup name := hsame name
    rw [hname]
  · exact fun hperm name => AList.perm_lookup hperm

instance (m m' : HeaderMap) : Decidable (m.Same m') := decidable_of_iff _ HeaderMap.same_iff_perm.symm

/-- `isspace` in the C locale. -/
def isspace (c : UInt8) : Bool := c = 32 || (9 ≤ c && c ≤ 13)

/-- The tokens that `std::getline` reads up to the end of the stream, with the part of the first one
already read.  At the end it fails if it has read nothing. -/
def getlines (delim : UInt8) : StdString → StdString → List StdString
  | [], [] => []
  | token, [] => [token]
  | token, c :: rest =>
      if c = delim then token :: getlines delim [] rest else getlines delim (token ++ [c]) rest

/-! ## The request -/

/-- A `RequestImpl`.  The body has been copied into memory of its own; there is none of length 0. -/
structure RequestImpl where
  url_ : StdString
  headers_ : HeaderMap
  method_ : StdString
  data_ : Option (List UInt8)
  data_length_ : ℕ
  data_length : data_length_ = (data_.getD []).length
  data_nonempty : data_ ≠ some []

namespace RequestImpl

/-- `RequestImpl::RequestImpl(url, header_map)`. -/
def create (url : StdString) (header_map : HeaderMap) : RequestImpl where
  url_ := url
  headers_ := header_map
  method_ := getMethod
  data_ := none
  data_length_ := 0
  data_length := rfl
  data_nonempty := by simp

/-- `setMethod`. -/
def setMethod (r : RequestImpl) (method : StdString) : RequestImpl := { r with method_ := method }

/-- `setData`: the bytes are copied; an empty body is no body. -/
def setData (r : RequestImpl) (data : List UInt8) : RequestImpl :=
  if h : 0 < data.length then
    { r with
      data_ := some data
      data_length_ := data.length
      data_length := rfl
      data_nonempty := by
        rintro ⟨⟩
        simp at h }
  else
    { r with
      data_ := none
      data_length_ := 0
      data_length := rfl
      data_nonempty := by simp }

/-- `RequestImpl::data`: the bytes of the body. -/
def data (r : RequestImpl) : List UInt8 := r.data_.getD []

/-- Every request can be built by these. -/
theorem setData_setMethod_create (r : RequestImpl) :
    ((create r.url_ r.headers_).setMethod r.method_).setData r.data = r := by
  rcases r with ⟨url, headers, method, data, length, hlength, hnonempty⟩
  subst hlength
  cases data with
  | none => rfl
  | some data =>
      have hpos : 0 < data.length := List.length_pos_iff.mpr fun hnil => hnonempty (hnil ▸ rfl)
      simp [setData, RequestImpl.data, hpos, create, setMethod]

/-- The name of the header that excludes others. -/
def vary : StdString := ['V', 'a', 'r', 'y'].map Char.toUInt8

/-- The headers that `hash` leaves out. -/
def excludedHeaders (r : RequestImpl) : List StdString :=
  match r.headers_.lookup vary with
  | none => []
  | some value =>
      (getlines ','.toUInt8 [] value).map fun token => token.filter fun c => !isspace c

/-- The text that `RequestImpl::hash` puts together. -/
def amalgamation (r : RequestImpl) : StdString :=
  let excluded_headers := r.excludedHeaders
  let amalgamation := r.headers_.foldl
    (fun amalgamation name value =>
      if name ∈ excluded_headers then amalgamation else amalgamation ++ (name ++ value)) r.url_
  match r.data_ with
  | none => amalgamation
  | some data => amalgamation ++ data.take r.data_length_

/-- `RequestImpl::hash`, for any digest function. -/
def hash (sha256 : StdString → StdString) (r : RequestImpl) : StdString := sha256 r.amalgamation

/-! ## The text -/

/-- The loop over the headers. -/
lemma foldl_headers (excluded : List StdString) (entries : List (Σ _ : StdString, StdString))
    (text : StdString) :
    entries.foldl (fun text e => if e.1 ∈ excluded then text else text ++ (e.1 ++ e.2)) text =
      text ++ (entries.filter fun e => e.1 ∉ excluded).flatMap fun e => e.1 ++ e.2 := by
  induction entries generalizing text with
  | nil => simp
  | cons e entries ih =>
      rw [List.foldl_cons, ih]
      by_cases he : e.1 ∈ excluded
      · simp [he]
      · simp [he]

/-- The url, the headers that are not excluded, and the body. -/
theorem amalgamation_eq (r : RequestImpl) :
    r.amalgamation =
      r.url_ ++ ((r.headers_.entries.filter fun e => e.1 ∉ r.excludedHeaders).flatMap
        fun e => e.1 ++ e.2) ++ r.data := by
  rw [amalgamation, AList.foldl, foldl_headers, data]
  have hlength := r.data_length
  cases hdata : r.data_ with
  | none => simp
  | some data =>
      rw [hdata, Option.getD_some] at hlength
      simp [hlength]

/-- What goes into the text, piece by piece. -/
def fields (r : RequestImpl) : List StdString :=
  r.url_ :: (r.headers_.entries.flatMap fun e => [e.1, e.2]) ++ [r.data]

lemma amalgamation_eq_flatten {r : RequestImpl} (hvary : r.headers_.lookup vary = none) :
    r.amalgamation = r.fields.flatten := by
  have hexcluded : r.excludedHeaders = [] := by rw [excludedHeaders, hvary]
  have hheaders : (r.headers_.entries.flatMap fun e => [e.1, e.2]).flatten =
      r.headers_.entries.flatMap fun e => e.1 ++ e.2 := by
    rw [List.flatMap_def, List.flatten_flatten, List.map_map]
    simp [List.flatMap_def, Function.comp_def]
  rw [amalgamation_eq, hexcluded, fields]
  simp [hheaders]

/-! ## Requests with the same text -/

/-- Two requests that differ in nothing but the order of their headers. -/
structure SameRequest (r r' : RequestImpl) : Prop where
  url : r.url_ = r'.url_
  method : r.method_ = r'.method_
  headers : r.headers_.Same r'.headers_
  data : r.data = r'.data

/-- Two requests that are sent with one method and cut one text in the same places: after as long a
url, before as long a body, and between them into the same headers. -/
structure CutAlike (r r' : RequestImpl) : Prop where
  method : r.method_ = r'.method_
  url : r.url_.length = r'.url_.length
  data : r.data.length = r'.data.length
  headers : r.headers_.Same r'.headers_

/-- A text and the places in which it is cut give the pieces. -/
lemma sameRequest_iff_of_flatten {r r' : RequestImpl}
    (htext : r.fields.flatten = r'.fields.flatten) : r.SameRequest r' ↔ r.CutAlike r' := by
  constructor
  · exact fun hsame => ⟨hsame.method, congrArg List.length hsame.url,
      congrArg List.length hsame.data, hsame.headers⟩
  · intro hcut
    simp only [fields, List.cons_append, List.flatten_cons, List.flatten_append, List.flatten_nil,
      List.append_nil] at htext
    rcases List.append_inj htext hcut.url with ⟨hurl, hrest⟩
    exact ⟨hurl, hcut.method, hcut.headers, List.append_inj_right' hrest hcut.data⟩

/-- The entries of a map as pieces give the map back. -/
lemma entries_eq_of_pieces {entries entries' : List (Σ _ : StdString, StdString)}
    (h : (entries.flatMap fun e => [e.1, e.2]) = entries'.flatMap fun e => [e.1, e.2]) :
    entries = entries' := by
  induction entries generalizing entries' with
  | nil =>
      cases entries' with
      | nil => rfl
      | cons e' entries' => simp at h
  | cons e entries ih =>
      cases entries' with
      | nil => simp at h
      | cons e' entries' =>
          simp only [List.flatMap_cons, List.cons_append, List.nil_append, List.cons.injEq] at h
          rcases h with ⟨hname, hvalue, hrest⟩
          rw [ih hrest, Sigma.ext hname (heq_of_eq hvalue)]

/-- Pieces of the same lengths cut a text in the same places. -/
theorem cutAlike_of_lengths {r r' : RequestImpl} (hmethod : r.method_ = r'.method_)
    (hlengths : r.fields.map List.length = r'.fields.map List.length)
    (htext : r.fields.flatten = r'.fields.flatten) : r.CutAlike r' := by
  have hfields : r.fields = r'.fields := List.eq_iff_flatten_eq.mpr ⟨htext, hlengths⟩
  simp only [fields, List.cons_append, List.cons.injEq] at hfields
  rcases hfields with ⟨hurl, hrest⟩
  rcases List.append_inj' hrest rfl with ⟨hpieces, hdata⟩
  have hentries := entries_eq_of_pieces hpieces
  rw [List.cons.injEq] at hdata
  refine ⟨hmethod, congrArg List.length hurl, congrArg List.length hdata.1, fun name => ?_⟩
  rw [AList.ext hentries]

/-- The method is not hashed. -/
lemma hash_setMethod (sha256 : StdString → StdString) (r : RequestImpl) (method : StdString) :
    (r.setMethod method).hash sha256 = r.hash sha256 := rfl

/-- No request is known by its hash: with another method it has the same one. -/
theorem exists_same_hash (sha256 : StdString → StdString) (r : RequestImpl) :
    ∃ r' : RequestImpl, r'.hash sha256 = r.hash sha256 ∧ ¬ r.SameRequest r' := by
  refine ⟨r.setMethod (0 :: r.method_), hash_setMethod sha256 r _, fun hsame => ?_⟩
  exact absurd (congrArg List.length hsame.method) (by simp [setMethod])

/-- **When requests with the same hash are the same request.**  For `sha256` injective and two
requests without a `Vary` header: equal hashes mean the same request, if and only if either the
texts of their fields differ, or they have one method and cut the one text in the same places. -/
theorem hash_identifies_iff {sha256 : StdString → StdString} (hsha256 : Function.Injective sha256)
    {r r' : RequestImpl} (hvary : r.headers_.lookup vary = none)
    (hvary' : r'.headers_.lookup vary = none) :
    (r.hash sha256 = r'.hash sha256 → r.SameRequest r') ↔
      (r.fields.flatten = r'.fields.flatten → r.CutAlike r') := by
  have htext : r.hash sha256 = r'.hash sha256 ↔ r.fields.flatten = r'.fields.flatten := by
    rw [hash, hash, hsha256.eq_iff, amalgamation_eq_flatten hvary, amalgamation_eq_flatten hvary']
  rw [htext]
  exact forall_congr' sameRequest_iff_of_flatten

/-- The text `abc`, its digest, and a request that cuts it before the last byte. -/
def abc : StdString := ['a', 'b', 'c'].map Char.toUInt8

/-- Its digest. -/
def abcDigest : StdString :=
  "ba7816bf8f01cfea414140de5dae2223b00361a396177a9cb410ff61f20015ad".toList.map Char.toUInt8

/-- The url is the first two bytes of `abc`, and the name of the one header the third. -/
def cutRequest : RequestImpl := create (abc.take 2) (.singleton (abc.drop 2) [])

theorem abc_cut_twice :
    ∃ sha256 : StdString → StdString, sha256 abc = abcDigest ∧
      (((create abc ∅).hash sha256 = cutRequest.hash sha256 →
          (create abc ∅).SameRequest cutRequest) ↔
        ((create abc ∅).fields.flatten = cutRequest.fields.flatten →
          (create abc ∅).CutAlike cutRequest)) := by
  refine ⟨Equiv.swap abc abcDigest, Equiv.swap_apply_left _ _, ?_⟩
  exact hash_identifies_iff (Equiv.injective _) (by decide) (by decide)

/-- A `GET` without headers, and a `POST` whose url and one header make up the same text. -/
theorem post_shares_hash :
    ¬ ∀ sha256 : StdString → StdString, Function.Injective sha256 → ∀ r r' : RequestImpl,
      r.headers_.lookup vary = none → r'.headers_.lookup vary = none →
        r.hash sha256 = r'.hash sha256 → r.SameRequest r' := by
  intro hall
  have hsame := hall id Function.injective_id (create ['a'.toUInt8, 'b'.toUInt8, 'c'.toUInt8] ∅)
    ((create ['a'.toUInt8] (.singleton ['b'.toUInt8] ['c'.toUInt8])).setMethod postMethod)
    (by decide) (by decide) (by decide)
  exact absurd hsame.method (by decide)

end RequestImpl

end FFNetwork
