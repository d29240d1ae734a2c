import FFNetwork.Net.RequestImpl
import FFNetwork.Utils.Sha256

/-!
# The hash and the order of the headers

`RequestImpl::hash` goes through the headers in the order in which the `std::unordered_map`
iterates, and that depends on how the map was built.  Two maps that are equal may iterate
differently, and so may a map and its copy.

* `RequestImpl.hashedHeaders` — what the headers that are not excluded put into the text.
* `hashedHeaders_perm` — equal maps put in the same, in some order.
* **`hash_eq_iff`** — when requests that differ at most in the order of their headers have one hash.
-/

namespace FFNetwork

/-- Two texts that `sha256` does not tell apart. -/
def Collision (text text' : StdString) : Prop := text ≠ text' ∧ sha256 text = sha256 text'

namespace RequestImpl

variable {r r' : RequestImpl}

/-- The constructor from a `Request`, where `headerMap()` returns `header_map`. -/
def copy (request : RequestImpl) (header_map : HeaderMap) : RequestImpl :=
  ((create request.url_ header_map).setMethod request.method_).setData request.data

@[simp] lemma setData_url (r : RequestImpl) (data : List UInt8) :
    (r.setData data).url_ = r.url_ := by
  rw [setData]
  split <;> rfl

@[simp] lemma setData_headers (r : RequestImpl) (data : List UInt8) :
    (r.setData data).headers_ = r.headers_ := by
  rw [setData]
  split <;> rfl

@[simp] lemma setData_data (r : RequestImpl) (data : List UInt8) :
    (r.setData data).data = data := by
  rw [setData]
  split
  · rfl
  · next hempty =>
      rw [not_lt, Nat.le_zero, List.length_eq_zero_iff] at hempty
      rw [hempty]
      rfl

/-- A copy has the url and the body of the request, and its headers in the order of the copied
map. -/
lemma copy_fields (r : RequestImpl) (header_map : HeaderMap) :
    (r.copy header_map).url_ = r.url_ ∧ (r.copy header_map).headers_ = header_map ∧
      (r.copy header_map).data = r.data := by
  simp [copy, create, setMethod]

/-! ## The texts of the headers -/

/-- What the headers put into the text, one after the other. -/
def hashedHeaders (r : RequestImpl) : List StdString :=
  (r.headers_.entries.filter fun e => !r.excludedHeaders.contains e.1).map fun e => e.1 ++ e.2

lemma amalgamation_eq_hashedHeaders (r : RequestImpl) :
    r.amalgamation = r.url_ ++ r.hashedHeaders.flatten ++ r.data := by
  have hkept : r.headers_.entries.filter (fun e => e.1 ∉ r.excludedHeaders) =
      r.headers_.entries.filter fun e => !r.excludedHeaders.contains e.1 :=
    List.filter_congr fun e _ => by simp
  rw [amalgamation_eq, hkept, hashedHeaders, List.flatMap_def]

/-- The excluded headers are read off the `Vary` entry, wherever it stands. -/
lemma excludedHeaders_congr (hheaders : r.headers_.Same r'.headers_) :
    r.excludedHeaders = r'.excludedHeaders := by
  rw [excludedHeaders, excludedHeaders, hheaders vary]

/-- Equal maps put in the same texts, in some order. -/
theorem hashedHeaders_perm (hheaders : r.headers_.Same r'.headers_) :
    r.hashedHeaders.Perm r'.hashedHeaders := by
  rw [hashedHeaders, hashedHeaders, excludedHeaders_congr hheaders]
  exact ((HeaderMap.same_iff_perm.mp hheaders).filter _).map _

/-! ## Other orders -/

/-- The same url, body and header map, however the maps were built. -/
structure Reordered (r r' : RequestImpl) : Prop where
  url : r.url_ = r'.url_
  data : r.data = r'.data
  headers : r.headers_.Same r'.headers_

/-- A copy of a request is the request, up to the order of the headers. -/
lemma reordered_copy {header_map : HeaderMap} (hheaders : r.headers_.Same header_map) :
    r.Reordered (r.copy header_map) := by
  obtain ⟨hurl, hmap, hdata⟩ := copy_fields r header_map
  exact ⟨hurl.symm, hdata.symm, by rwa [hmap]⟩

lemma Reordered.amalgamation_eq_iff (h : r.Reordered r') :
    r.amalgamation = r'.amalgamation ↔ r.hashedHeaders.flatten = r'.hashedHeaders.flatten := by
  rw [amalgamation_eq_hashedHeaders, amalgamation_eq_hashedHeaders, h.url, h.data,
    List.append_left_inj, List.append_right_inj]

/-- Every order of the entries is that of some request. -/
lemma exists_reordered (r : RequestImpl) {entries : List (Σ _ : StdString, StdString)}
    (hperm : r.headers_.entries.Perm entries) :
    ∃ r' : RequestImpl, r.Reordered r' ∧ r'.headers_.entries = entries := by
  have hnodup : entries.NodupKeys := (List.perm_nodupKeys hperm).mp r.headers_.nodupKeys
  refine ⟨{ r with headers_ := ⟨entries, hnodup⟩ }, ⟨rfl, rfl, ?_⟩, rfl⟩
  exact HeaderMap.same_iff_perm.mpr hperm

/-- Texts that commute give one text in every order. -/
lemma flatten_eq_of_perm {texts texts' : List StdString} (hperm : texts.Perm texts')
    (hcommute : ∀ t ∈ texts, ∀ t' ∈ texts, t ++ t' = t' ++ t) : texts.flatten = texts'.flatten := by
  induction hperm with
  | nil => rfl
  | cons t _ ih =>
      rw [List.flatten_cons, List.flatten_cons, ih]
      exact fun t ht t' ht' =>
        hcommute t (List.mem_cons_of_mem _ ht) t' (List.mem_cons_of_mem _ ht')
  | swap t t' texts =>
      simp only [List.flatten_cons, ← List.append_assoc]
      rw [hcommute t (by simp) t' (by simp)]
  | trans hperm _ ih ih' =>
      rw [ih hcommute]
      exact ih' fun t ht t' ht' => hcommute t (hperm.mem_iff.mpr ht) t' (hperm.mem_iff.mpr ht')

/-- Any two headers that are not excluded give one text in either order. -/
def HeadersCommute (r : RequestImpl) : Prop :=
  ∀ t ∈ r.hashedHeaders, ∀ t' ∈ r.hashedHeaders, t ++ t' = t' ++ t

/-- It does for at most one header that is not excluded. -/
lemma headersCommute_of_one (hone : r.hashedHeaders.length ≤ 1) : r.HeadersCommute := by
  intro t ht t' ht'
  obtain ⟨i, hi, rfl⟩ := List.mem_iff_getElem.mp ht
  obtain ⟨j, hj, rfl⟩ := List.mem_iff_getElem.mp ht'
  obtain rfl : i = j := by omega
  rfl

/-- Two different headers of a request can be the first ones, in either order. -/
lemma exists_first_two {e e' : Σ _ : StdString, StdString} (he : e ∈ r.headers_.entries)
    (he' : e' ∈ r.headers_.entries) (hne : e ≠ e') :
    ∃ rest, r.headers_.entries.Perm (e :: e' :: rest) := by
  refine ⟨(r.headers_.entries.erase e).erase e', ?_⟩
  have he'' : e' ∈ r.headers_.entries.erase e := (List.mem_erase_of_ne hne.symm).mpr he'
  exact (List.perm_cons_erase he).trans ((List.perm_cons_erase he'').cons e)

/-- If every order gives the same text, then the headers commute. -/
lemma headersCommute_of_amalgamation
    (hall : ∀ r', r.Reordered r' → r.amalgamation = r'.amalgamation) : r.HeadersCommute := by
  intro t ht t' ht'
  obtain ⟨e, he, rfl⟩ := List.mem_map.mp ht
  obtain ⟨e', he', rfl⟩ := List.mem_map.mp ht'
  rw [List.mem_filter] at he he'
  by_cases hne : e = e'
  · rw [hne]
  · obtain ⟨rest, hperm⟩ := exists_first_two he.1 he'.1 hne
    obtain ⟨first, hfirst, hentries⟩ := r.exists_reordered hperm
    obtain ⟨second, hsecond, hentries'⟩ :=
      r.exists_reordered (hperm.trans (List.Perm.swap e' e rest))
    have htext := (hfirst.amalgamation_eq_iff.mp (hall first hfirst)).symm.trans
      (hsecond.amalgamation_eq_iff.mp (hall second hsecond))
    rw [hashedHeaders, hashedHeaders, hentries, hentries', ← excludedHeaders_congr hfirst.headers,
      ← excludedHeaders_congr hsecond.headers] at htext
    simp only [List.filter_cons, he.2, he'.2, if_true, List.map_cons, List.flatten_cons,
      ← List.append_assoc] at htext
    have hpair := List.append_cancel_right htext
    simpa only [List.append_assoc] using hpair

/-- **The hash and the order of the headers.**  A request has the same hash as every request with
an equal url, body and header map, and not only because `sha256` fails to tell their texts apart, if
and only if its headers commute. -/
theorem hash_order_independent_iff (r : RequestImpl) :
    (∀ r', r.Reordered r' → r.hash sha256 = r'.hash sha256 ∧
      ¬ Collision r.amalgamation r'.amalgamation) ↔ r.HeadersCommute := by
  constructor
  · intro hall
    refine headersCommute_of_amalgamation fun r' hr' => ?_
    obtain ⟨hhash, hcollision⟩ := hall r' hr'
    by_contra htext
    exact hcollision ⟨htext, hhash⟩
  · intro hcommute r' hr'
    have htext : r.amalgamation = r'.amalgamation :=
      hr'.amalgamation_eq_iff.mpr (flatten_eq_of_perm (hashedHeaders_perm hr'.headers) hcommute)
    exact ⟨by rw [hash, hash, htext], fun hcollision => hcollision.1 htext⟩

/-- The two headers of a request, inserted in one order and in the other. -/
def rangeFirst : HeaderMap :=
  (AList.singleton ("User-Agent".toList.map Char.toUInt8)
    ("test_ua".toList.map Char.toUInt8)).insert
    ("Range".toList.map Char.toUInt8) ("0-".toList.map Char.toUInt8)

/-- The same headers, `Range` inserted first. -/
def userAgentFirst : HeaderMap :=
  (AList.singleton ("Range".toList.map Char.toUInt8) ("0-".toList.map Char.toUInt8)).insert
    ("User-Agent".toList.map Char.toUInt8) ("test_ua".toList.map Char.toUInt8)

/-- Their digests differ. -/
theorem hash_depends_on_order :
    ¬ ∀ r r' : RequestImpl, r.url_ = r'.url_ → r.data = r'.data → r.headers_.Same r'.headers_ →
      r.hash sha256 = r'.hash sha256 := by
  intro hall
  have hhash := hall (create ("https://bing.com".toList.map Char.toUInt8) rangeFirst)
    (create ("https://bing.com".toList.map Char.toUInt8) userAgentFirst) rfl rfl (by decide +kernel)
  exact absurd hhash (by decide +kernel)

end RequestImpl

end FFNetwork
