import FFNetwork.Net.RequestImpl
import FFNetwork.Utils.Sha256

/-!
# What Vary excludes

A `Vary` entry names the headers that are left out of the hash, separated by commas.
`RequestImpl::hash` reads the names with `std::getline` and takes the white space out of them.

* `getlines_eq` — the tokens are the pieces between the commas, but for an empty piece at the end.
* `varyNames` — the names that a `Vary` value excludes; `mem_varyNames_iff`.
* **`vary_exclusion`** — exactly these headers do not count for the hash.
-/

namespace FFNetwork

/-! ## The names -/

/-- A list of pieces without an empty one at the end. -/
def dropEmptyLast (pieces : List StdString) : List StdString :=
  if pieces.getLast? = some [] then pieces.dropLast else pieces

lemma dropEmptyLast_cons (piece : StdString) {pieces : List StdString} (h : pieces ≠ []) :
    dropEmptyLast (piece :: pieces) = piece :: dropEmptyLast pieces := by
  obtain ⟨p, ps, rfl⟩ := List.exists_cons_of_ne_nil h
  rw [dropEmptyLast, dropEmptyLast, List.getLast?_cons_cons, List.dropLast_cons_cons]
  split <;> rfl

lemma mem_of_mem_dropEmptyLast {piece : StdString} {pieces : List StdString}
    (h : piece ∈ dropEmptyLast pieces) : piece ∈ pieces := by
  rw [dropEmptyLast] at h
  split at h
  · exact List.dropLast_subset _ h
  · exact h

lemma mem_dropEmptyLast {piece : StdString} {pieces : List StdString} (hpiece : piece ≠ [])
    (h : piece ∈ pieces) : piece ∈ dropEmptyLast pieces := by
  rw [dropEmptyLast]
  split
  · next hlast =>
      rw [← List.dropLast_append_getLast? [] hlast, List.mem_append, List.mem_singleton] at h
      exact h.resolve_right hpiece
  · exact h

lemma modifyHead_nil_append (pieces : List StdString) :
    (pieces.modifyHead fun piece => [] ++ piece) = pieces := by
  cases pieces <;> rfl

/-- `std::getline` reads up to each delimiter, and up to the end of the stream if there is something
left. -/
theorem getlines_eq (delim : UInt8) (token text : StdString) :
    getlines delim token text =
      dropEmptyLast ((text.splitOn delim).modifyHead fun piece => token ++ piece) := by
  induction text generalizing token with
  | nil =>
      cases token with
      | nil => simp [getlines, dropEmptyLast]
      | cons c token => simp [getlines, dropEmptyLast]
  | cons c text ih =>
      have hne : text.splitOn delim ≠ [] := List.splitOnP_ne_nil _ _
      rw [getlines, List.splitOn_cons_eq_if_modifyHead]
      simp only [beq_iff_eq]
      split
      · rw [ih, modifyHead_nil_append, List.modifyHead_cons, List.append_nil,
          dropEmptyLast_cons token hne]
      · rw [ih, List.modifyHead_modifyHead]
        simp [Function.comp_def]

/-- A piece without its white space. -/
def withoutSpace (piece : StdString) : StdString := piece.filter fun c => !isspace c

/-- The names between the commas of a `Vary` value.  What is behind the last comma counts only if
there is something. -/
def varyNames (value : StdString) : List StdString :=
  (dropEmptyLast (value.splitOn ','.toUInt8)).map withoutSpace

/-- For a name that is not empty it makes no difference what is behind the last comma. -/
lemma mem_varyNames_iff {name value : StdString} (hname : name ≠ []) :
    name ∈ varyNames value ↔ name ∈ (value.splitOn ','.toUInt8).map withoutSpace := by
  simp only [varyNames, List.mem_map]
  constructor
  · rintro ⟨piece, hpiece, rfl⟩
    exact ⟨piece, mem_of_mem_dropEmptyLast hpiece, rfl⟩
  · rintro ⟨piece, hpiece, rfl⟩
    refine ⟨piece, mem_dropEmptyLast ?_ hpiece, rfl⟩
    rintro rfl
    exact hname rfl

namespace RequestImpl

variable {r : RequestImpl} {name value : StdString}

lemma excludedHeaders_eq (hvary : r.headers_.lookup vary = some value) :
    r.excludedHeaders = varyNames value := by
  rw [excludedHeaders, hvary]
  simp only [getlines_eq, modifyHead_nil_append, varyNames]
  rfl

/-! ## Another value -/

/-- `headerMap()[name] = value` for a name that is there, which keeps its place in the iteration. -/
def overwriteHeader (r : RequestImpl) (name value : StdString) : RequestImpl :=
  { r with headers_ := r.headers_.replace name value }

/-- An entry keeps its place, whatever its value. -/
lemma exists_kreplace {entries : List (Σ _ : StdString, StdString)}
    (hname : name ∈ entries.keys) :
    ∃ front old back, entries = front ++ ⟨name, old⟩ :: back ∧
      ∀ value, entries.kreplace name value = front ++ ⟨name, value⟩ :: back := by
  induction entries with
  | nil => simp at hname
  | cons e entries ih =>
      rcases e with ⟨first, old⟩
      by_cases hfirst : name = first
      · subst hfirst
        refine ⟨[], old, entries, rfl, fun value => ?_⟩
        exact List.lookmap_cons_some _ _ (by simp)
      · have hrest : name ∈ entries.keys := by
          simpa [List.keys_cons, hfirst] using hname
        obtain ⟨front, old', back, hentries, hreplace⟩ := ih hrest
        refine ⟨⟨first, old⟩ :: front, old', back, by rw [hentries]; rfl, fun value => ?_⟩
        rw [List.cons_append, ← hreplace value]
        exact List.lookmap_cons_none _ _ (by simp [hfirst])

/-- The entries of a request, cut at a header, and the same with another value in its place. -/
lemma exists_overwriteHeader (hname : name ∈ r.headers_) :
    ∃ front old back, r.headers_.entries = front ++ ⟨name, old⟩ :: back ∧
      ∀ value, (r.overwriteHeader name value).headers_.entries = front ++ ⟨name, value⟩ :: back :=
  exists_kreplace hname

/-- Overwriting another header leaves the `Vary` entry as it is. -/
lemma lookup_overwriteHeader (hname : name ∈ r.headers_) (hne : name ≠ vary) (value : StdString) :
    (r.overwriteHeader name value).headers_.lookup vary = r.headers_.lookup vary := by
  obtain ⟨front, old, back, hentries, hreplace⟩ := exists_overwriteHeader hname
  rw [AList.lookup, AList.lookup, hreplace value, hentries, List.dlookup_append,
    List.dlookup_append, List.dlookup_cons_ne _ _ hne.symm, List.dlookup_cons_ne _ _ hne.symm]

/-- The text with another value for a header: what is in front of the header and what is behind it
do not depend on the value. -/
lemma exists_amalgamation_eq (hvary : r.headers_.lookup vary = some value)
    (hname : name ∈ r.headers_) (hne : name ≠ vary) :
    ∃ front back, ∀ v, (r.overwriteHeader name v).amalgamation =
      if name ∈ varyNames value then front ++ back else front ++ (name ++ v) ++ back := by
  obtain ⟨front, old, back, hentries, hreplace⟩ := exists_overwriteHeader hname
  let kept (e : Σ _ : StdString, StdString) : Bool := e.1 ∉ varyNames value
  refine ⟨r.url_ ++ (front.filter kept).flatMap fun e => e.1 ++ e.2,
    ((back.filter kept).flatMap fun e => e.1 ++ e.2) ++ r.data, fun v => ?_⟩
  have hexcluded : (r.overwriteHeader name v).excludedHeaders = varyNames value :=
    excludedHeaders_eq ((lookup_overwriteHeader hname hne v).trans hvary)
  rw [amalgamation_eq, hexcluded, hreplace v, List.filter_append, List.flatMap_append]
  split
  · next hmem => simp [kept, hmem, overwriteHeader, RequestImpl.data]
  · next hnot => simp [kept, hnot, overwriteHeader, RequestImpl.data]

/-- **What Vary excludes.**  Of the other headers of a request, those that `Vary` names do not count
for the hash, whatever their values, and of each that it does not name every value gives a text of
its own. -/
theorem vary_exclusion (hvary : r.headers_.lookup vary = some value) (hname : name ∈ r.headers_)
    (hne : name ≠ vary) (v v' : StdString) :
    (name ∈ varyNames value →
      (r.overwriteHeader name v).hash sha256 = (r.overwriteHeader name v').hash sha256) ∧
    (name ∉ varyNames value → v ≠ v' →
      (r.overwriteHeader name v).amalgamation ≠ (r.overwriteHeader name v').amalgamation) := by
  obtain ⟨front, back, htext⟩ := exists_amalgamation_eq hvary hname hne
  constructor
  · intro hmem
    rw [hash, hash, htext, htext, if_pos hmem, if_pos hmem]
  · intro hnot hvalues heq
    rw [htext, htext, if_neg hnot, if_neg hnot] at heq
    have hheader := List.append_cancel_left (List.append_cancel_right heq)
    exact hvalues (List.append_cancel_left hheader)

/-- A request with a header `a`, and `Vary: b, a`. -/
def variedRequest : RequestImpl :=
  create [] ((AList.singleton ['a'.toUInt8] []).insert vary
    ['b'.toUInt8, ','.toUInt8, ' '.toUInt8, 'a'.toUInt8])

/-- Its header `a` does not count. -/
theorem vary_excludes_a :
    (variedRequest.overwriteHeader ['a'.toUInt8] ['1'.toUInt8]).hash sha256 =
      (variedRequest.overwriteHeader ['a'.toUInt8] ['2'.toUInt8]).hash sha256 := by
  have hvary : variedRequest.headers_.lookup vary =
      some ['b'.toUInt8, ','.toUInt8, ' '.toUInt8, 'a'.toUInt8] := by decide
  exact (vary_exclusion hvary (by decide) (by decide) ['1'.toUInt8] ['2'.toUInt8]).1
    (by decide +kernel)

/-- A request with a header of the empty name, and `Vary: a,`. -/
def emptyNameRequest : RequestImpl :=
  create [] ((AList.singleton [] []).insert vary ['a'.toUInt8, ','.toUInt8])

/-- The piece behind the last comma is empty, but the header of that name counts. -/
theorem empty_last_piece_counts :
    ¬ ∀ (r : RequestImpl) (name value v v' : StdString), r.headers_.lookup vary = some value →
      name ∈ r.headers_ → name ≠ vary →
        (name ∈ (value.splitOn ','.toUInt8).map withoutSpace →
          (r.overwriteHeader name v).hash sha256 = (r.overwriteHeader name v').hash sha256) ∧
        (name ∉ (value.splitOn ','.toUInt8).map withoutSpace → v ≠ v' →
          (r.overwriteHeader name v).amalgamation ≠ (r.overwriteHeader name v').amalgamation) := by
  intro hall
  have hhash := (hall emptyNameRequest [] ['a'.toUInt8, ','.toUInt8] ['1'.toUInt8] ['2'.toUInt8]
    (by decide) (by decide) (by decide)).1 (by decide +kernel)
  exact absurd hhash (by decide +kernel)

end RequestImpl

end FFNetwork
