import FFNetwork.Net.ResponseHeaders

/-!
# Headers there and back

`ConstructHeaders` writes the headers of a request as lines, and `OnReceiveHeader` reads lines into
the headers of a response.

* `constructHeaders_lines` — which headers become lines.
* `readBack` — the lines of a request, each with a line end, read as those of a response.
* **`readBack_iff`** — when that gives the headers of the request.
-/

namespace FFNetwork

variable {r : RequestImpl} {name value key text : StdString}

/-- The lines are those of the headers other than `Range`. -/
lemma constructHeaders_lines (r : RequestImpl) :
    (constructHeaders r).2 =
      (r.headers_.entries.filter fun e => e.1 ≠ range).map fun e => headerLine e.1 e.2 := by
  have hfold : ∀ (entries : List (Σ _ : StdString, StdString))
      (acc : Option StdString × List StdString),
      (entries.foldl (fun acc header =>
        if header.1 = range then (some (cStr header.2), acc.2)
        else (acc.1, acc.2 ++ [headerLine header.1 header.2])) acc).2 =
      acc.2 ++ (entries.filter fun e => e.1 ≠ range).map fun e => headerLine e.1 e.2 := by
    intro entries
    induction entries with
    | nil => simp
    | cons e entries ih =>
        intro acc
        rw [List.foldl_cons, ih]
        by_cases he : e.1 = range
        · simp [he]
        · simp [he]
  exact hfold r.headers_.entries (none, [])

lemma zero_notMem_headerLine (name value : StdString) : 0 ∉ headerLine name value := by
  rw [headerLine, cStr]
  intro hzero
  have hne := List.mem_takeWhile_imp hzero
  simp at hne

namespace ResponseImpl

/-- What is read from a line comes from the line. -/
lemma mem_of_headerField {line : StdString} (h : headerField line = (key, text)) :
    colon ∉ key ∧ ∀ c ∈ key ++ text, c ∈ line := by
  rw [headerField] at h
  cases hpos : line.idxOf? colon with
  | none =>
      rw [hpos, Prod.mk.injEq] at h
      rw [← h.1, ← h.2]
      simp
  | some pos =>
      rw [hpos, Prod.mk.injEq] at h
      rw [List.idxOf?_eq_some_iff] at hpos
      rcases hpos with ⟨hlt, -, hbefore⟩
      refine ⟨fun hcolon => ?_, fun c hc => ?_⟩
      · rw [← h.1] at hcolon
        rcases List.mem_take_iff_getElem.mp hcolon with ⟨j, hj, heq⟩
        exact hbefore j (lt_of_lt_of_le hj (Nat.min_le_left _ _)) heq
      · rw [← h.1, ← h.2] at hc
        rcases List.mem_append.mp hc with hc | hc
        · exact List.mem_of_mem_take hc
        · exact List.mem_of_mem_drop hc

/-- The lines of a request, each with its line end, as the headers of a response. -/
def readBack (r : RequestImpl) : HeaderMap :=
  (new.receive ((constructHeaders r).2.map fun line => line ++ crlf)).headers_

/-- A header whose name ends at the first colon of its line, and whose line is not cut off. -/
structure Plain (name value : StdString) : Prop where
  nonempty : name ≠ []
  colon : FFNetwork.colon ∉ name
  text : 0 ∉ name ++ value

lemma headerField_plain (h : Plain name value) :
    headerField (headerLine name value ++ crlf) = (name, value ++ crlf) := by
  rw [headerLine_eq h.text, List.append_assoc, List.cons_append, headerField_line h.colon]
  rfl

/-- The lines that are read. -/
lemma mem_lines {line : StdString} :
    line ∈ (constructHeaders r).2.map (fun line => line ++ crlf) ↔
      ∃ name value, r.headers_.lookup name = some value ∧ name ≠ range ∧
        line = headerLine name value ++ crlf := by
  rw [constructHeaders_lines, List.mem_map]
  constructor
  · rintro ⟨line, hline, rfl⟩
    rcases List.mem_map.mp hline with ⟨⟨name, value⟩, he, rfl⟩
    rw [List.mem_filter, decide_eq_true_iff] at he
    exact ⟨name, value, AList.mem_lookup_iff.mpr he.1, he.2, rfl⟩
  · rintro ⟨name, value, hlookup, hrange, rfl⟩
    refine ⟨_, List.mem_map.mpr ⟨⟨name, value⟩, ?_, rfl⟩, rfl⟩
    rw [List.mem_filter, decide_eq_true_iff]
    exact ⟨AList.mem_lookup_iff.mp hlookup, hrange⟩

/-- What has been read comes from a line. -/
lemma exists_line (h : (readBack r).lookup key = some text) :
    key ≠ [] ∧ ∃ name value, r.headers_.lookup name = some value ∧ name ≠ range ∧
      headerField (headerLine name value ++ crlf) = (key, text) := by
  have hmem : key ∈ (readBack r) := AList.lookup_isSome.mp (by rw [h]; rfl)
  rcases mem_receive.mp hmem with hmem | ⟨-, -, -, hne⟩
  · exact absurd hmem (AList.notMem_empty key)
  · rcases lookup_receive h with ⟨line, hline, hfield⟩ | ⟨-, hnew⟩
    · rcases mem_lines.mp hline with ⟨name, value, hlookup, hrange, rfl⟩
      exact ⟨hne, name, value, hlookup, hrange, hfield⟩
    · cases hnew

/-- **Headers there and back.**  Read back, the lines of a request give its headers other than
`Range`, each value with the line end behind it, if and only if each of these headers has a name
that is not empty and has no colon, and neither the name nor the value has a `0`. -/
theorem readBack_iff (r : RequestImpl) :
    (∀ name, (readBack r).lookup name =
        if name = range then none else (r.headers_.lookup name).map fun value => value ++ crlf) ↔
      ∀ name value, r.headers_.lookup name = some value → name ≠ range → Plain name value := by
  constructor
  · intro hboth name value hlookup hrange
    have hname := hboth name
    rw [if_neg hrange, hlookup, Option.map_some] at hname
    rcases exists_line hname with ⟨hne, name', value', -, -, hfield⟩
    rcases mem_of_headerField hfield with ⟨hcolon, hmem⟩
    refine ⟨hne, hcolon, fun hzero => ?_⟩
    have hline : (0 : UInt8) ∈ headerLine name' value' ++ crlf := by
      refine hmem 0 ?_
      rw [← List.append_assoc]
      exact List.mem_append_left _ hzero
    rcases List.mem_append.mp hline with hline | hline
    · exact zero_notMem_headerLine name' value' hline
    · exact absurd hline (by decide)
  · intro hplain name
    have hfrom : ∀ text, (readBack r).lookup name = some text → name ≠ range ∧
        ∃ value, r.headers_.lookup name = some value ∧ text = value ++ crlf := by
      intro text h
      rcases exists_line h with ⟨-, name', value, hlookup, hrange, hfield⟩
      rw [headerField_plain (hplain name' value hlookup hrange), Prod.mk.injEq] at hfield
      rcases hfield with ⟨rfl, rfl⟩
      exact ⟨hrange, value, hlookup, rfl⟩
    have hto : ∀ value, r.headers_.lookup name = some value → name ≠ range →
        name ∈ (readBack r) := by
      intro value hlookup hrange
      have hs := hplain name value hlookup hrange
      refine mem_receive.mpr (Or.inr ⟨_, mem_lines.mpr ⟨name, value, hlookup, hrange, rfl⟩, ?_, ?_⟩)
      · rw [headerField_plain hs]
      · exact hs.nonempty
    cases hread : (readBack r).lookup name with
    | some text =>
        rcases hfrom text hread with ⟨hrange, value, hlookup, rfl⟩
        rw [if_neg hrange, hlookup]
        rfl
    | none =>
        split
        · rfl
        · next hrange =>
            cases hlookup : r.headers_.lookup name with
            | none => rfl
            | some value =>
                have hmem := AList.lookup_isSome.mpr (hto value hlookup hrange)
                rw [hread] at hmem
                cases hmem

end ResponseImpl

end FFNetwork
