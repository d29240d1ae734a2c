import FFNetwork.Net.CurlClient
import FFNetwork.Net.RequestImpl
import Mathlib.Data.List.TakeWhile

/-!
# The headers of a response

`source/net/response_impl.{h,cpp}`, and the parts of `request_task_impl.cpp` that write the headers
of a request and read those of a response.  libcurl passes each header line with its line end, and
since `CURLOPT_FOLLOWLOCATION` is set, the lines of every response on the way to the last one.

* `onReceiveHeader_line` — what a line adds to the header map.
* `received_value_ne` — the value is never the one on the line.
* **`final_headers_iff`** — when the map has the headers of the final response only.
-/

namespace FFNetwork

/-- What ends the name of a header. -/
def colon : UInt8 := ':'.toUInt8

/-- The end of a line. -/
def crlf : StdString := [13, 10]

/-- A space or a tab. -/
def isBlank (c : UInt8) : Bool := c = 32 || c = 9

/-- What a function that takes a `const char *` sees of a string. -/
def cStr (s : StdString) : StdString := s.takeWhile (· ≠ 0)

/-! ## The request's side -/

/-- The header that becomes the option `CURLOPT_RANGE`. -/
def range : StdString := ['R', 'a', 'n', 'g', 'e'].map Char.toUInt8

/-- The line that `ConstructHeaders` writes for a header. -/
def headerLine (name value : StdString) : StdString := cStr (name ++ [colon, 32] ++ value)

/-- A text without a `0` is passed on as it is. -/
lemma headerLine_eq {name value : StdString} (htext : 0 ∉ name ++ value) :
    headerLine name value = name ++ colon :: (32 :: value) := by
  rw [headerLine, cStr, List.takeWhile_eq_self_iff.mpr]
  · simp
  · intro c hc
    rw [decide_eq_true_iff]
    rintro rfl
    simp only [List.mem_append, List.mem_cons, List.not_mem_nil, or_false, colon] at hc htext
    rcases hc with (hc | hc | hc) | hc
    · exact htext (Or.inl hc)
    · cases hc
    · cases hc
    · exact htext (Or.inr hc)

/-- `ConstructHeaders`: the value for `CURLOPT_RANGE`, and the lines of the other headers. -/
def constructHeaders (request : RequestImpl) : Option StdString × List StdString :=
  request.headers_.entries.foldl (fun (rangeOption, headers) header =>
    if header.1 = range then (some (cStr header.2), headers)
    else (rangeOption, headers ++ [headerLine header.1 header.2])) (none, [])

/-! ## The response -/

/-- A `ResponseImpl`.  What the constructor without arguments does not set is `none`. -/
structure ResponseImpl where
  request_ : Option RequestImpl
  status_code_ : Option Int32
  response_code_ : Option ResponseCode
  cancelled_ : Bool
  headers_ : HeaderMap

namespace ResponseImpl

/-- `ResponseImpl::ResponseImpl()`. -/
def new : ResponseImpl := ⟨none, none, none, false, ∅⟩

/-- `ResponseImpl::Construct`. -/
def construct (response : ResponseImpl) (request : RequestImpl) (status_code : Int32)
    (response_code : ResponseCode) : ResponseImpl :=
  { response with
    request_ := some request
    status_code_ := some status_code
    response_code_ := some response_code }

/-- `key` and `value` in `OnReceiveHeader`. -/
def headerField (header : StdString) : StdString × StdString :=
  match header.idxOf? colon with
  | none => ([], [])
  | some pos => (header.take pos, header.drop (min (pos + 2) header.length))

/-- `RequestTaskImpl::OnReceiveHeader`, on the task's response. -/
def onReceiveHeader (response : ResponseImpl) (header : StdString) : ResponseImpl :=
  let (key, value) := headerField header
  if key ≠ [] then { response with headers_ := response.headers_.insert key value } else response

/-- `header_callback`: libcurl goes on if the result is the length of the line. -/
def headerCallback (response : ResponseImpl) (data : StdString) : ResponseImpl × ℕ :=
  (response.onReceiveHeader data, data.length)

/-- The header lines of a transfer. -/
def receive (response : ResponseImpl) (lines : List StdString) : ResponseImpl :=
  lines.foldl (fun response line => (response.headerCallback line).1) response

/-! ## One line -/

variable {response : ResponseImpl} {key value name line : StdString} {lines : List StdString}

/-- The key is what stands before the first colon; the value leaves out one character behind it. -/
lemma headerField_line (hkey : colon ∉ key) (text : StdString) :
    headerField (key ++ colon :: text) = (key, text.drop 1) := by
  have hpos : (key ++ colon :: text).idxOf? colon = some key.length := by
    rw [List.idxOf?_eq_some_iff]
    refine ⟨by simp, by simp, fun j hj => ?_⟩
    simp only [List.getElem_append_left hj]
    intro heq
    exact hkey (heq ▸ List.getElem_mem hj)
  have hdrop : (key ++ colon :: text).drop (key.length + 2) = text.drop 1 := by
    rw [← List.drop_drop, List.drop_left]
    rfl
  rw [headerField, hpos, ← hdrop]
  simp only [List.take_left, Prod.mk.injEq, true_and]
  rcases Nat.le_total (key.length + 2) (key ++ colon :: text).length with hle | hle
  · rw [Nat.min_eq_left hle]
  · rw [Nat.min_eq_right hle, List.drop_length, List.drop_eq_nil_of_le hle]

lemma headerField_no_colon (hline : colon ∉ line) : headerField line = ([], []) := by
  rw [headerField, List.idxOf?_eq_none_iff.mpr hline]

/-- What a line with a key adds to the header map. -/
lemma onReceiveHeader_line (response : ResponseImpl) (hkey : key ≠ []) (hcolon : colon ∉ key)
    (text : StdString) :
    ((response.onReceiveHeader (key ++ colon :: text)).headers_.lookup key = some (text.drop 1)) ∧
      ∀ name ≠ key, (response.onReceiveHeader (key ++ colon :: text)).headers_.lookup name =
        response.headers_.lookup name := by
  have hheaders : (response.onReceiveHeader (key ++ colon :: text)).headers_ =
      response.headers_.insert key (text.drop 1) := by
    simp [onReceiveHeader, headerField_line hcolon, hkey]
  rw [hheaders]
  exact ⟨AList.lookup_insert _, fun name hname => AList.lookup_insert_ne hname⟩

/-- The map has the value for the key, and everything else as before. -/
def Decoded (before after : ResponseImpl) (key value : StdString) : Prop :=
  after.headers_.lookup key = some value ∧
    ∀ name ≠ key, after.headers_.lookup name = before.headers_.lookup name

/-- The parts of a header line: a name, blanks and a value. -/
structure LineParts (key blanks value : StdString) : Prop where
  key_nonempty : key ≠ []
  key_chars : ∀ c ∈ key, c ≠ colon ∧ c ∉ crlf
  value_chars : ∀ c ∈ value, c ∉ crlf
  value_front : ∀ c, value.head? = some c → isBlank c = false
  value_back : ∀ c, value.getLast? = some c → isBlank c = false
  blanks : ∀ c ∈ blanks, isBlank c = true

/-- **The received value.**  No line leaves its value in the map: the line end stays at the end of
it, even where the one character left out is the blank behind the colon. -/
theorem received_value_ne (response : ResponseImpl) {blanks : StdString}
    (hparts : LineParts key blanks value) :
    ¬ response.Decoded (response.onReceiveHeader (key ++ colon :: (blanks ++ value ++ crlf))) key
      value := by
  rintro ⟨hvalue, _⟩
  have hcolon : colon ∉ key := fun hmem => (hparts.key_chars colon hmem).1 rfl
  rw [(onReceiveHeader_line response hparts.key_nonempty hcolon _).1, Option.some.injEq] at hvalue
  have hlength := congrArg List.length hvalue
  simp only [List.length_drop, List.length_append, crlf, List.length_cons, List.length_nil]
    at hlength
  omega

/-- The line `a: b`. -/
lemma lineParts_ab : LineParts ['a'.toUInt8] [32] ['b'.toUInt8] where
  key_nonempty := List.cons_ne_nil _ _
  key_chars := by
    intro c hc
    rw [List.mem_singleton.mp hc]
    decide +kernel
  value_chars := by
    intro c hc
    rw [List.mem_singleton.mp hc]
    decide +kernel
  value_front := by
    rintro _ ⟨⟩
    decide
  value_back := by
    rintro _ ⟨⟩
    decide
  blanks := by
    intro c hc
    rw [List.mem_singleton.mp hc]
    rfl

theorem received_ab_ne :
    ¬ new.Decoded (new.onReceiveHeader
      (['a'.toUInt8] ++ colon :: ([32] ++ ['b'.toUInt8] ++ crlf))) ['a'.toUInt8] ['b'.toUInt8] :=
  received_value_ne new lineParts_ab

/-- The value that is received is `b` with its line end. -/
theorem received_value_not_exact :
    ¬ ∀ (response : ResponseImpl) (key blanks value : StdString), LineParts key blanks value →
      response.Decoded (response.onReceiveHeader (key ++ colon :: (blanks ++ value ++ crlf))) key
        value := by
  intro hall
  have hvalue := (hall new _ _ _ lineParts_ab).1
  exact absurd hvalue (by decide)

/-- A line that `ConstructHeaders` has written comes back with its line end. -/
theorem received_headerLine (response : ResponseImpl) (hname : name ≠ []) (hcolon : colon ∉ name)
    (htext : 0 ∉ name ++ value) :
    (response.onReceiveHeader (headerLine name value ++ crlf)).headers_.lookup name =
      some (value ++ crlf) := by
  rw [headerLine_eq htext, List.append_assoc, List.cons_append,
    (onReceiveHeader_line response hname hcolon _).1]
  rfl

end ResponseImpl

/-! ## A transfer -/

/-- A header of a response: the name, and what stands between the colon and the line end. -/
structure HeaderField where
  name : StdString
  text : StdString
  name_nonempty : name ≠ []
  name_colon : colon ∉ name

/-- The line of the header, with its line end. -/
def HeaderField.line (f : HeaderField) : StdString := f.name ++ colon :: (f.text ++ crlf)

/-- The header block of one response: the status line and the fields. -/
structure HeaderBlock where
  status : StdString
  fields : List HeaderField

namespace HeaderBlock

/-- The lines as libcurl passes them, with the blank line at the end. -/
def lines (b : HeaderBlock) : List StdString :=
  (b.status ++ crlf) :: (b.fields.map HeaderField.line ++ [crlf])

/-- The names of the headers. -/
def names (b : HeaderBlock) : List StdString := b.fields.map HeaderField.name

/-- What stands before a colon in the status line. -/
def statusKey (b : HeaderBlock) : List StdString :=
  if colon ∈ b.status then [b.status.takeWhile (· ≠ colon)].filter (· ≠ []) else []

/-- What stands before the first colon of some line. -/
def keys (b : HeaderBlock) : List StdString := b.statusKey ++ b.names

end HeaderBlock

namespace ResponseImpl

variable {response : ResponseImpl} {key value line : StdString} {lines : List StdString}
  {b last : HeaderBlock} {blocks : List HeaderBlock}

/-- The line adds the key to the map. -/
def HasKey (line key : StdString) : Prop := (headerField line).1 = key ∧ key ≠ []

lemma mem_onReceiveHeader :
    key ∈ (response.onReceiveHeader line).headers_ ↔ key ∈ response.headers_ ∨ HasKey line key := by
  by_cases hline : (headerField line).1 = []
  · have hnot : ¬ HasKey line key := fun ⟨hkey, hne⟩ => hne (hkey.symm.trans hline)
    simp [onReceiveHeader, hline, hnot]
  · simp only [onReceiveHeader, ne_eq, hline, not_false_eq_true, if_true, AList.mem_insert, HasKey]
    constructor
    · rintro (rfl | hmem)
      · exact Or.inr ⟨rfl, hline⟩
      · exact Or.inl hmem
    · rintro (hmem | ⟨rfl, _⟩)
      · exact Or.inr hmem
      · exact Or.inl rfl

lemma lookup_onReceiveHeader
    (h : (response.onReceiveHeader line).headers_.lookup key = some value) :
    headerField line = (key, value) ∨
      ¬ HasKey line key ∧ response.headers_.lookup key = some value := by
  by_cases hline : (headerField line).1 = []
  · simp only [onReceiveHeader, hline, ne_eq, not_true_eq_false, if_false] at h
    exact Or.inr ⟨fun ⟨hkey, hne⟩ => hne (hkey.symm.trans hline), h⟩
  · simp only [onReceiveHeader, ne_eq, hline, not_false_eq_true, if_true] at h
    by_cases hkey : (headerField line).1 = key
    · rw [← hkey, AList.lookup_insert, Option.some.injEq] at h
      exact Or.inl (Prod.ext hkey h)
    · rw [AList.lookup_insert_ne (Ne.symm hkey)] at h
      exact Or.inr ⟨fun hhas => hkey hhas.1, h⟩

@[simp] lemma receive_nil (response : ResponseImpl) : response.receive [] = response := rfl

@[simp] lemma receive_cons (response : ResponseImpl) (line : StdString) (lines : List StdString) :
    response.receive (line :: lines) = (response.onReceiveHeader line).receive lines := rfl

lemma receive_append (response : ResponseImpl) (lines lines' : List StdString) :
    response.receive (lines ++ lines') = (response.receive lines).receive lines' :=
  List.foldl_append

/-- The map gets the keys of the lines. -/
lemma mem_receive :
    key ∈ (response.receive lines).headers_ ↔
      key ∈ response.headers_ ∨ ∃ line ∈ lines, HasKey line key := by
  induction lines generalizing response with
  | nil => simp
  | cons line lines ih =>
      rw [receive_cons, ih, mem_onReceiveHeader, or_assoc]
      simp

/-- A value of the map is that of a line with the key, or was there before and there is no such
line. -/
lemma lookup_receive (h : (response.receive lines).headers_.lookup key = some value) :
    (∃ line ∈ lines, headerField line = (key, value)) ∨
      (∀ line ∈ lines, ¬ HasKey line key) ∧ response.headers_.lookup key = some value := by
  induction lines generalizing response with
  | nil => exact Or.inr ⟨by simp, h⟩
  | cons line lines ih =>
      rw [receive_cons] at h
      rcases ih h with ⟨line', hline', hfield⟩ | ⟨hnone, hbefore⟩
      · exact Or.inl ⟨line', List.mem_cons_of_mem _ hline', hfield⟩
      · rcases lookup_onReceiveHeader hbefore with hfield | ⟨hnot, hbefore⟩
        · exact Or.inl ⟨line, List.mem_cons_self, hfield⟩
        · refine Or.inr ⟨?_, hbefore⟩
          simpa using ⟨hnot, hnone⟩

/-! ## The keys of a block -/

lemma hasKey_line (f : HeaderField) : HasKey f.line key ↔ key = f.name := by
  rw [HasKey, HeaderField.line, headerField_line f.name_colon]
  constructor
  · exact fun hkey => hkey.1.symm
  · rintro rfl
    exact ⟨rfl, f.name_nonempty⟩

lemma hasKey_blank : ¬ HasKey crlf key := by
  rintro ⟨rfl, hkey⟩
  exact hkey (by rw [headerField_no_colon (by decide)])

lemma takeWhile_colon {front : StdString} (hfront : colon ∉ front) (back : StdString) :
    (front ++ colon :: back).takeWhile (· ≠ colon) = front := by
  rw [List.takeWhile_append_of_pos]
  · simp
  · intro c hc
    rw [decide_eq_true_iff]
    rintro rfl
    exact hfront hc

lemma hasKey_status : HasKey (b.status ++ crlf) key ↔ key ∈ b.statusKey := by
  by_cases hcolon : colon ∈ b.status
  · obtain ⟨front, back, hstatus, hfront⟩ := List.eq_append_cons_of_mem hcolon
    rw [HasKey, HeaderBlock.statusKey, if_pos hcolon, hstatus, takeWhile_colon hfront,
      List.append_assoc, List.cons_append, headerField_line hfront, List.mem_filter,
      List.mem_singleton, decide_eq_true_iff]
    exact and_congr_left' eq_comm
  · have hline : colon ∉ b.status ++ crlf := by
      rw [List.mem_append, not_or]
      exact ⟨hcolon, by decide⟩
    rw [HasKey, headerField_no_colon hline, HeaderBlock.statusKey, if_neg hcolon]
    simp only [List.not_mem_nil, iff_false, not_and, not_not]
    exact fun hkey => hkey.symm

lemma exists_field_iff :
    (∃ line ∈ b.fields.map HeaderField.line ++ [crlf], HasKey line key) ↔ key ∈ b.names := by
  simp only [List.mem_append, List.mem_map, List.mem_singleton, HeaderBlock.names]
  constructor
  · rintro ⟨line, ⟨f, hf, rfl⟩ | rfl, hkey⟩
    · exact ⟨f, hf, ((hasKey_line f).mp hkey).symm⟩
    · exact absurd hkey hasKey_blank
  · rintro ⟨f, hf, rfl⟩
    exact ⟨f.line, Or.inl ⟨f, hf, rfl⟩, (hasKey_line f).mpr rfl⟩

lemma exists_line_iff : (∃ line ∈ b.lines, HasKey line key) ↔ key ∈ b.keys := by
  simp only [HeaderBlock.lines, List.mem_cons, exists_eq_or_imp]
  rw [exists_field_iff, hasKey_status, HeaderBlock.keys, List.mem_append]

/-! ## The headers of a transfer -/

/-- The response that the callback gets after a transfer with these header blocks. -/
def deliver (blocks : List HeaderBlock) (request : RequestImpl) (status_code : Int32)
    (response_code : ResponseCode) : ResponseImpl :=
  (new.receive (blocks.flatMap HeaderBlock.lines)).construct request status_code response_code

/-- The keys are the header names of the block, and each value is one that the block has. -/
structure HeadersOf (response : ResponseImpl) (b : HeaderBlock) : Prop where
  keys : ∀ key, key ∈ response.headers_ ↔ key ∈ b.names
  values : ∀ key value, response.headers_.lookup key = some value →
    ∃ f ∈ b.fields, f.name = key ∧ value = (f.text ++ crlf).drop 1

/-- The keys come from all lines of the transfer. -/
lemma mem_transfer :
    key ∈ (new.receive (blocks.flatMap HeaderBlock.lines)).headers_ ↔
      ∃ b ∈ blocks, key ∈ b.keys := by
  rw [mem_receive]
  simp only [List.mem_flatMap]
  constructor
  · rintro (hmem | ⟨line, ⟨b, hb, hline⟩, hkey⟩)
    · exact absurd hmem (AList.notMem_empty key)
    · exact ⟨b, hb, exists_line_iff.mp ⟨line, hline, hkey⟩⟩
  · rintro ⟨b, hb, hkey⟩
    obtain ⟨line, hline, hkey⟩ := exists_line_iff.mpr hkey
    exact Or.inr ⟨line, ⟨b, hb, hline⟩, hkey⟩

/-- For a header name of the last block the value is one of that block. -/
lemma value_transfer (hname : key ∈ last.names)
    (hvalue : ((new.receive ((blocks ++ [last]).flatMap HeaderBlock.lines)).headers_.lookup key) =
      some value) :
    ∃ f ∈ last.fields, f.name = key ∧ value = (f.text ++ crlf).drop 1 := by
  rw [List.flatMap_append, List.flatMap_singleton, HeaderBlock.lines, receive_append,
    receive_cons] at hvalue
  rcases lookup_receive hvalue with ⟨line, hline, hfield⟩ | ⟨hnone, _⟩
  · rcases List.mem_append.mp hline with hline | hline
    · obtain ⟨f, hf, rfl⟩ := List.mem_map.mp hline
      rw [HeaderField.line, headerField_line f.name_colon, Prod.mk.injEq] at hfield
      exact ⟨f, hf, hfield.1, hfield.2.symm⟩
    · rw [List.mem_singleton.mp hline, headerField_no_colon (by decide), Prod.mk.injEq] at hfield
      obtain ⟨f, _, hf⟩ := List.mem_map.mp hname
      exact absurd (hf.trans hfield.1.symm) f.name_nonempty
  · obtain ⟨line, hline, hkey⟩ := exists_field_iff.mpr hname
    exact absurd hkey (hnone line hline)

/-- **The headers of the final response.**  The response that the callback gets has the headers of
the last block only, if and only if every header name of an earlier block, and whatever stands
before a colon in a status line, is also a header name of the last block. -/
theorem final_headers_iff (blocks : List HeaderBlock) (last : HeaderBlock) (request : RequestImpl)
    (status_code : Int32) (response_code : ResponseCode) :
    (deliver (blocks ++ [last]) request status_code response_code).HeadersOf last ↔
      ∀ b ∈ blocks ++ [last], ∀ key ∈ b.keys, key ∈ last.names := by
  constructor
  · intro hheaders b hb key hkey
    exact (hheaders.keys key).mp (mem_transfer.mpr ⟨b, hb, hkey⟩)
  · intro hkeys
    have hmem : ∀ key, key ∈ (deliver (blocks ++ [last]) request status_code
        response_code).headers_ ↔ key ∈ last.names := by
      intro key
      refine mem_transfer.trans ⟨fun ⟨b, hb, hkey⟩ => hkeys b hb key hkey, fun hname => ?_⟩
      exact ⟨last, by simp, List.mem_append_right _ hname⟩
    refine ⟨hmem, fun key value hvalue => value_transfer ((hmem key).mp ?_) hvalue⟩
    exact AList.lookup_isSome.mp (by rw [hvalue]; rfl)

/-- The name of the header with the target of a redirect. -/
def location : StdString := "Location".toList.map Char.toUInt8

/-- A redirect with a `Location`, and the final response without it. -/
def redirected : HeaderBlock :=
  ⟨"HTTP/1.1 301 Moved".toList.map Char.toUInt8,
    [⟨location, " /b".toList.map Char.toUInt8, by decide +kernel,
      by decide +kernel⟩]⟩

/-- The response that the redirect leads to, without a header. -/
def arrived : HeaderBlock := ⟨"HTTP/1.1 200 OK".toList.map Char.toUInt8, []⟩

/-- The `Location` of the redirect is delivered. -/
theorem redirect_headers_delivered :
    ¬ ∀ (blocks : List HeaderBlock) (last : HeaderBlock) (request : RequestImpl)
      (status_code : Int32) (response_code : ResponseCode),
      (deliver (blocks ++ [last]) request status_code response_code).HeadersOf last := by
  intro hall
  have hnames : location ∈ redirected.keys := List.mem_append_right _ List.mem_cons_self
  have hkey := mem_transfer.mpr
    ⟨redirected, List.mem_append_left [arrived] (List.mem_singleton_self _), hnames⟩
  have hname := ((hall [redirected] arrived (.create [] ∅) 200 .OK).keys location).mp hkey
  exact List.not_mem_nil hname

end ResponseImpl

end FFNetwork
