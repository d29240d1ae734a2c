import FFNetwork.Base.MessageLoop.Message
import FFNetwork.Lib.StepSystem

/-!
# A message as a byte stream

What is encoded into a message is to come out again, and nothing else.  The history of a message
keeps the values encoded so far; a call of `Encode` that returns false leaves it as it is.

Two things go wrong.  `PrepareDecode` looks at the length of the buffer where it should look at the
length of the data; and from `2 ^ 31` bytes on `Reserve` can return true without having made room.

* **`decode_inside_iff`** — when nothing behind the data is decoded.
* **`byte_stream_iff`** — when the buffer holds what was encoded, and then decoding gives it back.
-/

namespace FFNetwork

open StepSystem

/-- The calls on a message, with what the allocator returns to `Encode`. -/
inductive MessageCall
  | encode (value : Value) (alloc : Allocation)
  | decode (type : TypeSize)
  | resetRead

/-- A message, with the values encoded into it. -/
structure MessageHistory where
  message : Message
  written : List Value

namespace MessageHistory

/-- `Message::Message`, with nothing encoded. -/
def new : MessageHistory := ⟨.new, []⟩

/-- The bytes of all values encoded so far, in order. -/
def bytes (h : MessageHistory) : List UInt8 := h.written.flatMap Value.bytes

/-- A call, which ends the history if a check fails in it. -/
def step (h : MessageHistory) : MessageCall → Option MessageHistory
  | .encode value alloc =>
      match h.message.encode alloc value with
      | none => none
      | some (false, m) => some { h with message := m }
      | some (true, m) => some ⟨m, h.written ++ [value]⟩
  | .decode type => some { h with message := (h.message.decode type).2 }
  | .resetRead => some { h with message := h.message.resetRead }

/-- A call of `Encode` that returns has failed without a trace, or has put the value behind the
others. -/
lemma step_encode {h t : MessageHistory} {value : Value} {alloc : Allocation}
    (wf : h.message.WellFormed) (ht : h.step (.encode value alloc) = some t) :
    t = h ∨ ∃ fresh, alloc = some fresh ∧ h.message.Grows value.bytes.length ∧
      t = ⟨h.message.encoded fresh value, h.written ++ [value]⟩ := by
  rw [step, Message.encode_eq wf] at ht
  by_cases hgrows : h.message.Grows value.bytes.length
  · rw [if_pos hgrows] at ht
    cases alloc with
    | none => exact Or.inl (Option.some.inj ht).symm
    | some fresh => exact Or.inr ⟨fresh, rfl, hgrows, (Option.some.inj ht).symm⟩
  · rw [if_neg hgrows] at ht
    cases ht

lemma wellFormed_step {h t : MessageHistory} {c : MessageCall} (wf : h.message.WellFormed)
    (ht : h.step c = some t) : t.message.WellFormed := by
  cases c with
  | encode value alloc =>
      rcases step_encode wf ht with rfl | ⟨fresh, _, hgrows, rfl⟩
      · exact wf
      · exact Message.encoded_wellFormed wf hgrows fresh
  | decode type =>
      cases ht
      exact Message.decode_wellFormed wf type
  | resetRead =>
      cases ht
      exact ⟨wf.block_length, wf.capacity, Nat.zero_le _⟩

/-! ## Decoding stays inside the data -/

/-- The three lengths are in order, and `Decode` has succeeded exactly if its value is in the data,
and has changed nothing if it is not. -/
def ReadsInside (h : MessageHistory) (c : MessageCall) (t : MessageHistory) : Prop :=
  (t.message.size_read_ ≤ t.message.data_length_ ∧
    t.message.data_length_ ≤ t.message.buffer_length_) ∧
  ∀ type, c = .decode type →
    ((h.message.decode type).1.isSome ↔
      h.message.size_read_ + type.size ≤ h.message.data_length_) ∧
    ((h.message.decode type).1 = none → t = h)

/-- No `Encode` overcommits, and no `Decode` asks for bytes of the buffer behind the data. -/
def AsksInside (h : MessageHistory) : MessageCall → Prop
  | .encode value alloc => ¬ h.message.Overcommits alloc value
  | .decode type =>
      ¬ (h.message.data_length_ < h.message.size_read_ + type.size ∧
        h.message.size_read_ + type.size ≤ h.message.buffer_length_)
  | .resetRead => True

/-- The state that `AsksInside` preserves. -/
structure Sound (h : MessageHistory) : Prop where
  wf : h.message.WellFormed
  read : h.message.size_read_ ≤ h.message.data_length_
  data : h.message.data_length_ ≤ h.message.buffer_length_

theorem sound_step {h t : MessageHistory} {c : MessageCall} (sound : h.Sound)
    (ht : h.step c = some t) (hask : h.AsksInside c) : t.Sound := by
  have wf' := wellFormed_step sound.wf ht
  have hread := sound.read
  have hdata := sound.data
  cases c with
  | encode value alloc =>
      rcases step_encode sound.wf ht with rfl | ⟨fresh, rfl, hgrows, rfl⟩
      · exact sound
      · have hroom := Message.room_of_not_overcommits hgrows hask
        have hlen := Message.encoded_data_length sound.wf hdata fresh value
        refine ⟨wf', ?_, ?_⟩
        · show h.message.size_read_ ≤ (h.message.encoded fresh value).data_length_
          omega
        · show (h.message.encoded fresh value).data_length_
            ≤ (h.message.encoded fresh value).buffer_length_
          omega
  | decode type =>
      cases ht
      rw [Message.decode_eq sound.wf] at wf' ⊢
      by_cases hfit : h.message.size_read_ + type.size ≤ h.message.buffer_length_
      · rw [if_pos hfit] at wf' ⊢
        exact ⟨wf', not_lt.mp fun hout => hask ⟨hout, hfit⟩, hdata⟩
      · rw [if_neg hfit]
        exact ⟨sound.wf, hread, hdata⟩
  | resetRead =>
      cases ht
      exact ⟨wf', Nat.zero_le _, hdata⟩

/-- A `Decode` that does not ask for bytes behind the data. -/
lemma Sound.decode {h : MessageHistory} (sound : h.Sound) {type : TypeSize}
    (hask : h.AsksInside (.decode type)) :
    ((h.message.decode type).1.isSome ↔
      h.message.size_read_ + type.size ≤ h.message.data_length_) ∧
    ((h.message.decode type).1 = none → (h.message.decode type).2 = h.message) := by
  have hdata := sound.data
  rw [Message.decode_eq sound.wf]
  by_cases hfit : h.message.size_read_ + type.size ≤ h.message.buffer_length_
  · have hin : h.message.size_read_ + type.size ≤ h.message.data_length_ :=
      not_lt.mp fun hout => hask ⟨hout, hfit⟩
    rw [if_pos hfit]
    exact ⟨iff_of_true rfl hin, fun hnone => by cases hnone⟩
  · rw [if_neg hfit]
    exact ⟨iff_of_false (by simp) (by omega), fun _ => rfl⟩

lemma asksInside_of_readsInside {h t : MessageHistory} {c : MessageCall} (sound : h.Sound)
    (ht : h.step c = some t) (hreads : h.ReadsInside c t) : h.AsksInside c := by
  cases c with
  | encode value alloc =>
      rintro ⟨hneed, halloc, hgrows⟩
      obtain ⟨fresh, rfl⟩ := Option.isSome_iff_exists.mp halloc
      rw [step, Message.encode_eq sound.wf, if_pos hgrows] at ht
      obtain rfl := Option.some.inj ht
      have hroom := Message.Overcommits.no_room sound.wf ⟨hneed, halloc, hgrows⟩
      have hlen := Message.encoded_data_length sound.wf sound.data fresh value
      have hdata : (h.message.encoded fresh value).data_length_
          ≤ (h.message.encoded fresh value).buffer_length_ := hreads.1.2
      omega
  | decode type =>
      rintro ⟨hout, hfit⟩
      have hin := (hreads.2 type rfl).1
      rw [Message.decode_eq sound.wf, if_pos hfit] at hin
      exact absurd (hin.mp rfl) (not_le.mpr hout)
  | resetRead => trivial

/-- **When nothing behind the data is decoded.**  In every sequence of calls, with any allocation
outcomes: after every call the three lengths are in order and a `Decode` has succeeded exactly if
its value is in the data, if and only if no `Decode` asks for bytes of the buffer that lie behind
the data and no `Encode` is granted with the buffer and its value above `2 ^ 31` bytes. -/
theorem decode_inside_iff (calls : List MessageCall) :
    EveryStep step ReadsInside new calls ↔
      EveryStep step (fun h c _ => h.AsksInside c) new calls := by
  refine everyStep_iff (I := Sound) ?_ ?_ ⟨Message.wellFormed_new, le_rfl, le_rfl⟩
  · intro h c t sound ht hask
    have sound' := sound_step sound ht hask
    refine ⟨sound', ⟨sound'.read, sound'.data⟩, ?_⟩
    rintro type rfl
    obtain ⟨hiff, hsame⟩ := sound.decode hask
    refine ⟨hiff, fun hnone => ?_⟩
    rw [step, hsame hnone] at ht
    exact (Option.some.inj ht).symm
  · exact fun h c t sound ht hreads => asksInside_of_readsInside sound ht hreads

/-- Three bytes are encoded, into a buffer of four: four can be decoded. -/
theorem decode_behind_data : ¬ ∀ calls, EveryStep step ReadsInside new calls := by
  intro hall
  let three : Value := ⟨[1, 2, 3], by decide, by decide⟩
  let four : TypeSize := ⟨4, by decide, by decide⟩
  have hreads := (hall ([.encode three (some fun _ => 0)] ++ [.decode four])).at rfl rfl
  exact absurd ((hreads.2 four rfl).1.mp (by decide)) (by decide)

/-! ## What is encoded comes out again -/

/-- The buffer starts with what was encoded, and a `Decode` inside the data has copied out what was
encoded there. -/
def StreamsBytes (h : MessageHistory) (c : MessageCall) (t : MessageHistory) : Prop :=
  t.message.block.take t.message.data_length_ = t.bytes ∧
  ∀ type, c = .decode type → h.message.size_read_ + type.size ≤ h.message.data_length_ →
    (h.message.decode type).1 = some ((h.bytes.drop h.message.size_read_).take type.size)

/-- No `Encode` overcommits. -/
def EncodesInside (h : MessageHistory) : MessageCall → Prop
  | .encode value alloc => ¬ h.message.Overcommits alloc value
  | _ => True

/-- The state that `EncodesInside` preserves. -/
structure Streams (h : MessageHistory) : Prop where
  wf : h.message.WellFormed
  data : h.message.data_length_ ≤ h.message.buffer_length_
  bytes : h.message.block.take h.message.data_length_ = h.bytes

lemma Streams.length_bytes {h : MessageHistory} (str : h.Streams) :
    h.bytes.length = h.message.data_length_ := by
  rw [← str.bytes, List.length_take, str.wf.block_length, Nat.min_eq_left str.data]

lemma bytes_append (m : Message) (written : List Value) (value : Value) :
    (⟨m, written ++ [value]⟩ : MessageHistory).bytes
      = written.flatMap Value.bytes ++ value.bytes := by
  rw [bytes, List.flatMap_append, List.flatMap_singleton]

/-- An `Encode` with room for its value writes it behind the others. -/
lemma encoded_streams {h : MessageHistory} (str : h.Streams) {fresh : ℕ → UInt8} {value : Value}
    (hgrows : h.message.Grows value.bytes.length)
    (hask : ¬ h.message.Overcommits (some fresh) value) :
    Streams ⟨h.message.encoded fresh value, h.written ++ [value]⟩ := by
  have hlen := Message.encoded_data_length str.wf str.data fresh value
  have hroom := Message.room_of_not_overcommits hgrows hask
  have hdata := str.data
  refine ⟨Message.encoded_wellFormed str.wf hgrows fresh, ?_, ?_⟩
  · show (h.message.encoded fresh value).data_length_
      ≤ (h.message.encoded fresh value).buffer_length_
    omega
  · rw [bytes_append]
    show (h.message.encoded fresh value).block.take (h.message.encoded fresh value).data_length_
      = h.bytes ++ value.bytes
    rw [hlen, ← str.bytes]
    have hsize : blockSize (h.message.buffer_length_ + value.bytes.length)
        = (h.message.encoded fresh value).buffer_length_ := rfl
    show (Block.overwrite (Block.grow fresh _ h.message.block) _ _).take _ = _
    rw [Block.take_overwrite (by rw [Block.length_grow]; omega),
      Block.take_grow fresh (by rw [str.wf.block_length]; exact hdata) (by omega)]

/-- What a `Decode` inside the data copies out. -/
lemma Streams.decode {h : MessageHistory} (str : h.Streams) {type : TypeSize}
    (hin : h.message.size_read_ + type.size ≤ h.message.data_length_) :
    h.message.decode type =
      (some ((h.bytes.drop h.message.size_read_).take type.size),
        { h.message with size_read_ := h.message.size_read_ + type.size }) := by
  have hdata := str.data
  rw [Message.decode_eq str.wf, if_pos (by omega), ← str.bytes, List.drop_take, List.take_take,
    Nat.min_eq_left (by omega)]

theorem streams_step {h t : MessageHistory} {c : MessageCall} (str : h.Streams)
    (ht : h.step c = some t) (hask : h.EncodesInside c) : t.Streams := by
  have wf' := wellFormed_step str.wf ht
  cases c with
  | encode value alloc =>
      rcases step_encode str.wf ht with rfl | ⟨fresh, rfl, hgrows, rfl⟩
      · exact str
      · exact encoded_streams str hgrows hask
  | decode type =>
      cases ht
      rw [Message.decode_eq str.wf]
      split
      · next hfit => exact ⟨⟨str.wf.block_length, str.wf.capacity, hfit⟩, str.data, str.bytes⟩
      · exact str
  | resetRead =>
      cases ht
      exact ⟨wf', str.data, str.bytes⟩

lemma encodesInside_of_streamsBytes {h t : MessageHistory} {c : MessageCall} (str : h.Streams)
    (ht : h.step c = some t) (hstr : h.StreamsBytes c t) : h.EncodesInside c := by
  cases c with
  | encode value alloc =>
      rintro ⟨hneed, halloc, hgrows⟩
      obtain ⟨fresh, rfl⟩ := Option.isSome_iff_exists.mp halloc
      rw [step, Message.encode_eq str.wf, if_pos hgrows] at ht
      obtain rfl := Option.some.inj ht
      have hroom := Message.Overcommits.no_room str.wf ⟨hneed, halloc, hgrows⟩
      have wf' := Message.encoded_wellFormed str.wf hgrows fresh
      -- the block is shorter than what it is to hold
      have hlen := congrArg List.length hstr.1
      rw [bytes_append, List.length_take, List.length_append] at hlen
      have hmin : min (h.message.encoded fresh value).data_length_
          (h.message.encoded fresh value).block.length
        = (h.written.flatMap Value.bytes).length + value.bytes.length := hlen
      rw [wf'.block_length] at hmin
      omega
  | decode type => trivial
  | resetRead => trivial

/-- `Decode` for one type after the other, as long as it succeeds. -/
def decodeAll : Message → List TypeSize → Option (List (List UInt8) × Message)
  | m, [] => some ([], m)
  | m, type :: types =>
      match m.decode type with
      | (none, _) => none
      | (some bytes, m) => (decodeAll m types).map fun r => (bytes :: r.1, r.2)

/-- Decoding the types of all values encoded gives them back and reads up to the end of the data,
and does so once more. -/
def RoundTrip (h : MessageHistory) : Prop :=
  ∃ m, decodeAll h.message.resetRead (h.written.map Value.size)
      = some (h.written.map Value.bytes, m) ∧
    m.size_read_ = m.data_length_ ∧
    decodeAll m.resetRead (h.written.map Value.size) = some (h.written.map Value.bytes, m)

/-- From a read position between two values, the values behind it come out.  The induction is on
these values; the position moves on with each of them. -/
lemma decodeAll_rest {h : MessageHistory} (str : h.Streams) (front rest : List Value)
    (hwritten : h.written = front ++ rest)
    (hpos : h.message.size_read_ = (front.flatMap Value.bytes).length) :
    decodeAll h.message (rest.map Value.size)
      = some (rest.map Value.bytes,
          { h.message with size_read_ := h.message.data_length_ }) := by
  induction rest generalizing h front with
  | nil =>
      have hend : h.message.size_read_ = h.message.data_length_ := by
        rw [hpos, ← str.length_bytes, bytes, hwritten, List.append_nil]
      rw [← hend]
      rfl
  | cons value rest ih =>
      have hsplit : h.bytes
          = front.flatMap Value.bytes ++ (value.bytes ++ rest.flatMap Value.bytes) := by
        rw [bytes, hwritten, List.flatMap_append, List.flatMap_cons]
      have hlen := str.length_bytes
      rw [hsplit, List.length_append, List.length_append] at hlen
      have hin : h.message.size_read_ + value.size.size ≤ h.message.data_length_ := by
        show h.message.size_read_ + value.bytes.length ≤ _
        omega
      have hbytes : (h.bytes.drop h.message.size_read_).take value.size.size = value.bytes := by
        show _ = value.bytes
        rw [hsplit, hpos, List.drop_left]
        exact List.take_left
      have hdata := str.data
      have str' : Streams
          ⟨{ h.message with size_read_ := h.message.size_read_ + value.size.size }, h.written⟩ :=
        ⟨⟨str.wf.block_length, str.wf.capacity, le_trans hin hdata⟩, str.data, str.bytes⟩
      have hnext := ih str' (front ++ [value])
        (by rw [hwritten, List.append_assoc, List.singleton_append])
        (by rw [List.flatMap_append, List.length_append, ← hpos, List.flatMap_singleton]; rfl)
      rw [List.map_cons, decodeAll, str.decode hin, hbytes]
      simp only [hnext, Option.map_some, List.map_cons]

lemma Streams.roundTrip {h : MessageHistory} (str : h.Streams) : h.RoundTrip := by
  have hreset : Streams ⟨h.message.resetRead, h.written⟩ :=
    ⟨⟨str.wf.block_length, str.wf.capacity, Nat.zero_le _⟩, str.data, str.bytes⟩
  have hall := decodeAll_rest hreset [] h.written rfl rfl
  exact ⟨_, hall, rfl, hall⟩

/-- **When a message is a faithful byte stream.**  In every sequence of calls, with any allocation
outcomes: after every call the data in the buffer is the concatenation of the values that have been
encoded, and a `Decode` inside the data gives its part of that concatenation, if and only if no
`Encode` is granted with the buffer and its value above `2 ^ 31` bytes.  Then decoding the values
from the start gives them back, as often as one likes. -/
theorem byte_stream_iff (calls : List MessageCall) :
    (EveryStep step StreamsBytes new calls ↔
      EveryStep step (fun h c _ => h.EncodesInside c) new calls) ∧
    (EveryStep step (fun h c _ => h.EncodesInside c) new calls →
      ∀ h, run step new calls = some h → h.RoundTrip) := by
  have hnew : new.Streams := ⟨Message.wellFormed_new, le_rfl, rfl⟩
  constructor
  · refine everyStep_iff (I := Streams) ?_ ?_ hnew
    · intro h c t str ht hask
      have str' := streams_step str ht hask
      refine ⟨str', str'.bytes, ?_⟩
      rintro type rfl hin
      rw [str.decode hin]
    · exact fun h c t str ht hstr => encodesInside_of_streamsBytes str ht hstr
  · intro hinside h hrun
    refine Streams.roundTrip (run_invariant_of (I := Streams) ?_ hnew hinside hrun)
    exact fun h c t str ht hask => streams_step str ht hask

/-- A value of `2 ^ 32 + 1` bytes goes into a block of one byte. -/
theorem byte_stream_cut : ¬ ∀ calls, EveryStep step StreamsBytes new calls := by
  intro hall
  have hlen : (List.replicate (2 ^ 32 + 1) (0 : UInt8)).length = 2 ^ 32 + 1 :=
    List.length_replicate
  let value : Value := ⟨List.replicate (2 ^ 32 + 1) 0, by rw [hlen]; decide, by rw [hlen]; decide⟩
  let fresh : ℕ → UInt8 := fun _ => 0
  have hgrows : new.message.Grows value.bytes.length := Or.inl rfl
  have ht : new.step (.encode value (some fresh))
      = some ⟨new.message.encoded fresh value, [value]⟩ := by
    rw [step, Message.encode_eq (m := new.message) Message.wellFormed_new, if_pos hgrows]
    rfl
  have hstr := (hall [.encode value (some fresh)] _ ht).1
  refine encodesInside_of_streamsBytes ⟨Message.wellFormed_new, le_rfl, rfl⟩ ht hstr
    ⟨?_, rfl, hgrows⟩
  show 2 ^ 31 < 0 + (List.replicate (2 ^ 32 + 1) (0 : UInt8)).length
  rw [hlen]
  decide

end MessageHistory

end FFNetwork
