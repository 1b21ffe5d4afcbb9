import BsslRam.Lib.ByteOrder
import BsslRam.Lib.Framing

/-!
# The frames of the native messaging host

`bridge/src/nmh.rs`.  A frame is the length of its body as a native-endian `u32`, and then the
body, the JSON text of a value.  Both directions refuse a body of more than
`MAX_FRAME_BYTES`, and `read_frame` refuses an empty one.

A stream is what is still to be read, or what has been written so far.  `read_exact` fails at
the end of input and has then used up everything that was left.  A writer takes every byte.
`serde_json` is a parameter (`Serde`): its parser undoes its serialiser, and no text is empty.

* `writeFrame_cases`: a value that is accepted adds its frame to the stream, every other value is
  refused and adds nothing.
* `readFrame_frame`, `readFrame_part`: a frame is read whole, and a part of one is an error.
* `readFrame_exact`: what is read was a frame with a length within the limits.

The first two make the format a delimited one (`delimited`).  `frames_faithful` is what this
means for whole streams.
-/

namespace BsslRam.NativeFrames

open BsslRam.Lib BsslRam.Lib.Framing

/-! ## Streams -/

/-- An error with its contexts, outermost first. -/
abbrev Error := List String

/-- An operation on a stream of bytes. -/
abbrev Io := EStateM Error (List UInt8)

/-- `anyhow::Context::context`. -/
def context {α : Type} (message : String) (act : Io α) : Io α := fun s =>
  match act s with
  | .ok a s => .ok a s
  | .error e s => .error (message :: e) s

/-- A result that was computed without the stream. -/
def ofExcept {α : Type} (result : Except Error α) : Io α := fun s =>
  match result with
  | .ok a => .ok a s
  | .error e => .error e s

/-- `AsyncReadExt::read_exact`. -/
def readExact (count : Nat) : Io (List UInt8) := fun s =>
  if count ≤ s.length then .ok (s.take count) (s.drop count) else .error ["early eof"] []

/-- `AsyncWriteExt::write_all`. -/
def writeAll (bytes : List UInt8) : Io Unit := fun s => .ok () (s ++ bytes)

/-- `AsyncWriteExt::flush`. -/
def flush : Io Unit := fun s => .ok () s

theorem context_ok {α : Type} {message : String} {act : Io α} {s s' : List UInt8} {a : α}
    (h : act s = .ok a s') : context message act s = .ok a s' := by
  rw [context, h]

theorem context_error {α : Type} {message : String} {act : Io α} {s s' : List UInt8} {e : Error}
    (h : act s = .error e s') : context message act s = .error (message :: e) s' := by
  rw [context, h]

theorem of_context_ofExcept {α : Type} {message : String} {result : Except Error α} {a : α}
    {s s' : List UInt8} (h : context message (ofExcept result) s = .ok a s') :
    result = .ok a ∧ s' = s := by
  cases result with
  | error e => cases h
  | ok b =>
    cases h
    exact ⟨rfl, rfl⟩

theorem readExact_append (front rest : List UInt8) :
    readExact front.length (front ++ rest) = .ok front rest := by
  rw [readExact, if_pos (by rw [List.length_append]; omega), List.take_left, List.drop_left]

theorem readExact_short {count : Nat} {s : List UInt8} (h : s.length < count) :
    readExact count s = .error ["early eof"] [] := by
  rw [readExact, if_neg (by omega)]

/-! ## The codec -/

/-- `serde_json::to_vec` and `serde_json::from_slice` for a type of values. -/
structure Serde (Value : Type) where
  toVec : Value → Except Error (List UInt8)
  fromSlice : List UInt8 → Except Error Value
  fromSlice_toVec : ∀ value body, toVec value = .ok body → fromSlice body = .ok value
  toVec_ne_nil : ∀ value body, toVec value = .ok body → body ≠ []

/-- The limit for any frame that is read or written. -/
def MAX_FRAME_BYTES : Nat := 1024 * 1024

section Codec

variable {Value : Type} (order : ByteOrder) (serde : Serde Value)

/-- `read_frame`. -/
def readFrame : Io Value := do
  let lenBuf ← context "reading NMH frame length" (readExact 4)
  let len := order.ofBytes lenBuf
  if len = 0 then
    throw ["NMH frame with zero length"]
  else if MAX_FRAME_BYTES < len then
    throw [s!"NMH frame length {len} exceeds limit {MAX_FRAME_BYTES}"]
  else
    let body ← context "reading NMH frame body" (readExact len)
    context "parsing NMH frame as JSON" (ofExcept (serde.fromSlice body))

/-- `write_frame`.  The cast of the length to a `u32` keeps the low 32 bits. -/
def writeFrame (value : Value) : Io Unit := do
  let body ← context "serializing NMH frame" (ofExcept (serde.toVec value))
  if MAX_FRAME_BYTES < body.length then
    throw [s!"NMH frame length {body.length} exceeds limit {MAX_FRAME_BYTES}"]
  else
    let len := order.wordBytes (UInt32.ofNat body.length)
    context "writing NMH length" (writeAll len)
    context "writing NMH body" (writeAll body)
    context "flushing NMH frame" flush

/-- The body of the value is within the limit. -/
def accepts (value : Value) : Bool :=
  match serde.toVec value with
  | .ok body => decide (body.length ≤ MAX_FRAME_BYTES)
  | .error _ => false

/-- A body with its header. -/
def frameOf (body : List UInt8) : List UInt8 := order.wordBytes (UInt32.ofNat body.length) ++ body

/-- The frame of a value. -/
def frame (value : Value) : List UInt8 :=
  match serde.toVec value with
  | .ok body => frameOf order body
  | .error _ => []

/-! ## Writing -/

theorem accepts_iff {value : Value} :
    accepts serde value = true ↔
      ∃ body, serde.toVec value = .ok body ∧ body.length ≤ MAX_FRAME_BYTES := by
  unfold accepts
  cases serde.toVec value with
  | error e => simp
  | ok body => simp

/-- A value adds its frame to the stream, or it is refused and adds nothing. -/
theorem writeFrame_cases (value : Value) (s : List UInt8) :
    accepts serde value = true ∧
        writeFrame order serde value s = .ok () (s ++ frame order serde value) ∨
      accepts serde value = false ∧ ∃ e, writeFrame order serde value s = .error e s := by
  unfold accepts frame writeFrame
  cases serde.toVec value with
  | error e => exact Or.inr ⟨rfl, _, rfl⟩
  | ok body =>
    have hbody : context "serializing NMH frame" (ofExcept (.ok body)) s = .ok body s := rfl
    rw [bind_ok hbody]
    by_cases hlimit : body.length ≤ MAX_FRAME_BYTES
    · left
      rw [if_neg (Nat.not_lt.mpr hlimit)]
      refine ⟨decide_eq_true hlimit, ?_⟩
      simp only [frameOf, ← List.append_assoc]
      rfl
    · right
      rw [if_pos (Nat.lt_of_not_le hlimit)]
      exact ⟨decide_eq_false hlimit, _, rfl⟩

/-- The stream after a list of values has been written. -/
theorem attempts_writeFrame (values : List Value) (s : List UInt8) :
    ((attempts (values.map (writeFrame order serde)) s).1.map Except.isOk =
        values.map (accepts serde)) ∧
      (attempts (values.map (writeFrame order serde)) s).2 =
        s ++ (values.filter (accepts serde)).flatMap (frame order serde) := by
  induction values generalizing s with
  | nil => simp [attempts]
  | cons value values ih =>
    rcases writeFrame_cases order serde value s with ⟨haccepts, hwrite⟩ | ⟨hrefuses, e, hwrite⟩
    · obtain ⟨hresults, hstream⟩ := ih (s ++ frame order serde value)
      rw [List.map_cons, attempts_cons_ok hwrite, List.filter_cons_of_pos haccepts]
      refine ⟨?_, ?_⟩
      · rw [List.map_cons, List.map_cons, hresults, haccepts]
        rfl
      · rw [hstream, List.flatMap_cons, List.append_assoc]
    · obtain ⟨hresults, hstream⟩ := ih s
      rw [List.map_cons, attempts_cons_error hwrite,
        List.filter_cons_of_neg (by rw [hrefuses]; exact Bool.false_ne_true)]
      refine ⟨?_, hstream⟩
      rw [List.map_cons, List.map_cons, hresults, hrefuses]
      rfl

/-! ## Reading -/

theorem readFrame_short {s : List UInt8} (h : s.length < 4) :
    readFrame order serde s = .error ["reading NMH frame length", "early eof"] [] := by
  rw [readFrame]
  exact bind_error (context_error (readExact_short h)) _

/-- Behind a header, the length decides. -/
theorem readFrame_header {header : List UInt8} (h : header.length = 4) (rest : List UInt8) :
    readFrame order serde (header ++ rest) =
      if order.ofBytes header = 0 then .error ["NMH frame with zero length"] rest
      else if MAX_FRAME_BYTES < order.ofBytes header then
        .error [s!"NMH frame length {order.ofBytes header} exceeds limit {MAX_FRAME_BYTES}"] rest
      else
        (context "reading NMH frame body" (readExact (order.ofBytes header)) >>= fun body =>
          context "parsing NMH frame as JSON" (ofExcept (serde.fromSlice body))) rest := by
  have hread : readExact 4 (header ++ rest) = .ok header rest := h ▸ readExact_append header rest
  rw [readFrame, bind_ok (context_ok hread)]
  split
  · rfl
  split
  · rfl
  · rfl

theorem ofBytes_header {body : List UInt8} (hlimit : body.length ≤ MAX_FRAME_BYTES) :
    order.ofBytes (order.wordBytes (UInt32.ofNat body.length)) = body.length := by
  have hfits : body.length < UInt32.size := Nat.lt_of_le_of_lt hlimit (by decide)
  rw [ByteOrder.wordBytes, UInt32.toNat_ofNat_of_lt' hfits, ByteOrder.ofBytes_toBytes order hfits]

/-- Behind the header of a body within the limits, the body is read. -/
theorem readFrame_body {body : List UInt8} (hne : body ≠ [])
    (hlimit : body.length ≤ MAX_FRAME_BYTES) (rest : List UInt8) :
    readFrame order serde (order.wordBytes (UInt32.ofNat body.length) ++ rest) =
      (context "reading NMH frame body" (readExact body.length) >>= fun body =>
        context "parsing NMH frame as JSON" (ofExcept (serde.fromSlice body))) rest := by
  have hpos : body.length ≠ 0 := fun hzero => hne (List.eq_nil_of_length_eq_zero hzero)
  rw [readFrame_header order serde (ByteOrder.length_wordBytes order _),
    ofBytes_header order hlimit, if_neg hpos, if_neg (Nat.not_lt.mpr hlimit)]

section Body

variable {value : Value} {body : List UInt8} (hbody : serde.toVec value = .ok body)
  (hlimit : body.length ≤ MAX_FRAME_BYTES)

include hbody hlimit

/-- A whole frame is read, and the rest of the stream stays. -/
theorem readFrame_frame (rest : List UInt8) :
    readFrame order serde (frameOf order body ++ rest) = .ok value rest := by
  have hread : context "reading NMH frame body" (readExact body.length) (body ++ rest) =
      .ok body rest := context_ok (readExact_append body rest)
  rw [frameOf, List.append_assoc,
    readFrame_body order serde (serde.toVec_ne_nil value body hbody) hlimit, bind_ok hread,
    serde.fromSlice_toVec value body hbody]
  rfl

/-- A part of a frame is an error, and nothing of it is left. -/
theorem readFrame_part {part missing : List UInt8} (hcut : frameOf order body = part ++ missing)
    (hmissing : missing ≠ []) : ∃ e, readFrame order serde part = .error e [] := by
  rcases Nat.lt_or_ge part.length 4 with hshort | hlong
  · exact ⟨_, readFrame_short order serde hshort⟩
  · -- the header is there, and `front` is what there is of the body
    have hheader : order.wordBytes (UInt32.ofNat body.length) <+: part :=
      List.prefix_of_prefix_length_le (List.prefix_append _ body) ⟨missing, hcut.symm⟩
        ((ByteOrder.length_wordBytes order _).trans_le hlong)
    obtain ⟨front, rfl⟩ := hheader
    have hrest : body = front ++ missing := by
      rwa [frameOf, List.append_assoc, List.append_cancel_left_eq] at hcut
    have hshort : front.length < body.length := by
      have hpos := List.length_pos_iff.mpr hmissing
      rw [hrest, List.length_append]
      omega
    refine ⟨["reading NMH frame body", "early eof"], ?_⟩
    rw [readFrame_body order serde (serde.toVec_ne_nil value body hbody) hlimit]
    exact bind_error (context_error (readExact_short hshort)) _

end Body

/-- Frames can be told apart. -/
theorem delimited :
    Delimited (readFrame order serde) (frame order serde)
      (fun value => accepts serde value = true) where
  whole value haccepts rest := by
    obtain ⟨body, hbody, hlimit⟩ := (accepts_iff serde).mp haccepts
    rw [frame, hbody]
    exact readFrame_frame order serde hbody hlimit rest
  cut value haccepts part missing hcut hmissing := by
    obtain ⟨body, hbody, hlimit⟩ := (accepts_iff serde).mp haccepts
    rw [frame, hbody] at hcut
    exact readFrame_part order serde hbody hlimit hcut hmissing
  empty := ⟨_, readFrame_short order serde (by decide)⟩

/-- What is read was a frame within the limits, and the rest is what came after it. -/
theorem readFrame_exact {bytes rest : List UInt8} {value : Value}
    (h : readFrame order serde bytes = .ok value rest) :
    ∃ header body, bytes = header ++ body ++ rest ∧ header.length = 4 ∧
      order.ofBytes header = body.length ∧ 0 < body.length ∧ body.length ≤ MAX_FRAME_BYTES ∧
      serde.fromSlice body = .ok value := by
  rcases Nat.lt_or_ge bytes.length 4 with hshort | hlong
  · rw [readFrame_short order serde hshort] at h
    cases h
  · have hheader : (bytes.take 4).length = 4 := by
      rw [List.length_take]
      omega
    rw [← List.take_append_drop 4 bytes, readFrame_header order serde hheader] at h
    split at h
    · cases h
    split at h
    · cases h
    rename_i hpos hlimit
    rcases Nat.lt_or_ge (bytes.drop 4).length (order.ofBytes (bytes.take 4)) with hless | hmore
    · rw [bind_error (context_error (readExact_short hless))] at h
      cases h
    · rw [bind_ok (context_ok (if_pos hmore))] at h
      obtain ⟨hparse, hrest⟩ := of_context_ofExcept h
      have hlength : ((bytes.drop 4).take (order.ofBytes (bytes.take 4))).length =
          order.ofBytes (bytes.take 4) := List.length_take_of_le hmore
      refine ⟨bytes.take 4, _, ?_, hheader, hlength.symm, by omega, by omega, hparse⟩
      rw [hrest, List.append_assoc, List.take_append_drop, List.take_append_drop]

end Codec

/-- The codec is a faithful stream.  Values are written until the end, whichever of them are
refused, and a refused value writes nothing.  Reading returns the accepted values in order,
uses up the bytes that were written, and then fails at the end of input.  On a stream that is
cut off anywhere it returns the values whose frames are complete, and then fails.  On no stream
does it accept a frame whose length is 0 or above the limit. -/
theorem frames_faithful {Value : Type} (order : ByteOrder) (serde : Serde Value)
    (values : List Value) :
    let read := readFrame order serde
    let accepted := values.filter (accepts serde)
    let written := attempts (values.map (writeFrame order serde)) []
    written.1.map Except.isOk = values.map (accepts serde) ∧
    (∀ value, accepts serde value = true ↔
      ∃ body, serde.toVec value = .ok body ∧ body.length ≤ MAX_FRAME_BYTES) ∧
    written.2 = accepted.flatMap (frame order serde) ∧
    Yields read written.2 accepted [] ∧
    read [] = .error ["reading NMH frame length", "early eof"] [] ∧
    (∀ front back, written.2 = front ++ back → back ≠ [] →
      ∃ k value part missing, accepted[k]? = some value ∧
        front = (accepted.take k).flatMap (frame order serde) ++ part ∧
        frame order serde value = part ++ missing ∧ missing ≠ [] ∧
        Yields read front (accepted.take k) part) ∧
    (∀ bytes rest value, read bytes = .ok value rest →
      ∃ header body, bytes = header ++ body ++ rest ∧ header.length = 4 ∧
        order.ofBytes header = body.length ∧ 0 < body.length ∧ body.length ≤ MAX_FRAME_BYTES ∧
        serde.fromSlice body = .ok value) := by
  intro read accepted written
  have hok : ∀ value ∈ accepted, accepts serde value = true := fun value hvalue =>
    (List.mem_filter.mp hvalue).2
  obtain ⟨hresults, hstream⟩ := attempts_writeFrame order serde values []
  have hstream : written.2 = accepted.flatMap (frame order serde) := hstream
  refine ⟨hresults, fun value => accepts_iff serde, hstream, ?_,
    readFrame_short order serde (by decide), ?_,
    fun bytes rest value h => readFrame_exact order serde h⟩
  · rw [hstream]
    exact (delimited order serde).yields hok
  · intro front back hcut hback
    rw [hstream] at hcut
    exact (delimited order serde).yields_of_cut hok hcut hback

/-- The two texts of a JSON boolean. -/
def boolSerde : Serde Bool where
  toVec b := .ok (if b then [0x74, 0x72, 0x75, 0x65] else [0x66, 0x61, 0x6c, 0x73, 0x65])
  fromSlice body :=
    if body = [0x74, 0x72, 0x75, 0x65] then .ok true
    else if body = [0x66, 0x61, 0x6c, 0x73, 0x65] then .ok false
    else .error ["expected value"]
  fromSlice_toVec := by
    intro b body h
    cases h
    cases b <;> rfl
  toVec_ne_nil := by
    intro b body h
    cases h
    cases b <;> exact List.cons_ne_nil _ _

/-- The frames of `true` and `false`. -/
theorem frames_faithful_booleans :
    Yields (readFrame .little boolSerde)
      [4, 0, 0, 0, 0x74, 0x72, 0x75, 0x65, 5, 0, 0, 0, 0x66, 0x61, 0x6c, 0x73, 0x65]
      [true, false] [] :=
  (frames_faithful .little boolSerde [true, false]).2.2.2.1

end BsslRam.NativeFrames
