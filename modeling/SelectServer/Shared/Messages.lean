import SelectServer.CLib.Blocks
import SelectServer.Shared.Common
import SelectServer.Shared.Headers

/-!
# HTTP messages of `shared/http.c`: construction, serialisation, sending

Requests and responses differ in their first line only, so both are an `HTTPMessage`.
The serialisers compute a buffer size, fill a block of that size and report the size; the
bytes that go on the wire are the first `size` bytes of the block, whatever they hold.
-/

namespace SelectServer

open CLib

/-! ## Messages -/

/-- `DEFAULT_HTTP_VERSION` of the client and of the server. -/
def defaultHttpVersion : List UInt8 := bytes "HTTP/1.1"

/-- `Request_Line`. -/
structure RequestLine where
  method : List UInt8
  uri : List UInt8
  version : List UInt8
  deriving DecidableEq, Repr

/-- `Response_Line`. -/
structure ResponseLine where
  version : List UInt8
  statusCode : Int
  reasonPhrase : List UInt8
  deriving DecidableEq, Repr

/-- A message whose fields are all assigned; `header_count` is the length of `headers`, and
`body = none` is a NULL body. -/
structure HTTPMessage (L : Type) where
  line : L
  headers : List Header
  body : Option (List UInt8)
  bodyLength : Int
  deriving DecidableEq, Repr

/-- `HTTP_Request`. -/
abbrev HTTPRequest := HTTPMessage RequestLine

/-- `HTTP_Response`. -/
abbrev HTTPResponse := HTTPMessage ResponseLine

/-- `create_http_request`, when its allocations succeed. The body is copied, `body_length`
stays zero from the `memset`. -/
def createHttpRequest (method uri version : List UInt8) (headers : List Header)
    (body : Option (List UInt8)) : HTTPRequest :=
  ⟨⟨method, uri, version⟩, headers, body, 0⟩

/-- `create_http_response`; `alloc` tells whether its allocations succeed. -/
def createHttpResponse (alloc : Bool) (version : List UInt8) (statusCode : Int)
    (reasonPhrase : List UInt8) (headers : List Header) (body : Option (List UInt8)) :
    Option HTTPResponse :=
  if statusCode ≤ 0 then none
  else if alloc then some ⟨⟨version, statusCode, reasonPhrase⟩, headers, body, 0⟩
  else none

/-! ## Serialisation -/

/-- The memory a serialiser works with: the results of its two `malloc` calls, of which the
first is that of `serialize_headers`, and what fresh blocks contain. -/
structure SerializeMemory where
  headers : Bool
  buffer : Bool
  junk : Nat → UInt8

/-- No allocation fails. -/
def SerializeMemory.Succeeds (m : SerializeMemory) : Prop := m.headers = true ∧ m.buffer = true

instance SerializeMemory.decidableSucceeds (m : SerializeMemory) : Decidable m.Succeeds :=
  inferInstanceAs (Decidable (_ ∧ _))

/-- A memory in which every allocation succeeds, and fresh blocks contain one byte throughout. -/
def SerializeMemory.filled (c : UInt8) : SerializeMemory := ⟨true, true, fun _ => c⟩

theorem SerializeMemory.filled_succeeds (c : UInt8) : (filled c).Succeeds := ⟨rfl, rfl⟩

/-- What a serialiser returns: the size and the buffer. -/
structure Serialized where
  size : Int
  block : Block

/-- The bytes that `sendall(sockfd, buffer, size)` is given. -/
def Serialized.bytes (s : Serialized) : List UInt8 := s.block.read s.size.toNat

/-- The request line as `sprintf` writes it. -/
def RequestLine.text (l : RequestLine) : List UInt8 :=
  l.method ++ bytes " " ++ l.uri ++ bytes " " ++ l.version ++ lineEnding

/-- The status line as `sprintf` writes it. -/
def ResponseLine.text (l : ResponseLine) : List UInt8 :=
  l.version ++ bytes " " ++ formatInt l.statusCode ++ bytes " " ++ l.reasonPhrase ++ lineEnding

/-- The size of the request line in the computation of `size_buffer`. -/
def RequestLine.size (l : RequestLine) : Int :=
  toInt32 (l.method.length + l.uri.length + l.version.length + 2 + lineEnding.length)

/-- The size of the status line in the computation of `size_buffer`: the status code
counts as `sizeof(int)`. -/
def ResponseLine.size (l : ResponseLine) : Int :=
  toInt32 (l.version.length + 4 + l.reasonPhrase.length + 2 + lineEnding.length)

/-- The size that `serialize_http_request_header` computes, given that of the headers. -/
def HTTPMessage.requestSize (request : HTTPRequest) (sizeHeaders : Int) : Int :=
  toInt32 (toInt32 (request.line.size + sizeHeaders) + lineEnding.length)

/-- What `sprintf` and the two `strcat` calls store, each with a terminator. -/
def HTTPMessage.fillRequest (request : HTTPRequest) (headersBuffer : List UInt8) (block : Block) :
    Block :=
  let line := request.line.text
  block.store 0 (line ++ [0])
    |>.store line.length (headersBuffer ++ [0])
    |>.store (line.length + headersBuffer.length) (lineEnding ++ [0])

/-- `serialize_http_request_header`; NULL stands for the result `-1`. -/
def serializeHttpRequestHeader (mem : SerializeMemory) (request : HTTPRequest) :
    Outcome Serialized :=
  match serializeHeaders mem.headers mem.junk request.headers with
  | .null => .null
  | .fault f => .fault f
  | .returned (sizeHeaders, headersBuffer) =>
    let size := request.requestSize sizeHeaders
    -- a negative size is more than `malloc` has
    if mem.buffer = true ∧ 0 ≤ size then
      .returned ⟨size, request.fillRequest headersBuffer (Block.malloc size.toNat mem.junk)⟩
    else .null

/-- The size that `serialize_http_response` computes, given that of the headers. -/
def HTTPMessage.responseSize (response : HTTPResponse) (sizeHeaders : Int) : Int :=
  let size := toInt32 (toInt32 (response.line.size + sizeHeaders) + lineEnding.length)
  if response.body.isSome then toInt32 (size + response.bodyLength) else size

/-- The number of bytes that a response is sent with. -/
def HTTPMessage.offered (response : HTTPResponse) : Int :=
  response.responseSize (headersText response.headers).length

/-- The size that `serialize_http_response` computes for a body of `n` bytes, when no sum wraps
around: the status code counts as four bytes. -/
def HTTPMessage.sizeWithBody (r : HTTPResponse) (n : Nat) : Nat :=
  r.line.version.length + 4 + r.line.reasonPhrase.length + 4 +
    (headersText r.headers).length + 2 + n

/-- The sums on the way wrap around as one. -/
theorem HTTPMessage.offered_eq (r : HTTPResponse) :
    r.offered = toInt32 (r.sizeWithBody 0 + if r.body.isSome then r.bodyLength else 0) := by
  have hend : (lineEnding.length : Int) = 2 := by decide
  have hhead : toInt32 (toInt32 (r.line.size + (headersText r.headers).length) +
      lineEnding.length) = toInt32 (r.sizeWithBody 0) := by
    rw [ResponseLine.size, hend, toInt32_add_left, Int.add_assoc, toInt32_add_left,
      HTTPMessage.sizeWithBody]
    push_cast
    rfl
  rw [HTTPMessage.offered, HTTPMessage.responseSize, hhead]
  cases r.body.isSome with
  | true => simp only [if_true, toInt32_add_left]
  | false => simp only [Bool.false_eq_true, if_false, add_zero]

/-- The length of the body is negative, which `memcpy` takes for almost `2 ^ 64` bytes. -/
def HTTPMessage.Overcopies (response : HTTPResponse) : Prop :=
  response.body.isSome ∧ response.bodyLength < 0

instance (response : HTTPResponse) : Decidable response.Overcopies :=
  inferInstanceAs (Decidable (_ ∧ _))

/-- What `sprintf` and the `memcpy` calls store. -/
def HTTPMessage.fillResponse (response : HTTPResponse) (headersBuffer : List UInt8)
    (block : Block) : Block :=
  let line := response.line.text
  let block := block.store 0 (line ++ [0])
    |>.store line.length headersBuffer
    |>.store (line.length + headersBuffer.length) lineEnding
  match response.body with
  | none => block
  | some body => block.store (line.length + headersBuffer.length + lineEnding.length)
      (body.take response.bodyLength.toNat)

/-- `serialize_http_response`; NULL stands for the result `-1`. -/
def serializeHttpResponse (mem : SerializeMemory) (response : HTTPResponse) :
    Outcome Serialized :=
  match serializeHeaders mem.headers mem.junk response.headers with
  | .null => .null
  | .fault f => .fault f
  | .returned (sizeHeaders, headersBuffer) =>
    let size := response.responseSize sizeHeaders
    if mem.buffer = true ∧ 0 ≤ size then
      if response.Overcopies then .fault .blockOverrun
      else .returned ⟨size, response.fillResponse (headersBuffer.take sizeHeaders.toNat)
        (Block.malloc size.toNat mem.junk)⟩
    else .null

section Serialize

variable {mem : SerializeMemory} {s : Serialized}

/-- A request is serialised exactly if its headers are, there is a block for its size, and the
size is one. -/
theorem serializeHttpRequestHeader_eq_returned_iff {request : HTTPRequest} :
    serializeHttpRequestHeader mem request = .returned s ↔
      mem.Succeeds ∧ (headersText request.headers).length < 2 ^ 31 ∧
        0 ≤ request.requestSize (headersText request.headers).length ∧
        s = ⟨request.requestSize (headersText request.headers).length,
          request.fillRequest (headersText request.headers) (Block.malloc
            (request.requestSize (headersText request.headers).length).toNat mem.junk)⟩ := by
  rw [serializeHttpRequestHeader]
  cases hheaders : serializeHeaders mem.headers mem.junk request.headers with
  | null =>
    refine iff_of_false (by intro h; cases h) fun h => ?_
    rw [serializeHeaders_eq_returned_iff.mpr ⟨h.1.1, h.2.1, rfl⟩] at hheaders
    cases hheaders
  | fault f =>
    refine iff_of_false (by intro h; cases h) fun h => ?_
    rw [serializeHeaders_eq_returned_iff.mpr ⟨h.1.1, h.2.1, rfl⟩] at hheaders
    cases hheaders
  | returned r =>
    obtain ⟨halloc, hlt, rfl⟩ := serializeHeaders_eq_returned_iff.mp hheaders
    simp only [SerializeMemory.Succeeds, halloc, hlt, true_and]
    split
    · rename_i h
      rw [Outcome.returned.injEq, and_iff_right h.1, and_iff_right h.2]
      exact eq_comm
    · rename_i h
      exact iff_of_false (by intro h; cases h) fun hr => h ⟨hr.1, hr.2.1⟩

/-- A response whose headers are no longer than an `int` counts: it is serialised, unless its size
wraps around to a negative one, or its body is copied with a negative length. -/
theorem serializeHttpResponse_of_lt {response : HTTPResponse}
    (h : (headersText response.headers).length < 2 ^ 31) :
    serializeHttpResponse mem response =
      if mem.Succeeds ∧ 0 ≤ response.offered then
        if response.Overcopies then .fault .blockOverrun
        else .returned ⟨response.offered, response.fillResponse (headersText response.headers)
          (Block.malloc response.offered.toNat mem.junk)⟩
      else .null := by
  rw [serializeHttpResponse]
  cases hheaders : mem.headers with
  | false =>
    have hn : ¬ (mem.Succeeds ∧ 0 ≤ response.offered) := by
      rintro ⟨⟨halloc, -⟩, -⟩
      exact Bool.false_ne_true (hheaders.symm.trans halloc)
    rw [if_neg hn]
    simp [serializeHeaders]
  | true =>
    rw [serializeHeaders_of_lt h]
    simp only [Int.toNat_natCast, List.take_length, SerializeMemory.Succeeds, hheaders, true_and,
      HTTPMessage.offered]

/-- Every response that is serialised is one of these. -/
theorem serializeHttpResponse_eq_returned_iff {response : HTTPResponse} :
    serializeHttpResponse mem response = .returned s ↔
      mem.Succeeds ∧ (headersText response.headers).length < 2 ^ 31 ∧ 0 ≤ response.offered ∧
        ¬ response.Overcopies ∧
        s = ⟨response.offered, response.fillResponse (headersText response.headers)
          (Block.malloc response.offered.toNat mem.junk)⟩ := by
  by_cases hlt : (headersText response.headers).length < 2 ^ 31
  · rw [serializeHttpResponse_of_lt hlt]
    by_cases hsize : mem.Succeeds ∧ 0 ≤ response.offered
    · rw [if_pos hsize, and_iff_right hsize.1, and_iff_right hlt, and_iff_right hsize.2]
      by_cases hover : response.Overcopies
      · rw [if_pos hover]
        exact iff_of_false (by intro h; cases h) fun hr => hr.1 hover
      · rw [if_neg hover, and_iff_right hover, Outcome.returned.injEq]
        exact eq_comm
    · rw [if_neg hsize]
      exact iff_of_false (by intro h; cases h) fun hr => hsize ⟨hr.1, hr.2.2.1⟩
  · refine iff_of_false (fun hs => ?_) fun hr => hlt hr.2.1
    rw [serializeHttpResponse] at hs
    cases hheaders : serializeHeaders mem.headers mem.junk response.headers with
    | null =>
      rw [hheaders] at hs
      cases hs
    | fault f =>
      rw [hheaders] at hs
      cases hs
    | returned r => exact hlt (serializeHeaders_eq_returned_iff.mp hheaders).2.1

end Serialize

/-- The first three stores of the serialiser put the parts of a head one behind the other;
the terminator that `sprintf` writes behind the first line is overwritten. -/
theorem holds_responseHead (block : Block) (line headers : List UInt8) :
    (((block.store 0 (line ++ [0])).store line.length headers).store
      (line.length + headers.length) lineEnding).Holds 0 (line ++ headers ++ lineEnding) := by
  have hline : (block.store 0 (line ++ [0])).Holds 0 line :=
    (Block.holds_store_self block 0 (line ++ [0])).left
  have hheaders := hline.concat headers (Nat.zero_add _)
  exact hheaders.concat lineEnding (by rw [Nat.zero_add, List.length_append])

/-- The fourth one puts the body behind it. -/
theorem holds_responseParts (block : Block) (line headers body : List UInt8) :
    ((((block.store 0 (line ++ [0])).store line.length headers).store
      (line.length + headers.length) lineEnding).store
      (line.length + headers.length + lineEnding.length) body).Holds 0
        (line ++ headers ++ lineEnding ++ body) :=
  (holds_responseHead block line headers).concat body
    (by simp only [Nat.zero_add, List.length_append])

/-- The terminator behind the first line is never the one that does not fit. -/
theorem inBounds_responseHead (n : Nat) (junk : Nat → UInt8) (line headers : List UInt8) :
    ((((Block.malloc n junk).store 0 (line ++ [0])).store line.length headers).store
      (line.length + headers.length) lineEnding).InBounds ↔
        (line ++ headers ++ lineEnding).length ≤ n := by
  have hend : lineEnding.length = 2 := by decide
  simp only [Block.inBounds_store_iff, Block.inBounds_malloc, Block.size_store,
    Block.size_malloc, List.length_append, List.length_singleton, hend, true_and]
  constructor
  · rintro ⟨-, h⟩
    exact h
  · intro h
    exact ⟨⟨by omega, by omega⟩, h⟩

theorem inBounds_responseParts (n : Nat) (junk : Nat → UInt8) (line headers body : List UInt8) :
    (((((Block.malloc n junk).store 0 (line ++ [0])).store line.length headers).store
      (line.length + headers.length) lineEnding).store
      (line.length + headers.length + lineEnding.length) body).InBounds ↔
        (line ++ headers ++ lineEnding ++ body).length ≤ n := by
  rw [Block.inBounds_store_iff, inBounds_responseHead]
  simp only [Block.size_store, Block.size_malloc, List.length_append]
  constructor
  · rintro ⟨-, h⟩
    exact h
  · intro h
    exact ⟨by omega, h⟩

/-- The part of the body that is copied. -/
def HTTPMessage.copied (r : HTTPResponse) : List UInt8 :=
  match r.body with
  | none => []
  | some body => body.take r.bodyLength.toNat

/-- A response whose size fits an `int`: its block holds status line, headers, blank line and
body, and they fit exactly if the text of the status line is not longer than it counts. -/
theorem serializeHttpResponse_spec {mem : SerializeMemory} (hmem : mem.Succeeds)
    {response : HTTPResponse}
    (hlength : response.body.isSome → response.bodyLength = response.copied.length)
    (hsize : response.sizeWithBody response.copied.length < 2 ^ 31) :
    ∃ s, serializeHttpResponse mem response = .returned s ∧
      s.size = response.sizeWithBody response.copied.length ∧
      s.block.size = response.sizeWithBody response.copied.length ∧
      s.block.Holds 0 (response.line.text ++ headersText response.headers ++ lineEnding ++
        response.copied) ∧
      (s.block.InBounds ↔ (response.line.text ++ headersText response.headers ++
        lineEnding ++ response.copied).length ≤
          response.sizeWithBody response.copied.length) := by
  have hend : lineEnding.length = 2 := by decide
  generalize hN : response.sizeWithBody response.copied.length = N at hsize ⊢
  unfold HTTPMessage.sizeWithBody at hN
  have hheaders : (headersText response.headers).length < 2 ^ 31 := by omega
  -- no sum on the way to the size wraps around
  have hoffered : response.offered = N := by
    have hbody : (if response.body.isSome then response.bodyLength else 0) =
        (response.copied.length : Int) := by
      cases hb : response.body with
      | none =>
        have hcopied : response.copied = [] := by rw [HTTPMessage.copied, hb]
        simp [hcopied]
      | some body =>
        rw [Option.isSome_some, if_pos rfl]
        exact hlength (by rw [hb]; rfl)
    rw [HTTPMessage.offered_eq, hbody, HTTPMessage.sizeWithBody,
      toInt32_eq_self (by omega) (by omega)]
    omega
  have hover : ¬ response.Overcopies := by
    rintro ⟨hbody, hneg⟩
    rw [hlength hbody] at hneg
    exact hneg.not_ge (Int.natCast_nonneg _)
  refine ⟨_, serializeHttpResponse_eq_returned_iff.mpr ⟨hmem, hheaders,
    by rw [hoffered]; exact Int.natCast_nonneg _, hover, rfl⟩, hoffered, ?_⟩
  rw [hoffered, Int.toNat_natCast]
  simp only [HTTPMessage.fillResponse, HTTPMessage.copied]
  cases response.body with
  | none =>
    simp only [List.append_nil]
    exact ⟨rfl, holds_responseHead _ _ _, inBounds_responseHead _ _ _ _⟩
  | some body => exact ⟨rfl, holds_responseParts _ _ _ _, inBounds_responseParts _ _ _ _ _⟩

/-! ## Sending -/

/-- `send_http_request`: its result and the bytes it hands over, unless its behaviour is
undefined. -/
def sendHttpRequest (mem : SerializeMemory) (request : HTTPRequest) (script : List SendResult) :
    Option (Int × List UInt8) :=
  match serializeHttpRequestHeader mem request with
  | .null => some (-1, [])
  | .fault _ => none
  | .returned s =>
    let head := sendall s.bytes script
    if head.ret < 0 then some (-1, head.wire)
    else
      match request.body with
      | none => some (0, head.wire)
      | some body =>
        let rest := sendall (body.take request.bodyLength.toNat) head.script
        some (if rest.ret < 0 then -1 else 0, head.wire ++ rest.wire)

/-- `send_http_response`: its result and the bytes it hands over, unless its behaviour is
undefined. -/
def sendHttpResponse (mem : SerializeMemory) (response : HTTPResponse)
    (script : List SendResult) : Option (Int × List UInt8) :=
  match serializeHttpResponse mem response with
  | .null => some (-1, [])
  | .fault _ => none
  | .returned s =>
    let r := sendall s.bytes script
    some (if r.ret < 0 then -1 else 0, r.wire)

/-- The behaviour of a send is undefined exactly if the body is copied with a negative length. -/
theorem sendHttpResponse_eq_none_iff {mem : SerializeMemory} {response : HTTPResponse}
    (h : (headersText response.headers).length < 2 ^ 31) (script : List SendResult) :
    sendHttpResponse mem response script = none ↔
      mem.Succeeds ∧ 0 ≤ response.offered ∧ response.Overcopies := by
  rw [sendHttpResponse, serializeHttpResponse_of_lt h]
  by_cases hsize : mem.Succeeds ∧ 0 ≤ response.offered
  · by_cases hover : response.Overcopies
    · simp only [if_pos hsize, if_pos hover]
      exact iff_of_true trivial ⟨hsize.1, hsize.2, hover⟩
    · simp only [if_pos hsize, if_neg hover]
      exact iff_of_false (Option.some_ne_none _) fun hr => hover hr.2.2
  · simp only [if_neg hsize]
    exact iff_of_false (Option.some_ne_none _) fun hr => hsize ⟨hr.1, hr.2.1⟩

/-- A request without body that is serialised is sent, when no `send` fails. -/
theorem sendHttpRequest_of_serialize {mem : SerializeMemory} {request : HTTPRequest}
    {script : List SendResult} (hscript : .failed ∉ script) (hbody : request.body = none)
    {s : Serialized} (hs : serializeHttpRequestHeader mem request = .returned s) :
    sendHttpRequest mem request script = some (0, s.bytes) := by
  obtain ⟨hret, hwire⟩ := sendall_spec s.bytes hscript
  have hnonneg : ¬ ((s.bytes.length : Int) < 0) := (Int.natCast_nonneg _).not_gt
  simp [sendHttpRequest, hs, hbody, hret, hwire, hnonneg]

/-- A response that is serialised is sent, when no `send` fails. -/
theorem sendHttpResponse_of_serialize {mem : SerializeMemory} {response : HTTPResponse}
    {script : List SendResult} (hscript : .failed ∉ script) {s : Serialized}
    (hs : serializeHttpResponse mem response = .returned s) :
    sendHttpResponse mem response script = some (0, s.bytes) := by
  obtain ⟨hret, hwire⟩ := sendall_spec s.bytes hscript
  have hnonneg : ¬ ((s.bytes.length : Int) < 0) := (Int.natCast_nonneg _).not_gt
  simp [sendHttpResponse, hs, hret, hwire, hnonneg]

end SelectServer
