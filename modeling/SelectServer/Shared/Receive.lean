import SelectServer.CLib.Lines
import SelectServer.Shared.Messages

/-!
# Receiving HTTP messages

`deserialize_http_request_header` and `deserialize_http_response_header`, the header reader
`read_until_double_end_line`, and `receive_http_request` and `receive_http_response` on top
of them.

A message that is being built (`RawMessage`) may have fields nobody has assigned: `malloc`
does not clear it. Reading or freeing such a field, or a field of a NULL message, ends a
function with a `Fault`, and so does a word of the first line that is stored behind the end of
its array. The two receive functions have one body, with the deserialiser as parameter.
-/

namespace SelectServer

open CLib

/-! ## Messages under construction -/

/-- A message as `malloc` and the assignments so far left it; `none` is a field that has not
been assigned. -/
structure RawMessage (L : Type) where
  line : Option L
  headers : Option (Option (List Header))
  headerCount : Option Nat
  body : Option (Option (List UInt8))
  bodyLength : Option Int
  deriving DecidableEq, Repr

/-- A freshly allocated message. -/
def RawMessage.fresh {L : Type} : RawMessage L := ⟨none, none, none, none, none⟩

/-- A message all of whose fields are assigned. -/
def HTTPMessage.raw {L : Type} (m : HTTPMessage L) : RawMessage L :=
  ⟨some m.line, some (some m.headers), some m.headers.length, some m.body, some m.bodyLength⟩

/-- The message, if all of its fields are assigned. -/
def RawMessage.message {L : Type} (m : RawMessage L) : Option (HTTPMessage L) :=
  match m with
  | ⟨some line, some (some headers), some _, some body, some bodyLength⟩ =>
    some ⟨line, headers, body, bodyLength⟩
  | _ => none

@[simp] theorem HTTPMessage.message_raw {L : Type} (m : HTTPMessage L) :
    m.raw.message = some m := rfl

/-- `free_http_request` and `free_http_response` read the first line, the headers with their
count and the body. -/
def RawMessage.freeable {L : Type} (m : RawMessage L) : Bool :=
  m.line.isSome && m.headers.isSome && m.headerCount.isSome && m.body.isSome

/-- An exit that frees the message and returns NULL. -/
def freeAndReject {L : Type} (m : RawMessage L) : Outcome (RawMessage L) :=
  if m.freeable then .null else .fault .unassignedField

/-! ## First lines -/

/-- `METHOD_SIZE`. -/
def methodSize : Nat := 16

/-- `URI_SIZE`. -/
def uriSize : Nat := 256

/-- `VERSION_SIZE`. -/
def versionSize : Nat := 16

/-- `REASON_PHRASE_SIZE`. -/
def reasonPhraseSize : Nat := 256

/-- The words fit the arrays `method`, `uri` and `version`, as far as there are words. -/
def FitsArrays (ws : List (List UInt8)) : Prop :=
  ∀ x ∈ ws.zip [methodSize, uriSize, versionSize], x.1.length < x.2

instance (ws : List (List UInt8)) : Decidable (FitsArrays ws) :=
  inferInstanceAs (Decidable (∀ x ∈ ws.zip [methodSize, uriSize, versionSize], x.1.length < x.2))

/-- What a deserialiser makes of a first line; `overrun` is a store behind the end of an
array. -/
inductive ParsedLine (L : Type)
  | rejected
  | line (l : L)
  | overrun
  deriving DecidableEq, Repr

/-- `sscanf(line, "%s %s %s", method, uri, version) == 3`; each word is stored whole. -/
def parseRequestLine (line : List UInt8) : ParsedLine RequestLine :=
  if FitsArrays (scanWords 3 line) then
    match scanWords 3 line with
    | [method, uri, version] => .line ⟨method, uri, version⟩
    | _ => .rejected
  else .overrun

/-- `sscanf(line, "%s %d", version, &status_code) == 2`. -/
def scanStatus (line : List UInt8) : Option (List UInt8 × Int) :=
  match line.dropWhile isspace with
  | [] => none
  | c :: cs => (scanInt ((c :: cs).dropWhile (! isspace ·))).map
      ((c :: cs).takeWhile (! isspace ·), ·)

/-- The status line: version and code, and as reason phrase what follows the second blank. The
version is stored whether a code follows or not. -/
def parseResponseLine (line : List UInt8) : ParsedLine ResponseLine :=
  if ∀ version ∈ scanWords 1 line, version.length < versionSize then
    match scanStatus line with
    | none => .rejected
    | some (version, statusCode) =>
      match (strchr 32 line).bind fun reasonStart => strchr 32 (reasonStart.drop 1) with
      | none => .rejected
      | some reasonStart =>
        if (reasonStart.drop 1).length < reasonPhraseSize then
          .line ⟨version, statusCode, reasonStart.drop 1⟩
        else .overrun
  else .overrun

/-! ## Deserialisers -/

/-- The memory a deserialiser works with: the results of its `malloc` calls, those for the
words of the first line excepted, which the source takes to succeed. -/
structure DeserializeMemory where
  message : Bool
  tempBuffer : Bool
  headersPart : Bool
  headers : HeadersMemory

/-- No allocation fails. -/
def DeserializeMemory.Succeeds (m : DeserializeMemory) : Prop :=
  m.message = true ∧ m.tempBuffer = true ∧ m.headersPart = true ∧ m.headers.Succeeds

/-- The part both deserialisers end with: find the end of the headers and parse them. -/
def deserializeHeaderBlock {L : Type} (mem : DeserializeMemory) (buffer : List UInt8) (line : L) :
    Outcome (RawMessage L) :=
  let message : RawMessage L := { (RawMessage.fresh : RawMessage L) with line := some line }
  match strstr doubleEndLine buffer with
  -- the headers and the body are freed with the message, and were never assigned
  | none => freeAndReject message
  | some headerEnd =>
    if mem.headersPart then
      let r := deserializeHeaders mem.headers (buffer.take (headerEnd + doubleEndLine.length))
      let message := { message with headers := some r.headers, headerCount := r.headerCount }
      match r.headers with
      | none => freeAndReject message
      | some _ => .returned message
    else freeAndReject message

/-- The shape of both deserialisers; `buffer` is the C string they are given. -/
def deserializeHttpHeader {L : Type} (parseLine : List UInt8 → ParsedLine L)
    (mem : DeserializeMemory) (buffer : List UInt8) : Outcome (RawMessage L) :=
  if mem.message && mem.tempBuffer then
    match strtok crlf buffer with
    -- this exit and the next one only free the message itself
    | none => .null
    | some line =>
      match parseLine line.text with
      | .overrun => .fault .arrayOverrun
      | .rejected => .null
      | .line l => deserializeHeaderBlock mem buffer l
  else .null

/-- `deserialize_http_request_header`. -/
def deserializeHttpRequestHeader :
    DeserializeMemory → List UInt8 → Outcome (RawMessage RequestLine) :=
  deserializeHttpHeader parseRequestLine

/-- `deserialize_http_response_header`. -/
def deserializeHttpResponseHeader :
    DeserializeMemory → List UInt8 → Outcome (RawMessage ResponseLine) :=
  deserializeHttpHeader parseResponseLine

/-! ## The header reader -/

/-- What `read_until_double_end_line` leaves behind. -/
structure ReadUntil where
  ret : Int
  extraDataLength : Nat
  buffer : List UInt8
  socket : ByteSource UInt8
  deriving DecidableEq, Repr

/-- The loop of `read_until_double_end_line`; `total_bytes` is the length of `buffer`. -/
def readUntilLoop (length : Nat) : Nat → List UInt8 → ByteSource UInt8 → ReadUntil
  | 0, buffer, socket => ⟨buffer.length, 0, buffer, socket⟩
  | fuel + 1, buffer, socket =>
    if buffer.length < length then
      match socket.read (length - buffer.length) with
      | (.ended .failed, socket') => ⟨-1, 0, buffer, socket'⟩
      | (.ended .closed, socket') => ⟨0, 0, buffer, socket'⟩
      | (.data bs, socket') =>
        -- the search ends at the first NUL, be it the terminator or one received
        match strstr doubleEndLine (cstr (buffer ++ bs)) with
        | some endOfHeaders =>
          ⟨(buffer ++ bs).length, (buffer ++ bs).length - (endOfHeaders + 4), buffer ++ bs, socket'⟩
        | none => readUntilLoop length fuel (buffer ++ bs) socket'
    else ⟨buffer.length, 0, buffer, socket⟩

/-- `read_until_double_end_line`. -/
def readUntilDoubleEndLine (socket : ByteSource UInt8) (length : Nat) : ReadUntil :=
  readUntilLoop length length [] socket

/-! ## Receiving -/

/-- `DEFAULT_BUFFER_SIZE`. -/
def defaultBufferSize : Nat := 4096

/-- The memory a receive function works with: the results of its `malloc` calls and what the
block for the body happens to contain. -/
structure ReceiveMemory where
  buffer : Bool
  message : DeserializeMemory
  body : Bool
  junk : Nat → UInt8

/-- No allocation fails. -/
def ReceiveMemory.Succeeds (m : ReceiveMemory) : Prop :=
  m.buffer = true ∧ m.message.Succeeds ∧ m.body = true

/-- A memory in which every allocation succeeds, fresh blocks are zero, and the copies of a
header's key and value get consecutive addresses. -/
def ReceiveMemory.ideal : ReceiveMemory where
  buffer := true
  message := ⟨true, true, true, ⟨true, true, fun k => ⟨true, some (2 * k), some (2 * k + 1)⟩, []⟩⟩
  body := true
  junk := fun _ => 0

theorem ReceiveMemory.ideal_succeeds : ReceiveMemory.ideal.Succeeds :=
  ⟨rfl, ⟨rfl, rfl, rfl, rfl, rfl, fun _ => ⟨rfl, rfl, rfl⟩⟩, rfl⟩

/-- What a receive function leaves behind; `block` is the memory of the body, when the run
got as far as allocating it. -/
structure Receive (L : Type) where
  outcome : Outcome (RawMessage L)
  socket : ByteSource UInt8
  block : Option Block

/-- The block of the body after the copy of the extra bytes and the `recvall` of the rest. -/
structure BodyRead where
  complete : Bool
  block : Block
  socket : ByteSource UInt8

/-- The body: `extra` bytes are the last ones of `buffer`, the rest is received. A result of
`recvall` that is not positive ends the attempt. -/
def readBody (junk : Nat → UInt8) (buffer : List UInt8) (extra bodyLength : Nat)
    (socket : ByteSource UInt8) : BodyRead :=
  let block := Block.malloc (bodyLength + 1) junk
  let block := if 0 < extra then block.store 0 (buffer.drop (buffer.length - extra)) else block
  if extra < bodyLength then
    let r := recvall socket (bodyLength - extra)
    -- `recvall` terminates what it stored unless `recv` failed
    let block := block.store extra (if r.ret < 0 then r.received else r.received ++ [0])
    if r.ret ≤ 0 then ⟨false, block, r.socket⟩
    else ⟨true, block.store bodyLength [0], r.socket⟩
  else ⟨true, block.store bodyLength [0], socket⟩

/-- The `Content-Length` of a header list as an `int`, 0 when there is none. -/
def contentLength (headers : List Header) : Int :=
  match findHeaderValue headers (bytes "Content-Length") with
  | none => 0
  | some v => atoi v

/-- The part of the receive functions behind the deserialiser. -/
def receiveBody {L : Type} (mem : ReceiveMemory) (r : ReadUntil) (message : RawMessage L)
    (headers : List Header) : Receive L :=
  let bodyLength := contentLength headers
  if 0 < bodyLength then
    -- where `body_length + 1` wraps around, `malloc` is asked for more than there is
    if mem.body ∧ 0 < toInt32 (bodyLength + 1) then
      let b := readBody mem.junk r.buffer r.extraDataLength bodyLength.toNat r.socket
      let message := { message with
        body := some (some (b.block.read bodyLength.toNat)), bodyLength := some bodyLength }
      ⟨if b.complete then .returned message else freeAndReject message, b.socket, some b.block⟩
    else
      ⟨freeAndReject { message with body := some none, bodyLength := some bodyLength },
        r.socket, none⟩
  else
    ⟨.returned { message with body := some none, bodyLength := some bodyLength }, r.socket, none⟩

/-- The body of both receive functions. -/
def receiveHttpMessage {L : Type}
    (deserialize : DeserializeMemory → List UInt8 → Outcome (RawMessage L))
    (mem : ReceiveMemory) (socket : ByteSource UInt8) : Receive L :=
  if mem.buffer then
    let r := readUntilDoubleEndLine socket defaultBufferSize
    if r.ret ≤ 0 then ⟨.null, r.socket, none⟩
    else
      match deserialize mem.message (cstr r.buffer) with
      | .fault f => ⟨.fault f, r.socket, none⟩
      -- the headers of the message are searched for `Content-Length` without a check
      | .null => ⟨.fault .nullMessage, r.socket, none⟩
      | .returned message =>
        match message.headers with
        | some (some headers) => receiveBody mem r message headers
        | _ => ⟨.fault .unassignedField, r.socket, none⟩
  else ⟨.null, socket, none⟩

/-- `receive_http_request`. -/
def receiveHttpRequest : ReceiveMemory → ByteSource UInt8 → Receive RequestLine :=
  receiveHttpMessage deserializeHttpRequestHeader

/-- `receive_http_response`. -/
def receiveHttpResponse : ReceiveMemory → ByteSource UInt8 → Receive ResponseLine :=
  receiveHttpMessage deserializeHttpResponseHeader

end SelectServer
