import SelectServer.Shared.HeaderRemoval
import SelectServer.Shared.ReceiveSpec
import SelectServer.Systems.Heap
import Mathlib.Tactic.Abel

/-!
# The blocks of HTTP messages

An HTTP message is a block for its struct, one for each string of its first line, its header
array with two strings for each header, and its body. The functions of `shared/http.c` that
receive, create, send and free messages stand here with what they do to the heap; what they
compute is what the functions without a heap compute.

A message that is received owns its blocks and nothing is left of the buffers on the way. A
request that is sent leaves the text of its headers behind, and so does a response that cannot
be serialised.
-/

namespace SelectServer

open CLib Systems

/-! ## Messages -/

/-- A header array with its block, and the headers in it with theirs. -/
structure HeldArray where
  block : Nat
  entries : List HeaderEntry

/-- The headers without their blocks. -/
def HeldArray.headers (a : HeldArray) : List Header := a.entries.map HeaderEntry.header

/-- The strings of the array. -/
def HeldArray.strings (a : HeldArray) : List Nat := a.entries.flatMap HeaderEntry.addrs

/-- The blocks of the array; NULL has none. -/
def arrayBlocks : Option HeldArray → Multiset Nat
  | none => 0
  | some a => {a.block} + ↑a.strings

/-- An HTTP message with its blocks; `words` is the number of strings in its first line. -/
structure HeldHttp (L : Type) (words : Nat) where
  block : Nat
  line : L
  lineBlocks : {l : List Nat // l.length = words}
  headers : Option HeldArray
  body : Option (Nat × List UInt8)
  bodyLength : Int

/-- `HTTP_Request` on the heap: method, URI and version. -/
abbrev HeldRequest := HeldHttp RequestLine 3

/-- `HTTP_Response` on the heap: version and reason phrase. -/
abbrev HeldResponse := HeldHttp ResponseLine 2

section Messages

variable {L : Type} {words : Nat}

/-- The message without its blocks. -/
def HeldHttp.plain (m : HeldHttp L words) : HTTPMessage L :=
  ⟨m.line, m.headers.elim [] HeldArray.headers, m.body.map Prod.snd, m.bodyLength⟩

/-- The blocks of a message; NULL has none. -/
def httpBlocks : Option (HeldHttp L words) → Multiset Nat
  | none => 0
  | some m => {m.block} + ↑m.lineBlocks.1 + arrayBlocks m.headers +
      ↑(m.body.map Prod.fst).toList

/-- `free_headers`. -/
def freeHeadersOn : Option HeldArray → HeapM Unit
  | none => pure ()
  | some a => do
    freeAll a.strings
    free a.block

/-- `free_http_request` and `free_http_response`. -/
def freeHttpMessage : Option (HeldHttp L words) → HeapM Unit
  | none => pure ()
  | some m => do
    freeAll m.lineBlocks.1
    freeHeadersOn m.headers
    freeAll (m.body.map Prod.fst).toList
    free m.block

end Messages

/-- `free_http_request`. -/
def freeHttpRequest : Option HeldRequest → HeapM Unit := freeHttpMessage

/-- `free_http_response`. -/
def freeHttpResponse : Option HeldResponse → HeapM Unit := freeHttpMessage

/-! ## Receiving -/

/-- The `add_header` calls of `deserialize_headers`, all of which succeed: the array has a slot
for each line from the start. -/
def copyHeaders : List Header → HeapM (List HeaderEntry)
  | [] => pure []
  | h :: hs => do
    let key ← malloc
    let value ← malloc
    let entries ← copyHeaders hs
    pure (⟨h, key, value⟩ :: entries)

/-- A message that a deserialiser returns: its body is not assigned. -/
structure HeldHead (L : Type) (words : Nat) where
  block : Nat
  line : L
  lineBlocks : {l : List Nat // l.length = words}
  array : HeldArray

section Receiving

variable {L : Type} {words : Nat}

/-- The message without its blocks. -/
def HeldHead.raw (m : HeldHead L words) : RawMessage L :=
  ⟨some m.line, some (some m.array.headers), some m.array.headers.length, none, none⟩

/-- The blocks of a message without a body. -/
def HeldHead.blocks (m : HeldHead L words) : Multiset Nat :=
  {m.block} + ↑m.lineBlocks.1 + arrayBlocks (some m.array)

/-- The message with a body, or a NULL. -/
def HeldHead.withBody (m : HeldHead L words) (body : Option (Nat × List UInt8))
    (bodyLength : Int) : HeldHttp L words :=
  ⟨m.block, m.line, m.lineBlocks, some m.array, body, bodyLength⟩

theorem httpBlocks_withBody (m : HeldHead L words) (body : Option (Nat × List UInt8))
    (bodyLength : Int) :
    httpBlocks (some (m.withBody body bodyLength)) = m.blocks + ↑(body.map Prod.fst).toList := rfl

/-- Both deserialisers on the heap. Behind the first line every exit but the last one frees the
message, whose body is not assigned. -/
def deserializeHttpHeaderOn (parseLine : List UInt8 → ParsedLine L) (words : Nat)
    (mem : DeserializeMemory) (buffer : List UInt8) : HeapM (Option (HeldHead L words)) :=
  if mem.message then do
    let block ← malloc
    if mem.tempBuffer then do
      let tempBuffer ← malloc
      match (strtok crlf buffer).elim .rejected fun line => parseLine line.text with
      | .overrun => failure
      | .rejected => do
        free tempBuffer
        free block
        pure none
      | .line line => do
        let lineBlocks ← mallocs words
        match deserializeHeaderBlock mem buffer line with
        | .returned ⟨_, some (some headers), _, _, _⟩ => do
          let headersPart ← malloc
          let array ← malloc
          let headersCopy ← malloc
          let entries ← copyHeaders headers
          free headersCopy
          free headersPart
          free tempBuffer
          pure (some ⟨block, line, lineBlocks, array, entries⟩)
        | _ => failure
    else do
      free block
      pure none
  else pure none

/-- Both receive functions on the heap. -/
def receiveHttpMessageOn (parseLine : List UInt8 → ParsedLine L) (words : Nat) (mem : ReceiveMemory)
    (socket : ByteSource UInt8) : HeapM (Option (HeldHttp L words) × ByteSource UInt8) :=
  if mem.buffer then do
    let buffer ← malloc
    let r := readUntilDoubleEndLine socket defaultBufferSize
    if r.ret ≤ 0 then do
      free buffer
      pure (none, r.socket)
    else
      match ← deserializeHttpHeaderOn parseLine words mem.message (cstr r.buffer) with
      -- the headers of NULL are searched
      | none => failure
      | some head =>
        let bodyLength := contentLength head.array.headers
        if 0 < bodyLength then
          if mem.body ∧ 0 < toInt32 (bodyLength + 1) then do
            let body ← malloc
            let b := readBody mem.junk r.buffer r.extraDataLength bodyLength.toNat r.socket
            let message := head.withBody (some (body, b.block.read bodyLength.toNat)) bodyLength
            free buffer
            if b.complete then pure (some message, b.socket)
            else do
              freeHttpMessage (some message)
              pure (none, b.socket)
          else do
            free buffer
            freeHttpMessage (some (head.withBody none bodyLength))
            pure (none, r.socket)
        else do
          free buffer
          pure (some (head.withBody none bodyLength), r.socket)
  else pure (none, socket)

end Receiving

/-- `receive_http_request` on the heap. -/
def receiveHttpRequestOn :
    ReceiveMemory → ByteSource UInt8 → HeapM (Option HeldRequest × ByteSource UInt8) :=
  receiveHttpMessageOn parseRequestLine 3

/-- `receive_http_response` on the heap. -/
def receiveHttpResponseOn :
    ReceiveMemory → ByteSource UInt8 → HeapM (Option HeldResponse × ByteSource UInt8) :=
  receiveHttpMessageOn parseResponseLine 2

/-! ## Creating and sending -/

/-- `create_http_request` on the heap, for a request without body that gets all of its memory. -/
def createHttpRequestOn (method uri version : List UInt8) (array : HeldArray) :
    HeapM HeldRequest := do
  let block ← malloc
  let lineBlocks ← mallocs 3
  pure ⟨block, ⟨method, uri, version⟩, lineBlocks, some array, none, 0⟩

/-- `send_http_request` on the heap: nothing frees the text of the headers. -/
def sendHttpRequestOn (mem : SerializeMemory) (request : HTTPRequest)
    (script : List SendResult) : HeapM (Int × List UInt8) :=
  match sendHttpRequest mem request script with
  | none => failure
  | some sent =>
    if (serializeHeaders mem.headers mem.junk request.headers).returns then do
      let _ ← malloc
      if (serializeHttpRequestHeader mem request).returns then do
        let buffer ← malloc
        free buffer
        pure sent
      else pure sent
    else pure sent

/-- `create_http_response` on the heap, for a response without headers and body. -/
def createHttpResponseOn (alloc : Bool) (version : List UInt8) (statusCode : Int)
    (reasonPhrase : List UInt8) : HeapM (Option HeldResponse) :=
  match createHttpResponse alloc version statusCode reasonPhrase [] none with
  | none => pure none
  | some response => do
    let block ← malloc
    let lineBlocks ← mallocs 2
    pure (some ⟨block, response.line, lineBlocks, none, none, response.bodyLength⟩)

/-- `send_http_response` on the heap: the text of the headers stays when there is no block for
the response. -/
def sendHttpResponseOn (mem : SerializeMemory) (response : HTTPResponse)
    (script : List SendResult) : HeapM (Int × List UInt8) :=
  match sendHttpResponse mem response script with
  | none => failure
  | some sent =>
    if (serializeHeaders mem.headers mem.junk response.headers).returns then do
      let headersBuffer ← malloc
      if (serializeHttpResponse mem response).returns then do
        let buffer ← malloc
        free headersBuffer
        free buffer
        pure sent
      else pure sent
    else pure sent

/-- What a send loses: the text of the headers of a response that is not serialised. -/
def sendLost (mem : SerializeMemory) (response : HTTPResponse) : Nat :=
  if (serializeHeaders mem.headers mem.junk response.headers).returns &&
    !(serializeHttpResponse mem response).returns then 1 else 0

/-! ## What they own -/

section Owns

variable {α : Type} {P : Multiset Nat} {m : HeapM α} {R : α → Multiset Nat → Prop} {L : Type}
  {words : Nat}

theorem owns_freeHeaders (hm : Owns P m R) (a : Option HeldArray) :
    Owns (arrayBlocks a + P) (freeHeadersOn a >>= fun _ => m) R := by
  cases a with
  | none =>
    rw [arrayBlocks, zero_add]
    exact hm
  | some a =>
    have hblocks : arrayBlocks (some a) + P = ↑a.strings + ({a.block} + P) := by
      rw [arrayBlocks]
      abel
    rw [hblocks, freeHeadersOn, bind_assoc]
    exact Owns.freeAll_bind (Owns.free_bind hm) a.strings

/-- A message is given back whole. -/
theorem owns_freeHttpMessage (hm : Owns P m R) (message : Option (HeldHttp L words)) :
    Owns (httpBlocks message + P) (freeHttpMessage message >>= fun _ => m) R := by
  cases message with
  | none =>
    rw [httpBlocks, zero_add]
    exact hm
  | some message =>
    have hblocks : httpBlocks (some message) + P = ↑message.lineBlocks.1 +
        (arrayBlocks message.headers + (↑(message.body.map Prod.fst).toList +
          ({message.block} + P))) := by
      rw [httpBlocks]
      abel
    rw [hblocks, freeHttpMessage]
    simp only [bind_assoc]
    exact Owns.freeAll_bind (owns_freeHeaders (Owns.freeAll_bind (Owns.free_bind hm) _) _) _

/-- The copies of headers are two strings for each. -/
theorem owns_copyHeaders {f : List HeaderEntry → HeapM α} (headers : List Header)
    (hf : ∀ entries : List HeaderEntry, entries.map HeaderEntry.header = headers →
      Owns (↑(entries.flatMap HeaderEntry.addrs) + P) (f entries) R) :
    Owns P (copyHeaders headers >>= f) R := by
  induction headers generalizing P f with
  | nil =>
    have hnil := hf [] rfl
    rw [List.flatMap_nil, Multiset.coe_nil, zero_add] at hnil
    exact hnil
  | cons h hs ih =>
    simp only [copyHeaders, bind_assoc, pure_bind]
    apply Owns.malloc_bind
    intro key
    apply Owns.malloc_bind
    intro value
    apply ih
    intro entries hentries
    have hcons := hf (⟨h, key, value⟩ :: entries) (by rw [List.map_cons, hentries])
    apply hcons.of_eq
    rw [List.flatMap_cons, HeaderEntry.addrs, List.cons_append, List.cons_append, List.nil_append,
      ← Multiset.cons_coe, ← Multiset.cons_coe, ← Multiset.singleton_add, ← Multiset.singleton_add]
    abel

variable {parseLine : List UInt8 → ParsedLine L}

/-- The second part of a deserialiser returns a message with its headers, or frees one that it
must not free. -/
theorem deserializeHeaderBlock_cases (mem : DeserializeMemory) (buffer : List UInt8) (line : L) :
    (∃ f, deserializeHeaderBlock mem buffer line = .fault f) ∨
      ∃ headers : List Header, deserializeHeaderBlock mem buffer line =
        .returned ⟨some line, some (some headers), some headers.length, none, none⟩ := by
  unfold deserializeHeaderBlock
  cases hend : strstr doubleEndLine buffer with
  | none => exact Or.inl ⟨.unassignedField, rfl⟩
  | some headerEnd =>
    simp only
    by_cases hpart : mem.headersPart = true
    · rw [if_pos hpart]
      generalize buffer.take (headerEnd + doubleEndLine.length) = text
      cases hheaders : (deserializeHeaders mem.headers text).headers with
      | none =>
        -- whatever the count is, the body is not assigned
        exact Or.inl ⟨.unassignedField,
          by simp [freeAndReject, RawMessage.freeable, RawMessage.fresh]⟩
      | some headers =>
        have hcount := (deserializeHeaders_some hheaders).2
        refine Or.inr ⟨headers, ?_⟩
        simp only [hcount]
        rfl
    · rw [if_neg hpart]
      exact Or.inl ⟨.unassignedField, rfl⟩

/-- A deserialiser that is defined leaves nothing but the message it returns. -/
theorem owns_deserializeHttpHeader {mem : DeserializeMemory} {buffer : List UInt8}
    (h : ∀ f, deserializeHttpHeader parseLine mem buffer ≠ .fault f) :
    Owns 0 (deserializeHttpHeaderOn parseLine words mem buffer) fun r O =>
      deserializeHttpHeader parseLine mem buffer =
          r.elim .null (fun head => .returned head.raw) ∧
        O = r.elim 0 HeldHead.blocks := by
  unfold deserializeHttpHeaderOn
  unfold deserializeHttpHeader at h ⊢
  cases hmessage : mem.message with
  | false => exact Owns.pure ⟨rfl, rfl⟩
  | true =>
    apply Owns.malloc_bind
    intro block
    cases htemp : mem.tempBuffer with
    | false => exact Owns.free_bind (Owns.pure ⟨rfl, rfl⟩)
    | true =>
      apply Owns.malloc_bind
      intro tempBuffer
      simp only [hmessage, htemp, Bool.and_self, if_true] at h ⊢
      -- a rejected first line frees the copy of the text and the message
      have hnone : Owns ({tempBuffer} + ({block} + 0))
          (free tempBuffer >>= fun _ => free block >>= fun _ =>
            (pure none : HeapM (Option (HeldHead L words)))) fun r O =>
          (.null : Outcome (RawMessage L)) = r.elim .null (fun head => .returned head.raw) ∧
            O = r.elim 0 HeldHead.blocks :=
        Owns.free_bind (Owns.free_bind (Owns.pure ⟨rfl, rfl⟩))
      cases htok : strtok crlf buffer with
      | none => exact hnone
      | some tok =>
        simp only [htok] at h
        cases hline : parseLine tok.text with
        | overrun =>
          simp only [hline] at h
          -- the run would not be defined
          exact absurd rfl (h .arrayOverrun)
        | rejected =>
          simp only [Option.elim_some, hline]
          exact hnone
        | line line =>
          simp only [hline] at h
          simp only [Option.elim_some, hline]
          -- the words of the line, then the header block
          apply Owns.mallocs_bind
          intro lineBlocks
          obtain ⟨f, hfault⟩ | ⟨headers, hreturned⟩ := deserializeHeaderBlock_cases mem buffer line
          · exact absurd hfault (h f)
          · simp only [hreturned]
            apply Owns.malloc_bind
            intro headersPart
            apply Owns.malloc_bind
            intro array
            apply Owns.malloc_bind
            intro headersCopy
            apply owns_copyHeaders
            intro entries hentries
            -- what is freed stands in front of the message that is returned
            have hblocks : (↑(entries.flatMap HeaderEntry.addrs) : Multiset Nat) +
                ({headersCopy} + ({array} + ({headersPart} + (↑lineBlocks.1 + ({tempBuffer} +
                  ({block} + 0)))))) = {headersCopy} + ({headersPart} + ({tempBuffer} +
                HeldHead.blocks ⟨block, line, lineBlocks, array, entries⟩)) := by
              rw [HeldHead.blocks, arrayBlocks, HeldArray.strings]
              abel
            rw [hblocks]
            apply Owns.free_bind
            apply Owns.free_bind
            apply Owns.free_bind
            refine Owns.pure ⟨?_, rfl⟩
            rw [Option.elim_some, HeldHead.raw, HeldArray.headers, hentries]

/-- A receive function that is defined leaves nothing but the message it returns, which has a
header array. -/
theorem owns_receiveHttpMessage {mem : ReceiveMemory} {socket : ByteSource UInt8}
    (h : ∀ f, (receiveHttpMessage (deserializeHttpHeader parseLine) mem socket).outcome ≠
      .fault f) :
    Owns 0 (receiveHttpMessageOn parseLine words mem socket) fun r O =>
      (receiveHttpMessage (deserializeHttpHeader parseLine) mem socket).outcome =
          r.1.elim .null (fun message => .returned message.plain.raw) ∧
        (receiveHttpMessage (deserializeHttpHeader parseLine) mem socket).socket = r.2 ∧
        O = httpBlocks r.1 ∧ ∀ message ∈ r.1, message.headers.isSome = true := by
  unfold receiveHttpMessageOn
  unfold receiveHttpMessage at h ⊢
  cases hbuffer : mem.buffer with
  | false => exact Owns.pure ⟨rfl, rfl, rfl, by simp⟩
  | true =>
    apply Owns.malloc_bind
    intro buffer
    simp only [hbuffer, if_true] at h ⊢
    generalize readUntilDoubleEndLine socket defaultBufferSize = r at h ⊢
    by_cases hret : r.ret ≤ 0
    · simp only [if_pos hret]
      exact Owns.free_bind (Owns.pure ⟨rfl, rfl, rfl, by simp⟩)
    · simp only [if_neg hret] at h ⊢
      -- the deserialiser is defined where the function is
      have hdeserialize : ∀ f,
          deserializeHttpHeader parseLine mem.message (cstr r.buffer) ≠ .fault f := by
        intro f hfault
        rw [hfault] at h
        exact h f rfl
      rw [add_zero]
      apply (owns_deserializeHttpHeader hdeserialize).call
      rintro head O ⟨hreturned, rfl⟩
      rw [hreturned] at h ⊢
      cases head with
      | none => exact absurd rfl (h .nullMessage)
      | some head =>
        simp only [Option.elim_some, HeldHead.raw, receiveBody]
        generalize contentLength head.array.headers = bodyLength
        -- the message without a body, which the exits below free or return
        have hnobody : httpBlocks (some (head.withBody none bodyLength)) = head.blocks := by
          rw [httpBlocks_withBody, Option.map_none, Option.toList_none, Multiset.coe_nil, add_zero]
        by_cases hbody : 0 < bodyLength
        · simp only [if_pos hbody]
          by_cases hmemory : mem.body = true ∧ 0 < toInt32 (bodyLength + 1)
          · simp only [if_pos hmemory]
            apply Owns.malloc_bind
            intro body
            generalize readBody mem.junk r.buffer r.extraDataLength bodyLength.toNat r.socket = b
            have hblocks : {body} + (head.blocks + {buffer}) = {buffer} + (httpBlocks (some
                (head.withBody (some (body, b.block.read bodyLength.toNat)) bodyLength)) + 0) := by
              rw [httpBlocks_withBody, Option.map_some, Option.toList_some,
                Multiset.coe_singleton]
              abel
            rw [hblocks]
            apply Owns.free_bind
            -- all of the body has arrived, or the message is freed with it
            cases b.complete with
            | true => exact Owns.pure ⟨rfl, rfl, add_zero _, by simp [HeldHead.withBody]⟩
            | false => exact owns_freeHttpMessage (Owns.pure ⟨rfl, rfl, rfl, by simp⟩) _
          · -- no block for the body: the message is freed
            simp only [if_neg hmemory]
            have hblocks : head.blocks + {buffer} =
                {buffer} + (httpBlocks (some (head.withBody none bodyLength)) + 0) := by
              rw [hnobody, add_comm, add_zero]
            rw [hblocks]
            exact Owns.free_bind (owns_freeHttpMessage (Owns.pure ⟨rfl, rfl, rfl, by simp⟩) _)
        · -- no body is announced
          simp only [if_neg hbody]
          rw [add_comm, ← hnobody]
          exact Owns.free_bind (Owns.pure ⟨rfl, rfl, rfl, by simp [HeldHead.withBody]⟩)

theorem owns_receiveHttpRequest {mem : ReceiveMemory} {socket : ByteSource UInt8}
    (h : ∀ f, (receiveHttpRequest mem socket).outcome ≠ .fault f) :
    Owns 0 (receiveHttpRequestOn mem socket) fun r O =>
      (receiveHttpRequest mem socket).outcome =
          r.1.elim .null (fun request => .returned request.plain.raw) ∧
        (receiveHttpRequest mem socket).socket = r.2 ∧
        O = httpBlocks r.1 ∧ ∀ request ∈ r.1, request.headers.isSome = true :=
  owns_receiveHttpMessage h

theorem owns_receiveHttpResponse {mem : ReceiveMemory} {socket : ByteSource UInt8}
    (h : ∀ f, (receiveHttpResponse mem socket).outcome ≠ .fault f) :
    Owns 0 (receiveHttpResponseOn mem socket) fun r O =>
      (receiveHttpResponse mem socket).outcome =
          r.1.elim .null (fun response => .returned response.plain.raw) ∧
        (receiveHttpResponse mem socket).socket = r.2 ∧
        O = httpBlocks r.1 ∧ ∀ response ∈ r.1, response.headers.isSome = true :=
  owns_receiveHttpMessage h

theorem owns_createHttpResponse (alloc : Bool) (version : List UInt8) (statusCode : Int)
    (reasonPhrase : List UInt8) :
    Owns 0 (createHttpResponseOn alloc version statusCode reasonPhrase) fun r O =>
      createHttpResponse alloc version statusCode reasonPhrase [] none =
          r.map HeldHttp.plain ∧
        O = httpBlocks r ∧ ∀ response ∈ r, response.headers = none ∧ response.body = none := by
  unfold createHttpResponseOn
  cases hcreate : createHttpResponse alloc version statusCode reasonPhrase [] none with
  | none => exact Owns.pure ⟨rfl, rfl, by simp⟩
  | some response =>
    have hempty : response.headers = [] ∧ response.body = none := by
      unfold createHttpResponse at hcreate
      split at hcreate
      · cases hcreate
      · split at hcreate
        · obtain rfl := Option.some.inj hcreate
          exact ⟨rfl, rfl⟩
        · cases hcreate
    obtain ⟨line, headers, body, bodyLength⟩ := response
    obtain ⟨rfl, rfl⟩ := hempty
    apply Owns.malloc_bind
    intro block
    apply Owns.mallocs_bind
    intro lineBlocks
    refine Owns.pure ⟨rfl, ?_, ?_⟩
    · simp only [httpBlocks, arrayBlocks, Option.map_none, Option.toList_none, Multiset.coe_nil]
      abel
    · rintro held hheld
      obtain rfl := Option.some.inj hheld
      exact ⟨rfl, rfl⟩

theorem owns_createHttpRequest (method uri version : List UInt8) (array : HeldArray) :
    Owns (arrayBlocks (some array)) (createHttpRequestOn method uri version array) fun r O =>
      r.plain = createHttpRequest method uri version array.headers none ∧
        O = httpBlocks (some r) := by
  unfold createHttpRequestOn
  apply Owns.malloc_bind
  intro block
  apply Owns.mallocs_bind
  intro lineBlocks
  refine Owns.pure ⟨rfl, ?_⟩
  simp only [httpBlocks, Option.map_none, Option.toList_none, Multiset.coe_nil]
  abel

theorem owns_sendHttpRequest {mem : SerializeMemory} {request : HTTPRequest}
    {script : List SendResult} {sent : Int × List UInt8}
    (h : sendHttpRequest mem request script = some sent) :
    Owns 0 (sendHttpRequestOn mem request script) fun r O => r = sent ∧ O.card =
      if (serializeHeaders mem.headers mem.junk request.headers).returns then 1 else 0 := by
  unfold sendHttpRequestOn
  simp only [h]
  cases (serializeHeaders mem.headers mem.junk request.headers).returns with
  | false => exact Owns.pure ⟨rfl, rfl⟩
  | true =>
    apply Owns.malloc_bind
    intro headersBuffer
    cases (serializeHttpRequestHeader mem request).returns with
    | false => exact Owns.pure ⟨rfl, rfl⟩
    | true =>
      apply Owns.malloc_bind
      intro buffer
      exact Owns.free_bind (Owns.pure ⟨rfl, rfl⟩)

theorem owns_sendHttpResponse {mem : SerializeMemory} {response : HTTPResponse}
    {script : List SendResult} {sent : Int × List UInt8}
    (h : sendHttpResponse mem response script = some sent) :
    Owns 0 (sendHttpResponseOn mem response script) fun r O =>
      r = sent ∧ O.card = sendLost mem response := by
  unfold sendHttpResponseOn sendLost
  simp only [h]
  cases (serializeHeaders mem.headers mem.junk response.headers).returns with
  | false => exact Owns.pure ⟨rfl, rfl⟩
  | true =>
    apply Owns.malloc_bind
    intro headersBuffer
    cases (serializeHttpResponse mem response).returns with
    | false => exact Owns.pure ⟨rfl, rfl⟩
    | true =>
      apply Owns.malloc_bind
      intro buffer
      rw [add_left_comm]
      exact Owns.free_bind (Owns.free_bind (Owns.pure ⟨rfl, rfl⟩))

end Owns

end SelectServer
