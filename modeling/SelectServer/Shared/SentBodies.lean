import SelectServer.Shared.Serialization

/-!
# Which bodies are sent

`create_http_request` and `create_http_response` copy the body and leave `body_length` at the
zero of their `memset`; the senders go by the length. So what a created message puts on the
wire ends behind its blank line (`created_bodies_sent_iff`): the head of a request, and for a
response as many bytes as its size says, which is not the length of its head unless the status
code has four digits.
-/

namespace SelectServer

open CLib

/-- What a send leaves on the wire, unless its behaviour is undefined. -/
def onWire (sent : Option (Int × List UInt8)) : Option (List UInt8) := sent.map Prod.snd

/-! ## Requests -/

@[simp] theorem sendall_nil_wire (script : List SendResult) : (sendall [] script).wire = [] := by
  cases script with
  | nil => rfl
  | cons answer script => simp [sendall, sendallLoop]

/-- A request that `create_http_request` has built puts the bytes of its head on the wire. -/
theorem sendHttpRequest_created {mem : SerializeMemory} {script : List SendResult}
    (hscript : .failed ∉ script) {request : HTTPRequest} (hlength : request.bodyLength = 0)
    {s : Serialized} (hs : serializeHttpRequestHeader mem request = .returned s) :
    onWire (sendHttpRequest mem request script) = some s.bytes := by
  obtain ⟨hret, hwire⟩ := sendall_spec s.bytes hscript
  have hnonneg : ¬ ((s.bytes.length : Int) < 0) := (Int.natCast_nonneg _).not_gt
  simp only [onWire, sendHttpRequest, hs, hret, hnonneg, if_false, hwire]
  cases request.body with
  | none => rfl
  | some body => simp [hlength]

theorem length_head_pos (request : HTTPRequest) : 0 < request.head.length := by
  rw [HTTPMessage.head_eq, List.length_append]
  exact Nat.add_pos_right _ (by decide)

/-- The bytes of a created request are those of the message exactly if there is no body, and the
head fits an `int`. -/
theorem created_request_sent_iff (method uri version : List UInt8) (headers : List Header)
    (body : List UInt8) :
    (∀ mem script, SerializeMemory.Succeeds mem → .failed ∉ script →
        onWire (sendHttpRequest mem (createHttpRequest method uri version headers (some body))
          script) =
            some ((createHttpRequest method uri version headers (some body)).head ++ body)) ↔
      body = [] ∧
        (createHttpRequest method uri version headers (some body)).head.length < 2 ^ 31 := by
  generalize hr : createHttpRequest method uri version headers (some body) = request
  have hlength : request.bodyLength = 0 := by rw [← hr]; rfl
  constructor
  · intro hall
    have hmem := SerializeMemory.filled_succeeds 0
    have hsent := hall (.filled 0) [] hmem List.not_mem_nil
    have hlt : request.head.length < 2 ^ 31 := by
      -- a size that has wrapped around is too small
      by_contra hge
      have hwrap := toInt32_le_sub (Nat.not_lt.mp hge)
      have hpos := length_head_pos request
      cases hs : serializeHttpRequestHeader (.filled 0) request with
      | null =>
        simp only [onWire, sendHttpRequest, hs, Option.map_some, Option.some.injEq] at hsent
        have hzero := congrArg List.length hsent
        rw [List.length_append, List.length_nil] at hzero
        omega
      | fault f =>
        simp only [onWire, sendHttpRequest, hs, Option.map_none] at hsent
        cases hsent
      | returned s =>
        obtain ⟨hsize, hnonneg, hbytes⟩ := serializeHttpRequestHeader_bytes hs
        rw [sendHttpRequest_created List.not_mem_nil hlength hs, hbytes, Option.some.injEq]
          at hsent
        have hcut := congrArg List.length hsent
        rw [List.length_append, List.length_take] at hcut
        omega
    obtain ⟨s, hs, hbytes⟩ := serializeHttpRequestHeader_ok hmem hlt
    rw [sendHttpRequest_created List.not_mem_nil hlength hs, hbytes, Option.some.injEq,
      List.self_eq_append_right] at hsent
    exact ⟨hsent, hlt⟩
  · rintro ⟨rfl, hlt⟩ mem script hmem hscript
    obtain ⟨s, hs, hbytes⟩ := serializeHttpRequestHeader_ok hmem hlt
    rw [sendHttpRequest_created hscript hlength hs, hbytes, List.append_nil]

/-! ## Responses -/

section Responses

variable {version reasonPhrase body : List UInt8} {statusCode : Int} {headers : List Header}
  {response : HTTPResponse}

/-- What `create_http_response` has built, with the body that it does not count. -/
theorem createHttpResponse_with_body
    (h : createHttpResponse true version statusCode reasonPhrase headers (some body) =
      some response) :
    0 < statusCode ∧ response = ⟨⟨version, statusCode, reasonPhrase⟩, headers, some body, 0⟩ := by
  rw [createHttpResponse] at h
  split at h
  · exact absurd h (by simp)
  · rw [if_pos rfl] at h
    exact ⟨by omega, (Option.some.inj h).symm⟩

theorem createHttpResponse_created (hcode : statusCode < 2 ^ 31)
    (h : createHttpResponse true version statusCode reasonPhrase headers (some body) =
      some response) : response.Created := by
  obtain ⟨hpos, rfl⟩ := createHttpResponse_with_body h
  exact ⟨hpos, hcode, le_rfl, fun b _ => Int.natCast_nonneg _⟩

/-- The block of a response whose length says that there is no body holds the head, and behind
it what the memory contained. -/
theorem serializeHttpResponse_noBody {mem : SerializeMemory} (hmem : mem.Succeeds)
    (hlength : response.bodyLength = 0) (hsize : response.sizeWithBody 0 < 2 ^ 31) :
    ∃ s, serializeHttpResponse mem response = .returned s ∧ s.size = response.sizeWithBody 0 ∧
      s.block.Holds 0 response.responseHead ∧
      ∀ i, response.responseHead.length ≤ i → s.block.cell i = mem.junk i := by
  have hcopied : response.copied = [] := by
    rw [HTTPMessage.copied]
    cases response.body with
    | none => rfl
    | some body => simp [hlength]
  have hlength' : response.body.isSome → response.bodyLength = response.copied.length := by
    intro _
    rw [hcopied, hlength, List.length_nil, Nat.cast_zero]
  obtain ⟨s, hs, hssize, -, hhold, -⟩ :=
    serializeHttpResponse_spec hmem hlength' (by rw [hcopied]; exact hsize)
  rw [hcopied, List.append_nil] at hhold
  rw [hcopied] at hssize
  refine ⟨s, hs, hssize, hhold, ?_⟩
  intro i hi
  -- the last store ends where the head does
  have hend : lineEnding.length = 2 := by decide
  rw [HTTPMessage.responseHead, List.length_append, List.length_append, hend] at hi
  obtain ⟨-, -, -, -, rfl⟩ := serializeHttpResponse_eq_returned_iff.mp hs
  have hhead : ∀ size : Nat,
      ((((Block.malloc size mem.junk).store 0 (response.line.text ++ [0])).store
        response.line.text.length (headersText response.headers)).store
        (response.line.text.length + (headersText response.headers).length)
          lineEnding).cell i = mem.junk i := by
    intro size
    rw [Block.cell_store_of_le _ (by omega), Block.cell_store_of_le _ (by omega),
      Block.cell_store_of_le _ (by rw [List.length_append, List.length_singleton]; omega)]
    rfl
  simp only [HTTPMessage.fillResponse]
  cases response.body with
  | none => exact hhead _
  | some body =>
    simp only [hlength, Int.toNat_zero, List.take_zero]
    rw [Block.cell_store_of_le _ (by rw [List.length_nil]; omega)]
    exact hhead _

/-- The size differs from the length of the head by what the status code is too short or too
long for four characters. -/
theorem created_sizeWithBody (hcode : statusCode < 2 ^ 31)
    (h : createHttpResponse true version statusCode reasonPhrase headers (some body) =
      some response) :
    response.sizeWithBody 0 + (decimal statusCode.toNat).length =
      response.responseHead.length + 4 := by
  have hsum := sizeWithBody_add (createHttpResponse_created hcode h)
  obtain ⟨-, rfl⟩ := createHttpResponse_with_body h
  simpa [HTTPMessage.copied, HTTPMessage.responseBytes] using hsum

/-- The wire carries `body_length` bytes of the body: none. What it carries has the size that is
computed for the head, when that fits an `int`. -/
theorem sendHttpResponse_created (h : createHttpResponse true version statusCode reasonPhrase
      headers (some body) = some response) {mem : SerializeMemory} (hmem : mem.Succeeds)
    {script : List SendResult} (hscript : .failed ∉ script)
    (hsize : response.sizeWithBody 0 < 2 ^ 31) :
    ∃ block : Block, onWire (sendHttpResponse mem response script) =
        some (block.read (response.sizeWithBody 0)) ∧ block.Holds 0 response.responseHead ∧
      ∀ i, response.responseHead.length ≤ i → block.cell i = mem.junk i := by
  have hlength : response.bodyLength = 0 := by
    obtain ⟨-, rfl⟩ := createHttpResponse_with_body h
    rfl
  obtain ⟨s, hs, hssize, hhold, hcells⟩ := serializeHttpResponse_noBody hmem hlength hsize
  refine ⟨s.block, ?_, hhold, hcells⟩
  rw [sendHttpResponse_of_serialize hscript hs, onWire, Option.map_some, Serialized.bytes, hssize,
    Int.toNat_natCast]

theorem length_responseHead_pos (response : HTTPResponse) : 0 < response.responseHead.length := by
  rw [HTTPMessage.responseHead, List.length_append]
  exact Nat.add_pos_right _ (by decide)

/-- A response whose bytes begin with its head has a size that does not wrap around. -/
theorem sizeWithBody_lt_of_prefix (hcode : statusCode < 2 ^ 31)
    (h : createHttpResponse true version statusCode reasonPhrase headers (some body) =
      some response) {mem : SerializeMemory} {wire : List UInt8}
    (hwire : onWire (sendHttpResponse mem response []) = some wire)
    (hsent : response.responseHead <+: wire) : response.sizeWithBody 0 < 2 ^ 31 := by
  by_contra hge
  have hsum := created_sizeWithBody hcode h
  have hwrap := toInt32_le_sub (Nat.not_lt.mp hge)
  have hpos := length_responseHead_pos response
  have hle := hsent.length_le
  have hcreated := createHttpResponse_created hcode h
  have hcopied : response.copied = [] := by
    obtain ⟨-, rfl⟩ := createHttpResponse_with_body h
    rfl
  cases hs : serializeHttpResponse mem response with
  | null =>
    simp only [onWire, sendHttpResponse, hs, Option.map_some, Option.some.injEq] at hwire
    rw [← hwire, List.length_nil] at hle
    omega
  | fault f =>
    simp only [onWire, sendHttpResponse, hs, Option.map_none] at hwire
    cases hwire
  | returned s =>
    -- the size is too small for the head
    rw [sendHttpResponse_of_serialize List.not_mem_nil hs, onWire, Option.map_some,
      Option.some.injEq] at hwire
    obtain ⟨-, -, -, -, rfl⟩ := serializeHttpResponse_eq_returned_iff.mp hs
    rw [← hwire, Serialized.bytes, Block.length_read, hcreated.offered_eq, hcopied,
      List.length_nil] at hle
    dsimp only at hle
    omega

/-- The first bytes on the wire are the head and the body exactly if there is no body, the head
fits the size that is computed for it, and the size fits an `int`. -/
theorem created_response_prefix_iff (hcode : statusCode < 2 ^ 31)
    (h : createHttpResponse true version statusCode reasonPhrase headers (some body) =
      some response) :
    (∀ mem script, SerializeMemory.Succeeds mem → .failed ∉ script →
        ∃ wire, onWire (sendHttpResponse mem response script) = some wire ∧
          response.responseHead ++ body <+: wire) ↔
      body = [] ∧ statusCode ≤ 9999 ∧ response.sizeWithBody 0 < 2 ^ 31 := by
  have hsum := created_sizeWithBody hcode h
  have hfour : 4 < (decimal statusCode.toNat).length ↔ 10000 ≤ statusCode := by
    have hpos := (createHttpResponse_with_body h).1
    rw [lt_length_decimal_iff (by omega)]
    omega
  constructor
  · intro hall
    -- over memory filled with one byte, all of it sent at once
    have hfilled := fun c => hall (.filled c) [] (SerializeMemory.filled_succeeds c)
      List.not_mem_nil
    -- a size that is no `int` sends less than the message
    have hsize : response.sizeWithBody 0 < 2 ^ 31 := by
      obtain ⟨wire, hwire, hprefix⟩ := hfilled 0
      exact sizeWithBody_lt_of_prefix hcode h hwire ((List.prefix_append _ body).trans hprefix)
    have hcreated := fun c => sendHttpResponse_created h (SerializeMemory.filled_succeeds c)
      (by simp : SendResult.failed ∉ []) hsize
    have hbody : body = [] := by
      cases hb : body with
      | nil => rfl
      | cons c cs =>
        -- memory that contains something else where the body should begin
        obtain ⟨block, hread, -, hcells⟩ := hcreated (c + 1)
        obtain ⟨wire, hwire, rest, hrest⟩ := hfilled (c + 1)
        obtain rfl := Option.some.inj (hread.symm.trans hwire)
        rw [hb, List.append_assoc] at hrest
        have hlt : response.responseHead.length < response.sizeWithBody 0 := by
          have hlen := congrArg List.length hrest
          rw [Block.length_read, List.length_append, List.cons_append, List.length_cons] at hlen
          omega
        have hat : (block.read (response.sizeWithBody 0))[response.responseHead.length]? =
            some (c + 1) := by
          rw [Block.read, List.getElem?_ofFn, dif_pos hlt, hcells _ le_rfl]
          rfl
        rw [← hrest, List.getElem?_append_right le_rfl, Nat.sub_self] at hat
        have hsame : c = c + 1 := Option.some.inj hat
        grind
    -- the head alone: its digits have to fit the four bytes that are counted for them
    subst hbody
    obtain ⟨block, hread, -, -⟩ := hcreated 0
    obtain ⟨wire, hwire, hprefix⟩ := hfilled 0
    obtain rfl := Option.some.inj (hread.symm.trans hwire)
    have hle := hprefix.length_le
    rw [List.append_nil, Block.length_read] at hle
    exact ⟨rfl, by omega, hsize⟩
  · rintro ⟨rfl, hdigits, hsize⟩ mem script hmem hscript
    obtain ⟨block, hread, hhold, -⟩ := sendHttpResponse_created h hmem hscript hsize
    refine ⟨_, hread, ?_⟩
    rw [List.append_nil, hhold.read_eq_append (by omega)]
    exact List.prefix_append _ _

/-- The bytes on the wire are the head and the body exactly if there is no body, the status code
has four digits and the head fits an `int`. -/
theorem created_response_sent_iff (hcode : statusCode < 2 ^ 31)
    (h : createHttpResponse true version statusCode reasonPhrase headers (some body) =
      some response) :
    (∀ mem script, SerializeMemory.Succeeds mem → .failed ∉ script →
        onWire (sendHttpResponse mem response script) =
          some (response.responseHead ++ body)) ↔
      body = [] ∧ (1000 ≤ statusCode ∧ statusCode ≤ 9999) ∧
        response.responseHead.length < 2 ^ 31 := by
  have hsum := created_sizeWithBody hcode h
  have hfour := (createHttpResponse_created hcode h).length_code_eq_four_iff
  have hprefix := created_response_prefix_iff hcode h
  have hline : response.line.statusCode = statusCode := by
    obtain ⟨-, rfl⟩ := createHttpResponse_with_body h
    rfl
  rw [hline] at hfour
  constructor
  · intro hall
    obtain ⟨rfl, -, hsize⟩ := hprefix.mp fun mem script hmem hscript =>
      ⟨_, hall mem script hmem hscript, List.prefix_rfl⟩
    have hmem := SerializeMemory.filled_succeeds 0
    obtain ⟨block, hread, -, -⟩ := sendHttpResponse_created h hmem List.not_mem_nil hsize
    -- all the bytes of the size are on the wire, and no others
    have hsame := Option.some.inj (hread.symm.trans (hall _ [] hmem List.not_mem_nil))
    have hlen := congrArg List.length hsame
    rw [List.append_nil, Block.length_read] at hlen
    exact ⟨rfl, hfour.mp (by omega), by omega⟩
  · rintro ⟨rfl, hdigits, hlt⟩ mem script hmem hscript
    have hd := hfour.mpr hdigits
    obtain ⟨block, hread, hhold, -⟩ := sendHttpResponse_created h hmem hscript (by omega)
    have hsize : response.sizeWithBody 0 = response.responseHead.length := by omega
    rw [hread, hsize, hhold.read, List.append_nil]

end Responses

/-! ## Both kinds of messages -/

/-- Of the messages that the constructors build with a body string, for every way the kernel
splits the transfer and whatever the memory contains: a request goes out as its head and its
body exactly if the body is empty and the head fits an `int`; a response exactly if, besides,
its status code has four digits. Up to four digits the bytes of a response with an empty body
begin with the message at least. -/
theorem created_bodies_sent_iff (body : List UInt8) :
    (∀ method uri version headers,
      (∀ mem script, SerializeMemory.Succeeds mem → .failed ∉ script →
          onWire (sendHttpRequest mem (createHttpRequest method uri version headers (some body))
            script) =
              some ((createHttpRequest method uri version headers (some body)).head ++ body)) ↔
        body = [] ∧
          (createHttpRequest method uri version headers (some body)).head.length < 2 ^ 31) ∧
      ∀ version statusCode reasonPhrase headers response, statusCode < 2 ^ 31 →
        createHttpResponse true version statusCode reasonPhrase headers (some body) =
          some response →
        ((∀ mem script, SerializeMemory.Succeeds mem → .failed ∉ script →
            onWire (sendHttpResponse mem response script) =
              some (response.responseHead ++ body)) ↔
          body = [] ∧ (1000 ≤ statusCode ∧ statusCode ≤ 9999) ∧
            response.responseHead.length < 2 ^ 31) ∧
        ((∀ mem script, SerializeMemory.Succeeds mem → .failed ∉ script →
            ∃ wire, onWire (sendHttpResponse mem response script) = some wire ∧
              response.responseHead ++ body <+: wire) ↔
          body = [] ∧ statusCode ≤ 9999 ∧ response.sizeWithBody 0 < 2 ^ 31) := by
  constructor
  · intro method uri version headers
    exact created_request_sent_iff method uri version headers body
  · intro version statusCode reasonPhrase headers response hcode h
    exact ⟨created_response_sent_iff hcode h, created_response_prefix_iff hcode h⟩

/-- An empty body, and a status code of four digits. -/
theorem created_bodies_sent_1000 :
    ∃ response, createHttpResponse true defaultHttpVersion 1000 (bytes "OK")
        [⟨bytes "Content-Length", bytes "0"⟩] (some []) = some response ∧
      ∀ mem script, SerializeMemory.Succeeds mem → .failed ∉ script →
        onWire (sendHttpResponse mem response script) = some (response.responseHead ++ []) := by
  refine ⟨⟨⟨defaultHttpVersion, 1000, bytes "OK"⟩, [⟨bytes "Content-Length", bytes "0"⟩],
    some [], 0⟩, rfl, ?_⟩
  apply ((created_bodies_sent_iff []).2 defaultHttpVersion 1000 (bytes "OK") _ _ (by decide)
    rfl).1.mpr
  exact ⟨rfl, ⟨by decide, by decide⟩, by decide +kernel⟩

/-- A request with the body `hi`. -/
def postRequest : HTTPRequest :=
  createHttpRequest (bytes "POST") (bytes "/") defaultHttpVersion
    [⟨bytes "Content-Length", bytes "2"⟩] (some (bytes "hi"))

/-- The body `hi` is not sent: the request ends behind its head, and behind the head of the
response comes a byte that nobody has written. -/
theorem created_bodies_not_sent :
    onWire (sendHttpRequest (.filled 58) postRequest []) = some postRequest.head ∧
      postRequest.head ≠ postRequest.head ++ bytes "hi" ∧
      ∃ response, createHttpResponse true defaultHttpVersion 200 (bytes "OK")
          [⟨bytes "Content-Length", bytes "2"⟩] (some (bytes "hi")) = some response ∧
        onWire (sendHttpResponse (.filled 58) response []) =
          some (response.responseHead ++ [58]) ∧
        ¬ response.responseHead ++ bytes "hi" <+: response.responseHead ++ [58] := by
  refine ⟨by decide +kernel, by decide +kernel, _, rfl, by decide +kernel, by decide +kernel⟩

end SelectServer
