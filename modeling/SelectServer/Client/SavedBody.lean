import SelectServer.Client.HttpClient
import SelectServer.Shared.ReceiveSpec

/-!
# What the client saves of a response

`receive_http_response` converts the value of `Content-Length` and receives as many bytes;
`handle_connection_http` looks the value up once more, converts it once more and writes as many
bytes. The first of them checks that there is such a header, and that the number is positive;
the second checks neither. Where the two agree the file holds exactly the body, elsewhere the
behaviour is undefined (`saves_body_iff`).
-/

namespace SelectServer

open CLib

/-! ## What a received response has -/

/-- The headers in the head of a stream, as `deserialize_headers` reads them. -/
def streamHeaders (mem : HeadersMemory) (socket : ByteSource UInt8) : List Header :=
  match headerEnd socket.bytes with
  | some h => headersOfText mem.junk ((headText socket h).take h)
  | none => []

/-- The body is as long as its `Content-Length` says, and there is none for a length that is not
positive. -/
def HTTPMessage.BodyOfLength {L : Type} (m : HTTPMessage L) : Prop :=
  if 0 < m.bodyLength then ∃ b, m.body = some b ∧ (b.length : Int) = m.bodyLength
  else m.body = none

/-- A response that is returned has the headers of the stream, and a body of the length they
announce. -/
theorem receive_returned {mem : ReceiveMemory} {socket : ByteSource UInt8}
    {raw : RawMessage ResponseLine}
    (h : (receiveHttpResponse mem socket).outcome = .returned raw) :
    ∃ response : HTTPResponse, raw = response.raw ∧
      response.headers = streamHeaders mem.message.headers socket ∧
      response.bodyLength = contentLength response.headers ∧ response.BodyOfLength := by
  rw [receiveHttpResponse, deserializeHttpResponseHeader] at h
  rcases receive_trichotomy parseResponseLine mem socket with
    hnone | ⟨hbuf, text, ht, hrej⟩ | ⟨hbuf, e, he, hle, ht, hacc⟩
  · rw [(receive_of_no_text parseResponseLine hnone).1] at h
    cases h
  · obtain ⟨⟨f, hf, -⟩, -⟩ := receive_of_not_accepts hbuf ht hrej
    rw [hf] at h
    cases h
  · cases hd : declaredBody parseResponseLine mem.message (headText socket e) with
    | none =>
      obtain ⟨tok, l, headers, socket', -, -, hheaders, hr, hlength, -⟩ :=
        receive_noBody hbuf he hle hacc hd
      rw [hr] at h
      obtain rfl := Outcome.returned.inj h
      refine ⟨_, rfl, ?_, rfl, ?_⟩
      · simp only [streamHeaders, he, hheaders]
      · simp only [HTTPMessage.BodyOfLength, if_neg (not_lt.mpr hlength)]
    | some n =>
      by_cases halloc : BodyAllocated mem n
      · obtain ⟨tok, l, headers, socket', block, -, -, hheaders, hlength, hpos, hr, -⟩ :=
          receive_body hbuf he hle hacc hd halloc
        rw [hr] at h
        simp only at h
        split at h
        · obtain rfl := Outcome.returned.inj h
          refine ⟨_, rfl, ?_, hlength.symm, ?_⟩
          · simp only [streamHeaders, he, hheaders]
          · have hpos' : (0 : Int) < n := by omega
            simp only [HTTPMessage.BodyOfLength, if_pos hpos']
            exact ⟨_, rfl, by rw [Block.length_read]⟩
        · cases h
      · rw [(receive_noBlock hbuf he hle hacc hd halloc).1] at h
        cases h

/-! ## Saving -/

/-- The client gets to receive: the request has been sent. -/
structure ClientEnv.Sends (env : ClientEnv) (resource : List UInt8) (request : HTTPRequest) :
    Prop where
  formattedResource : env.formattedResource = true
  allocated : env.request = true
  built : clientRequest env resource = some request
  sent : ∃ r, sendHttpRequest env.serialize request env.script = some r ∧ 0 ≤ r.1

/-- A file is opened for the response: it has headers, its status is 200, the URI that was asked
for names a file, and `fopen` succeeds. -/
def ClientEnv.Opens (env : ClientEnv) (uri : List UInt8) (response : HTTPResponse) : Prop :=
  0 < response.headers.length ∧ response.line.statusCode = 200 ∧
    (uri.head? = some 47 ∧ 1 < uri.length) ∧ env.fopen = true

instance (env : ClientEnv) (uri : List UInt8) (response : HTTPResponse) :
    Decidable (env.Opens uri response) := inferInstanceAs (Decidable (_ ∧ _))

/-- The run comes to its end, and a file that is opened holds exactly the body of the response,
nothing if it has none. -/
structure SavesBody (env : ClientEnv) (uri resource : List UInt8) (response : HTTPResponse)
    (run : ClientRun) : Prop where
  ret : run.ret = some 0
  saved : run.saved = if env.Opens uri response then some
      ⟨(env.timestamp ++ bytes "_" ++ resource).take (defaultFilenameSize - 1),
        response.body.getD []⟩
    else none

/-- There is a `Content-Length`, and the number that `atoi` makes of it is not negative. -/
def HasLength (headers : List Header) : Prop :=
  ∃ v, findHeaderValue headers (bytes "Content-Length") = some v ∧ 0 ≤ atoi v

/-- `fwrite` of the announced number of bytes writes the body, unless the number is negative. -/
theorem fwriteBody_eq {response : HTTPResponse} {n : Int} (hlength : response.bodyLength = n)
    (hbody : response.BodyOfLength) :
    fwriteBody response.body n = if 0 ≤ n then some (response.body.getD []) else none := by
  rw [HTTPMessage.BodyOfLength, hlength] at hbody
  by_cases hpos : 0 < n
  · -- the count is the length of the body
    rw [if_pos hpos] at hbody
    obtain ⟨b, hb, hblen⟩ := hbody
    have hcount : 0 ≤ n ∧ n ≤ b.length + 1 := by omega
    have htake : n.toNat = b.length := by omega
    rw [hb, fwriteBody]
    simp only [if_pos hcount, if_pos hcount.1, htake, List.take_left, Option.getD_some]
  · -- the body is NULL, which only a count of zero leaves alone
    rw [if_neg hpos] at hbody
    rw [hbody, fwriteBody]
    by_cases hzero : n = 0
    · rw [if_pos hzero, if_pos hzero.ge, Option.getD_none]
    · rw [if_neg hzero, if_neg (by omega)]

/-- A file that is opened gets the body exactly if there is a length for it that is not
negative; else the behaviour is undefined. -/
theorem saveResponse_of_opens {env : ClientEnv} {uri : List UInt8} {response : HTTPResponse}
    (hopens : env.Opens uri response) (resource : List UInt8)
    (hlength : response.bodyLength = contentLength response.headers)
    (hbody : response.BodyOfLength) :
    (HasLength response.headers → saveResponse env uri resource response = some (some
      ⟨(env.timestamp ++ bytes "_" ++ resource).take (defaultFilenameSize - 1),
        response.body.getD []⟩)) ∧
      (¬ HasLength response.headers → saveResponse env uri resource response = none) := by
  have hif := hopens
  rw [ClientEnv.Opens] at hif
  rw [saveResponse, if_pos hif]
  -- the second lookup finds what the first one has found
  rw [contentLength] at hlength
  cases hfind : findHeaderValue response.headers (bytes "Content-Length") with
  | none =>
    refine ⟨fun ⟨v, hv, _⟩ => ?_, fun _ => rfl⟩
    rw [hfind] at hv
    cases hv
  | some v =>
    rw [hfind] at hlength
    have hwrite := fwriteBody_eq hlength hbody
    simp only [hwrite]
    constructor
    · rintro ⟨v', hv', hnonneg⟩
      obtain rfl := Option.some.inj (hfind.symm.trans hv')
      rw [if_pos hnonneg, Option.map_some]
    · intro hn
      have hneg : ¬ 0 ≤ atoi v := fun hnonneg => hn ⟨v, hfind, hnonneg⟩
      rw [if_neg hneg, Option.map_none]

/-- The client handles the response it is sent. -/
theorem handleConnectionHttp_of_sends {env : ClientEnv} {resource : List UInt8}
    {request : HTTPRequest} (hsends : env.Sends resource request) {socket : ByteSource UInt8}
    {response : HTTPResponse}
    (hreceived : (receiveHttpResponse env.receive socket).outcome = .returned response.raw) :
    (∀ saved, saveResponse env request.line.uri resource response = some saved →
      (handleConnectionHttp env resource socket).ret = some 0 ∧
        (handleConnectionHttp env resource socket).saved = saved) ∧
      (saveResponse env request.line.uri resource response = none →
        (handleConnectionHttp env resource socket).ret = none) := by
  obtain ⟨⟨ret, sent⟩, hsent, hret⟩ := hsends.sent
  simp only [handleConnectionHttp, hsends.formattedResource, hsends.allocated, hsends.built,
    if_true, hsent, if_neg hret.not_gt, hreceived, HTTPMessage.message_raw, Option.bind_some]
  constructor
  · intro saved hsaved
    simp only [hsaved, and_self]
  · intro hnone
    simp only [hnone]

/-- For a response that is received, the client saves exactly the body it has been returned, with
defined behaviour, exactly if it opens no file or the headers have a length that is not
negative. -/
theorem saves_body_iff {env : ClientEnv} {resource : List UInt8} {request : HTTPRequest}
    (hsends : env.Sends resource request) {socket : ByteSource UInt8}
    {raw : RawMessage ResponseLine}
    (hreceived : (receiveHttpResponse env.receive socket).outcome = .returned raw) :
    ∃ response : HTTPResponse, raw = response.raw ∧ response.BodyOfLength ∧
      (SavesBody env request.line.uri resource response
          (handleConnectionHttp env resource socket) ↔
        (env.Opens request.line.uri response →
          HasLength (streamHeaders env.receive.message.headers socket))) := by
  obtain ⟨response, rfl, hheaders, hlength, hbody⟩ := receive_returned hreceived
  obtain ⟨hdefined, hundefined⟩ := handleConnectionHttp_of_sends hsends hreceived
  refine ⟨response, rfl, hbody, ?_⟩
  rw [← hheaders]
  by_cases hopens : env.Opens request.line.uri response
  · obtain ⟨hsaves, hfaults⟩ := saveResponse_of_opens hopens resource hlength hbody
    constructor
    · intro hrun _
      by_contra hn
      have hret := hundefined (hfaults hn)
      rw [hrun.ret] at hret
      cases hret
    · intro hhas
      obtain ⟨hret, hsaved⟩ := hdefined _ (hsaves (hhas hopens))
      exact ⟨hret, by rw [hsaved, if_pos hopens]⟩
  · have hif := hopens
    rw [ClientEnv.Opens] at hif
    obtain ⟨hret, hsaved⟩ := hdefined none (by rw [saveResponse, if_neg hif])
    refine iff_of_true ⟨hret, by rw [hsaved, if_neg hopens]⟩ fun h => absurd h hopens

/-- A client none of whose calls fails asks for `/a`. -/
theorem ideal_sends : ClientEnv.ideal.Sends (bytes "a")
    ⟨⟨bytes "GET", bytes "/a", bytes "HTTP/1.1"⟩, [⟨bytes "Host", bytes "localhost"⟩], none, 0⟩ :=
  have ⟨sent, hsent⟩ := sendHttpRequest_of_succeeds ClientEnv.ideal_succeeds
    (by decide)
  ⟨rfl, rfl, by decide +kernel, (0, sent), hsent, le_rfl⟩

/-- A response with two bytes of body. -/
def hiStream : ByteSource UInt8 :=
  ⟨[bytes "HTTP/1.1 200 OK\r\nContent-Length: 2\r\n\r\nhi"], .closed⟩

theorem saves_body_hi :
    ∃ response : HTTPResponse,
      HTTPMessage.raw ⟨⟨bytes "HTTP/1.1", 200, bytes "OK"⟩, [⟨bytes "Content-Length", bytes "2"⟩],
        some (bytes "hi"), 2⟩ = response.raw ∧ response.BodyOfLength ∧
      (SavesBody .ideal (bytes "/a") (bytes "a") response
          (handleConnectionHttp .ideal (bytes "a") hiStream) ↔
        (ClientEnv.ideal.Opens (bytes "/a") response →
          HasLength (streamHeaders ClientEnv.ideal.receive.message.headers hiStream))) :=
  saves_body_iff ideal_sends (by decide +kernel)

/-- A response with status 200 and a header. -/
def oneHeaderStream (header : List UInt8) : ByteSource UInt8 :=
  ⟨[bytes "HTTP/1.1 200 OK\r\n" ++ header ++ bytes "\r\n\r\n"], .closed⟩

/-- What it is received as. -/
def oneHeaderResponse (header : Header) (n : Int) : HTTPResponse :=
  ⟨⟨bytes "HTTP/1.1", 200, bytes "OK"⟩, [header], none, n⟩

theorem not_savesBody_of_undefined {env : ClientEnv} {uri resource : List UInt8}
    {response : HTTPResponse} {r : ClientRun} (h : r.ret = none) :
    ¬ SavesBody env uri resource response r := by
  intro hsaves
  rw [hsaves.ret] at h
  cases h

/-- Without a `Content-Length` a NULL pointer is given to `atoi`, and with a negative one a NULL
body and a huge number to `fwrite`. -/
theorem saves_body_undefined :
    ((receiveHttpResponse ClientEnv.ideal.receive (oneHeaderStream (bytes "X: y"))).outcome =
        .returned (oneHeaderResponse ⟨bytes "X", bytes "y"⟩ 0).raw ∧
      ¬ SavesBody .ideal (bytes "/a") (bytes "a") (oneHeaderResponse ⟨bytes "X", bytes "y"⟩ 0)
        (handleConnectionHttp .ideal (bytes "a") (oneHeaderStream (bytes "X: y")))) ∧
    (receiveHttpResponse ClientEnv.ideal.receive
        (oneHeaderStream (bytes "Content-Length: -1"))).outcome =
        .returned (oneHeaderResponse ⟨bytes "Content-Length", bytes "-1"⟩ (-1)).raw ∧
      ¬ SavesBody .ideal (bytes "/a") (bytes "a")
        (oneHeaderResponse ⟨bytes "Content-Length", bytes "-1"⟩ (-1))
        (handleConnectionHttp .ideal (bytes "a")
          (oneHeaderStream (bytes "Content-Length: -1"))) := by
  refine ⟨⟨by decide +kernel, not_savesBody_of_undefined ?_⟩, by decide +kernel,
    not_savesBody_of_undefined ?_⟩
  · decide +kernel
  · decide +kernel

end SelectServer
