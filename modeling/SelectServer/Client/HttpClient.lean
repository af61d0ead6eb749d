import SelectServer.Shared.Receive

/-!
# The HTTP client of `client/client.c`

`handle_connection_http` sends a GET for a resource, receives the response and saves its
body to a file named after the time and the resource.
-/

namespace SelectServer

open CLib

/-- `DEFAULT_HTTP_METHOD`. -/
def defaultHttpMethod : List UInt8 := bytes "GET"

/-- `DEFAULT_HOST`. -/
def defaultHost : List UInt8 := bytes "localhost"

/-- `DEFAULT_FILENAME_SIZE`. -/
def defaultFilenameSize : Nat := 64

/-- The answers of the system to the client: the results of its allocations and of `fopen`,
of the `send` calls, the memory of the receive function, and the time as `strftime`
formats it. `headersBuffer` and `requestBuffer` are the two blocks that sending the request
allocates. -/
structure ClientEnv where
  formattedResource : Bool
  headers : Bool
  addHeader : HeaderAlloc
  request : Bool
  headersBuffer : Bool
  requestBuffer : Bool
  script : List SendResult
  receive : ReceiveMemory
  timestamp : List UInt8
  fopen : Bool
  junk : Nat → UInt8

/-- The memory the request is serialised in. -/
def ClientEnv.serialize (env : ClientEnv) : SerializeMemory :=
  ⟨env.headersBuffer, env.requestBuffer, env.junk⟩

/-- A file that the client has written. -/
structure SavedFile where
  filename : List UInt8
  content : List UInt8
  deriving DecidableEq, Repr

/-- A run of the client: its result (`none` is undefined behaviour), the bytes it sent, and
the file it saved. -/
structure ClientRun where
  ret : Option Int
  sent : List UInt8
  saved : Option SavedFile
  deriving DecidableEq, Repr

/-- The bytes that `fwrite(body, 1, count, file)` writes; `none` is a read outside the body
and its terminator. -/
def fwriteBody (body : Option (List UInt8)) (count : Int) : Option (List UInt8) :=
  match body with
  | none => if count = 0 then some [] else none
  | some b =>
    if 0 ≤ count ∧ count ≤ b.length + 1 then some ((b ++ [0]).take count.toNat) else none

/-- The request of the client, when the array of its one header is not NULL. -/
def clientRequest (env : ClientEnv) (resource : List UInt8) : Option HTTPRequest :=
  (addHeaders (fun _ => env.addHeader) 0
    ⟨if env.headers then some (createHeaders initialHeaderCount) else none, 0, initialHeaderCount⟩
    [⟨bytes "Host", defaultHost⟩]).bind fun arr => arr.live.map fun headers =>
      createHttpRequest defaultHttpMethod (47 :: resource) defaultHttpVersion headers none

/-- What the client does with a response: the file it saves, if any; `none` is undefined
behaviour. -/
def saveResponse (env : ClientEnv) (uri resource : List UInt8) (response : HTTPResponse) :
    Option (Option SavedFile) :=
  if 0 < response.headers.length ∧ response.line.statusCode = 200 ∧
      (uri.head? = some 47 ∧ 1 < uri.length) ∧ env.fopen = true then
    -- `atoi(content_length)` is evaluated also when there is no such header
    match findHeaderValue response.headers (bytes "Content-Length") with
    | none => none
    | some v => (fwriteBody response.body (atoi v)).map fun content => some {
        filename := (env.timestamp ++ bytes "_" ++ resource).take (defaultFilenameSize - 1)
        content := content }
  else some none

/-- `handle_connection_http`; `socket` is what the server sends. -/
def handleConnectionHttp (env : ClientEnv) (resource : List UInt8) (socket : ByteSource UInt8) :
    ClientRun :=
  if env.formattedResource then
    match if env.request then clientRequest env resource else none with
    | none => ⟨none, [], none⟩
    | some request =>
      match sendHttpRequest env.serialize request env.script with
      | none => ⟨none, [], none⟩
      | some (ret, sent) =>
        if ret < 0 then ⟨some (-1), sent, none⟩
        else
          -- the server answers on the connection the request was sent on
          match (receiveHttpResponse env.receive socket).outcome with
          | .null => ⟨some (-1), sent, none⟩
          | .fault _ => ⟨none, sent, none⟩
          | .returned raw =>
            match raw.message.bind (saveResponse env request.line.uri resource) with
            | none => ⟨none, sent, none⟩
            | some saved => ⟨some 0, sent, saved⟩
  else ⟨some (-1), [], none⟩

/-- No call of the client fails. -/
structure ClientEnv.Succeeds (env : ClientEnv) : Prop where
  formattedResource : env.formattedResource = true
  headers : env.headers = true
  addHeader : env.addHeader.Succeeds
  request : env.request = true
  headersBuffer : env.headersBuffer = true
  requestBuffer : env.requestBuffer = true
  script : .failed ∉ env.script
  receive : env.receive.Succeeds
  fopen : env.fopen = true

/-- A client none of whose calls fails. -/
def ClientEnv.ideal : ClientEnv where
  formattedResource := true
  headers := true
  addHeader := ⟨true, some 0, some 1⟩
  request := true
  headersBuffer := true
  requestBuffer := true
  script := []
  receive := .ideal
  timestamp := bytes "20241101120000"
  fopen := true
  junk := fun _ => 0

theorem ClientEnv.ideal_succeeds : ClientEnv.ideal.Succeeds :=
  ⟨rfl, rfl, ⟨rfl, rfl, rfl⟩, rfl, rfl, rfl, by simp [ClientEnv.ideal],
    ReceiveMemory.ideal_succeeds, rfl⟩

theorem ClientEnv.Succeeds.serialize {env : ClientEnv} (h : env.Succeeds) :
    env.serialize.Succeeds :=
  ⟨h.headersBuffer, h.requestBuffer⟩

/-- The headers of the client's request. -/
theorem clientRequest_of_succeeds {env : ClientEnv} (h : env.Succeeds) (resource : List UInt8) :
    clientRequest env resource = some ⟨⟨defaultHttpMethod, 47 :: resource, defaultHttpVersion⟩,
      [⟨bytes "Host", defaultHost⟩], none, 0⟩ := by
  obtain ⟨arr, hadds, hlive⟩ := addHeaders_of_succeeds
    (fun _ => h.addHeader) [⟨bytes "Host", defaultHost⟩] 0
    (createHeaders_wellFormed initialHeaderCount) (by simp) (by simp [initialHeaderCount])
  rw [contents_createHeaders, List.nil_append] at hlive
  simp [clientRequest, h.headers, hadds, hlive, createHttpRequest]

/-- The request of the client is always serialised: its size does not wrap around. -/
theorem serializeHttpRequestHeader_of_succeeds {env : ClientEnv} (h : env.Succeeds)
    {resource : List UInt8} (hsize : resource.length < defaultBufferSize) :
    ∃ s, serializeHttpRequestHeader env.serialize
      ⟨⟨defaultHttpMethod, 47 :: resource, defaultHttpVersion⟩,
        [⟨bytes "Host", defaultHost⟩], none, 0⟩ = .returned s := by
  have hheaders : (headersText [⟨bytes "Host", defaultHost⟩]).length = 17 := by decide
  have hend : lineEnding.length = 2 := by decide
  have hmethod : defaultHttpMethod.length = 3 := by decide
  have hversion : defaultHttpVersion.length = 8 := by decide
  have hbuffer : defaultBufferSize = 4096 := rfl
  refine ⟨_, serializeHttpRequestHeader_eq_returned_iff.mpr ⟨h.serialize, ?_, ?_, rfl⟩⟩
  · rw [hheaders]
    omega
  · rw [HTTPMessage.requestSize, RequestLine.size, hheaders, hend, hmethod, hversion,
      List.length_cons, toInt32_add_left, Int.add_assoc, toInt32_add_left, toInt32_eq_self]
    · omega
    · omega
    · omega

/-- It is always sent. -/
theorem sendHttpRequest_of_succeeds {env : ClientEnv} (h : env.Succeeds)
    {resource : List UInt8} (hsize : resource.length < defaultBufferSize) :
    ∃ sent, sendHttpRequest env.serialize
      ⟨⟨defaultHttpMethod, 47 :: resource, defaultHttpVersion⟩,
        [⟨bytes "Host", defaultHost⟩], none, 0⟩ env.script = some (0, sent) := by
  obtain ⟨s, hs⟩ := serializeHttpRequestHeader_of_succeeds h hsize
  exact ⟨s.bytes, sendHttpRequest_of_serialize h.script rfl hs⟩

/-- Without failing calls the client handles the response it receives. -/
theorem handleConnectionHttp_of_returned {env : ClientEnv} (h : env.Succeeds)
    {resource : List UInt8} (hsize : resource.length < defaultBufferSize)
    {socket : ByteSource UInt8} {response : HTTPResponse}
    (hresponse : (receiveHttpResponse env.receive socket).outcome = .returned response.raw)
    {saved : Option SavedFile}
    (hsaved : saveResponse env (47 :: resource) resource response = some saved) :
    (handleConnectionHttp env resource socket).ret = some 0 ∧
      (handleConnectionHttp env resource socket).saved = saved := by
  obtain ⟨sent, hsent⟩ := sendHttpRequest_of_succeeds h hsize
  simp [handleConnectionHttp, h.formattedResource, h.request, clientRequest_of_succeeds h, hsent,
    hresponse, hsaved]

end SelectServer
