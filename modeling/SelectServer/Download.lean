import SelectServer.Client.HttpClient
import SelectServer.Server.FileResponse

/-!
# A download, from the file of the server to the file of the client

The bytes that `handle_client_http_write` sends for an existing file are a well-formed head
that announces the length of the file, followed by the file and one byte more. Both readers
of the client side take exactly the file from them, however `read`, `send` and `recv` split
the bytes on the way.
-/

namespace SelectServer

open CLib

/-- The response that the client side makes of a file. -/
def fileResponse (contentType content : List UInt8) : HTTPResponse where
  line := ⟨defaultHttpVersion, 200, http200Phrase⟩
  headers := responseHeaders contentType content.length
  body := if content.length = 0 then none else some content
  bodyLength := content.length

/-- A stream that starts with the head and the content of a file is received as the response
for that file; what follows the content does not matter. -/
theorem receiveHttpResponse_file {mem : ReceiveMemory} (hmem : mem.Succeeds)
    {extension content extra : List UInt8} {socket : ByteSource UInt8}
    (hlen : content.length ≤ 2 ^ 31 - 4096)
    (hs : socket.bytes = headBlock okLine (responseHeaders (getContentType extension)
      content.length) ++ (content ++ extra)) :
    (receiveHttpResponse mem socket).outcome =
      .returned (fileResponse (getContentType extension) content).raw := by
  have hheaders := length_responseHeaders extension
    (by omega : content.length < 2 ^ 63)
  have hparse : parseResponseLine okLine = .line ⟨defaultHttpVersion, 200, http200Phrase⟩ := by
    decide
  have hline : okLine.length = 15 := by decide
  have hend : lineEnding.length = 2 := by decide
  have hblock : (headBlock okLine (responseHeaders (getContentType extension)
      content.length)).length ≤ defaultBufferSize := by
    simp only [headBlock_eq, List.length_append, hline, hend, defaultBufferSize]
    omega
  have hreceive := (receive_headBlock hmem okLine_isLine (by decide : 58 ∉ okLine)
    (responseHeaders_wellFormed extension content.length) hparse hs hblock
    (contentLength_responseHeaders _ (by omega)) (by omega) (by simp)).1
  rw [receiveHttpResponse, deserializeHttpResponseHeader, hreceive, List.take_left]
  rfl

/-- The client saves the content of that response. -/
theorem saveResponse_file {env : ClientEnv} (henv : env.Succeeds) {resource : List UInt8}
    (hresource : resource ≠ []) {contentType content : List UInt8}
    (hlen : content.length < 2 ^ 31) :
    saveResponse env (47 :: resource) resource (fileResponse contentType content) = some (some
      ⟨(env.timestamp ++ bytes "_" ++ resource).take (defaultFilenameSize - 1), content⟩) := by
  have hlength := contentLength_responseHeaders contentType hlen
  have hpos : 1 < (47 :: resource).length := by
    have := List.length_pos_iff.mpr hresource
    rw [List.length_cons]
    omega
  -- an empty file comes without a body, and `fwrite` of no bytes does not read it
  have hwrite : fwriteBody (fileResponse contentType content).body content.length =
      some content := by
    by_cases h0 : content.length = 0
    · have hnil := List.length_eq_zero_iff.mp h0
      simp [fwriteBody, fileResponse, hnil]
    · have hle : 0 ≤ (content.length : Int) ∧ (content.length : Int) ≤ content.length + 1 := by
        omega
      simp only [fwriteBody, fileResponse, if_neg h0, if_pos hle, Int.toNat_natCast,
        List.take_left]
  have hheaders : (fileResponse contentType content).headers =
      responseHeaders contentType content.length := rfl
  have hcount : 0 < (fileResponse contentType content).headers.length := by
    simp [hheaders, responseHeaders]
  unfold contentLength at hlength
  cases hfind : findHeaderValue (responseHeaders contentType content.length)
      (bytes "Content-Length") with
  | none =>
    have hkey : (bytes "Content-Type" == bytes "Content-Length") = false := by decide
    simp [findHeaderValue, responseHeaders, hkey] at hfind
  | some v =>
    rw [hfind] at hlength
    have hsave : 0 < (fileResponse contentType content).headers.length ∧
        (fileResponse contentType content).line.statusCode = 200 ∧
        ((47 :: resource).head? = some 47 ∧ 1 < (47 :: resource).length) ∧ env.fopen = true :=
      ⟨hcount, rfl, ⟨rfl, hpos⟩, henv.fopen⟩
    rw [saveResponse, if_pos hsave, hheaders, hfind]
    simp only [hlength, hwrite, Option.map_some]

/-- A file of any content travels unaltered: what the server sends for it is received with
status 200 and the content as body, and the client saves exactly the content. -/
theorem download_file (content : List UInt8) (hlen : content.length ≤ 2 ^ 31 - 4096)
    (env : WriteEnv) (data : ClientHttpData) (request : HTTPRequest)
    (hrequest : data.request = some request) (hslash : request.line.uri.head? = some 47)
    (hdot : 46 ∈ request.line.uri)
    (henv : env.Serves (resourcesFolder ++ request.line.uri) content)
    (socket : ByteSource UInt8)
    (hsocket : socket.bytes =
      sentOn data.clientSockfd (handleClientHttpWrite env (some data)).effects) :
    (∀ mem : ReceiveMemory, mem.Succeeds → ∃ response : HTTPResponse,
      (receiveHttpResponse mem socket).outcome = .returned response.raw ∧
      response.line.statusCode = 200 ∧
      (0 < content.length → response.body = some content)) ∧
    (∀ client : ClientEnv, client.Succeeds → ∀ resource : List UInt8, resource ≠ [] →
      resource.length < defaultBufferSize → ∃ filename,
      (handleConnectionHttp client resource socket).ret = some 0 ∧
      (handleConnectionHttp client resource socket).saved = some ⟨filename, content⟩) := by
  obtain ⟨extension, extra, -, -, hsent⟩ :=
    handleClientHttpWrite_file hrequest hslash hdot henv hlen
  have hs := hsocket.trans hsent
  refine ⟨fun mem hmem => ⟨_, receiveHttpResponse_file hmem hlen hs, rfl, fun hpos => ?_⟩, ?_⟩
  · simp only [fileResponse, if_neg (by omega : ¬ content.length = 0)]
  · intro client hclient resource hresource hsize
    exact ⟨_, handleConnectionHttp_of_returned hclient hsize
      (receiveHttpResponse_file hclient.receive hlen hs)
      (saveResponse_file hclient hresource (by omega))⟩

/-- A file of a NUL and a blank line, read in two chunks, sent in two pieces and received in
two segments. -/
theorem download_file_nul_blankLine :
    let content : List UInt8 := [0, 13, 10, 13, 10]
    let env : WriteEnv := { WriteEnv.ideal 5 content with
      reads := [.data [0, 13], .data [10, 13, 10]], script := [.accepted 30] }
    let request : HTTPRequest :=
      ⟨⟨bytes "GET", bytes "/hello.html", bytes "HTTP/1.1"⟩, [], none, 0⟩
    let sent := sentOn 4 (handleClientHttpWrite env (some ⟨4, some request, none⟩)).effects
    let socket : ByteSource UInt8 := ⟨[sent.take 50, sent.drop 50], .closed⟩
    (∃ response : HTTPResponse,
      (receiveHttpResponse .ideal socket).outcome = .returned response.raw ∧
      response.body = some content) ∧
    ∃ filename, (handleConnectionHttp .ideal (bytes "hello.html") socket).saved =
      some ⟨filename, content⟩ := by
  intro content env request sent socket
  have henv : env.Serves (resourcesFolder ++ request.line.uri) content :=
    ⟨rfl, rfl, rfl, rfl, fun _ => ⟨rfl, rfl, rfl⟩, rfl, rfl, rfl, rfl, by decide, rfl,
      ⟨[[0, 13], [10, 13, 10]], rfl, rfl⟩, by simp [env]⟩
  obtain ⟨hreceive, hsave⟩ := download_file content (by decide) env ⟨4, some request, none⟩
    request rfl rfl (by decide) henv socket (by simp [socket, ByteSource.bytes, sent])
  obtain ⟨response, hresponse, -, hbody⟩ := hreceive .ideal ReceiveMemory.ideal_succeeds
  obtain ⟨filename, -, hsaved⟩ := hsave .ideal ClientEnv.ideal_succeeds (bytes "hello.html")
    (by decide) (by decide)
  exact ⟨⟨response, hresponse, hbody (by decide)⟩, filename, hsaved⟩

/-- A file whose name has no dot is there to be read, and asking for it is answered 400: the
client receives that status without a body, and saves nothing. -/
theorem download_without_dot :
    let content : List UInt8 := bytes "MIT License"
    let env : WriteEnv := .ideal 5 content
    let request : HTTPRequest :=
      ⟨⟨bytes "GET", bytes "/LICENSE", bytes "HTTP/1.1"⟩, [], none, 0⟩
    let sent := sentOn 4 (handleClientHttpWrite env (some ⟨4, some request, none⟩)).effects
    env.Serves (resourcesFolder ++ request.line.uri) content ∧
      (receiveHttpResponse .ideal ⟨[sent], .closed⟩).outcome =
        .returned (HTTPMessage.raw ⟨⟨bytes "HTTP/1.1", 400, bytes "Bad Request"⟩, [], none, 0⟩) ∧
      (handleConnectionHttp .ideal (bytes "LICENSE") ⟨[sent], .closed⟩).saved = none := by
  intro content env request sent
  refine ⟨⟨rfl, rfl, rfl, rfl, fun _ => ⟨rfl, rfl, rfl⟩, rfl, rfl, rfl, rfl, by decide, rfl,
    ⟨[content], rfl, by simp⟩, by simp [env, WriteEnv.ideal]⟩, ?_, ?_⟩
  · decide +kernel
  · decide +kernel

end SelectServer
