import SelectServer.Download
import SelectServer.Server.Site
import SelectServer.Shared.SentBodies

/-!
# A client, the server, and the site between them

`handle_connection_http` of the client asks for a resource, the two HTTP handlers of the server
take the request and answer it, and the client reads the answer.

However the request and the answer are cut into pieces on their way, however the file is read,
and however often the server finds nothing to do in between, the client ends with the answer of
the site (`web_exchange`).
-/

namespace SelectServer

open CLib Systems

/-! ## The answer in the client -/

/-- The response that a client makes of an answer: an empty body is none. -/
def Answer.received : Answer → HTTPResponse
  | .content contentType body => fileResponse contentType body
  | .badRequest => statusResponse 400 http400Phrase
  | .notFound => statusResponse 404 http404Phrase

/-- The file that the client saves, when it has asked for a resource. -/
def Answer.saved (answer : Answer) (timestamp resource : List UInt8) : Option SavedFile :=
  match answer with
  | .content _ body =>
    if resource = [] then none
    else some
      ⟨(timestamp ++ bytes "_" ++ resource).take (defaultFilenameSize - 1), body⟩
  | _ => none

theorem Answer.raw_received (answer : Answer) :
    HTTPMessage.raw ⟨answer.served.line, answer.served.headers,
      if answer.body.length = 0 then none else some answer.body, answer.body.length⟩ =
        answer.received.raw := by
  cases answer with
  | content => rfl
  | badRequest => rfl
  | notFound => rfl

/-- A stream that begins like this is received as the answer. -/
theorem receiveHttpResponse_answer {answer : Answer} (htyped : answer.Typed)
    (hfits : answer.Fits) {mem : ReceiveMemory} (hmem : mem.Succeeds)
    {socket : ByteSource UInt8} (hs : answer.Begins socket.bytes) :
    (receiveHttpResponse mem socket).outcome = .returned answer.received.raw := by
  obtain ⟨extra, hs⟩ := hs
  have hlen : answer.body.length < 2 ^ 31 := hfits.trans_lt (by norm_num)
  have hblock : (headBlock answer.served.line.line answer.served.headers).length ≤
      defaultBufferSize := (htyped.length_head hlen).trans (by decide)
  have hbody : answer.body.length + 1 < 2 ^ 31 := by
    unfold Answer.Fits at hfits
    omega
  have hreceive := (receive_headBlock hmem htyped.plain.isLine htyped.plain.no_colon
    htyped.headers_wellFormed (parseResponseLine_line htyped.plain) hs hblock
    (htyped.contentLength_served hlen) hbody (by simp)).1
  rw [receiveHttpResponse, deserializeHttpResponseHeader, hreceive, List.take_left,
    answer.raw_received]

/-- The client saves the body of an answer that has one. -/
theorem saveResponse_answer {answer : Answer} (hfits : answer.Fits) {client : ClientEnv}
    (hclient : client.Succeeds) (resource : List UInt8) :
    saveResponse client (47 :: resource) resource answer.received =
      some (answer.saved client.timestamp resource) := by
  cases answer with
  | content contentType body =>
    by_cases hempty : resource = []
    · -- the client looks for a name behind the slash
      subst hempty
      simp [saveResponse, Answer.saved]
    · have hlt : body.length < 2 ^ 31 := lt_of_le_of_lt hfits (by norm_num)
      rw [Answer.received, saveResponse_file hclient hempty hlt, Answer.saved, if_neg hempty]
  | badRequest => rfl
  | notFound => rfl

/-! ## The request on the wire -/

/-- The request of the client for a resource. -/
def clientGet (resource : List UInt8) : HTTPRequest :=
  ⟨⟨defaultHttpMethod, 47 :: resource, defaultHttpVersion⟩,
    [⟨bytes "Host", defaultHost⟩], none, 0⟩

/-- A resource that the request line of the client can name: `sscanf` takes it for one word that
fits its array. -/
structure Nameable (resource : List UInt8) : Prop where
  no_space : ∀ c ∈ resource, isspace c = false
  no_nul : 0 ∉ resource
  length_lt : resource.length + 1 < uriSize

theorem Nameable.plain {resource : List UInt8} (h : Nameable resource) :
    (clientGet resource).PlainRequest := by
  have hmethod : IsWord defaultHttpMethod := ⟨by decide, by decide, by decide⟩
  have hversion : IsWord defaultHttpVersion := ⟨by decide, by decide, by decide⟩
  have huri : IsWord (47 :: resource) := by
    refine ⟨List.cons_ne_nil _ _, ?_, ?_⟩
    · exact List.forall_mem_cons.mpr ⟨by decide, h.no_space⟩
    · exact fun hm => h.no_nul ((List.mem_cons.mp hm).resolve_left (by decide))
  have hmethodLt : defaultHttpMethod.length < methodSize := by decide
  have hversionLt : defaultHttpVersion.length < versionSize := by decide
  refine ⟨hmethod, huri, hversion, hmethodLt, h.length_lt, hversionLt, ?_⟩
  intro x hx
  obtain rfl := List.mem_singleton.mp hx
  exact ⟨by decide, by decide⟩

/-- The length of a request for a resource. -/
theorem length_clientGet (resource : List UInt8) :
    (clientGet resource).head.length = resource.length + 35 := by
  have hmethod : defaultHttpMethod.length = 3 := by decide
  have hversion : defaultHttpVersion.length = 8 := by decide
  have hend : lineEnding.length = 2 := by decide
  have hhost : (headersText (clientGet resource).headers).length = 17 := by
    change (headersText [⟨bytes "Host", defaultHost⟩]).length = 17
    decide
  have hline : (clientGet resource).line.line.length = resource.length + 14 := by
    rw [RequestLine.line, List.length_append, List.length_cons, List.length_append,
      List.length_cons]
    exact (congrArg₂ (fun m v => m + (resource.length + 1 + (v + 1) + 1)) hmethod
      hversion).trans (by omega)
  rw [HTTPMessage.head, headBlock_eq, List.length_append, List.length_append,
    List.length_append, hline, hend, hhost]

/-- The client puts its request on the wire, whatever comes back. -/
theorem handleConnectionHttp_sent {client : ClientEnv} (hclient : client.Succeeds)
    {resource : List UInt8} {request : HTTPRequest}
    (hrequest : clientRequest client resource = some request) {sent : Int × List UInt8}
    (hsent : sendHttpRequest client.serialize request client.script = some sent)
    (socket : ByteSource UInt8) : (handleConnectionHttp client resource socket).sent = sent.2 := by
  simp only [handleConnectionHttp, hclient.formattedResource, hclient.request, hrequest, hsent,
    if_true]
  -- the bytes are the same at every exit behind `send_http_request`
  generalize (receiveHttpResponse client.receive socket).outcome = outcome
  by_cases hneg : sent.1 < 0
  · rw [if_pos hneg]
  · rw [if_neg hneg]
    cases outcome with
    | null => rfl
    | fault f => rfl
    | returned raw =>
      simp only
      split <;> rfl

/-- This is the request for the resource, in whatever pieces it is sent. -/
theorem sent_clientGet {client : ClientEnv} (hclient : client.Succeeds)
    {resource : List UInt8} (hresource : Nameable resource) (socket : ByteSource UInt8) :
    (handleConnectionHttp client resource socket).sent = (clientGet resource).head := by
  have hlt : (clientGet resource).head.length < 2 ^ 31 := by
    have hshort := hresource.length_lt
    rw [length_clientGet]
    unfold uriSize at hshort
    omega
  obtain ⟨s, hs, hbytes⟩ := serializeHttpRequestHeader_ok hclient.serialize hlt
  have hsent := sendHttpRequest_of_serialize hclient.script (rfl : (clientGet resource).body = none)
    hs
  have hrequest := clientRequest_of_succeeds hclient resource
  rw [handleConnectionHttp_sent hclient hrequest hsent socket, hbytes]

/-- No header found in the request announces a body: not `Host`, and not what a URI with a colon
makes of the request line. -/
private theorem contentLength_clientGet {resource : List UInt8} (hresource : Nameable resource)
    (junk : List UInt8) :
    contentLength (headersOfText junk (clientGet resource).head) = 0 := by
  have hplain := hresource.plain
  have hline := RequestLine.isLine_line hplain.method hplain.uri hplain.version
  have hhost : (bytes "Host" == bytes "Content-Length") = false := by decide
  rw [HTTPMessage.head, headersOfText_headBlock_eq hline hplain.headers, contentLength]
  cases hextra : headerOfLine junk ⟨(clientGet resource).line.line,
      some (10 :: lineBlock ((clientGet resource).headers.map Header.line))⟩ with
  | none => simp [clientGet, findHeaderValue, hhost]
  | some extra =>
    -- its key begins with the method
    have hkey : (extra.key == bytes "Content-Length") = false := by
      rw [beq_eq_false_iff_ne]
      intro heq
      have hhead : extra.key.head? = some 71 := by
        rw [headerOfLine] at hextra
        split at hextra
        · cases hextra
        · cases hextra
        · rw [← Option.some.inj hextra]
          rfl
      rw [heq] at hhead
      exact absurd hhead (by decide)
    simp [clientGet, findHeaderValue, hkey, hhost]

/-- The server receives a request for the resource, and nothing is left of it. -/
theorem receiveHttpRequest_clientGet {mem : ReceiveMemory} (hmem : mem.Succeeds)
    {resource : List UInt8} (hresource : Nameable resource) {socket : ByteSource UInt8}
    (hs : socket.bytes = (clientGet resource).head) :
    ∃ request socket', receiveHttpRequest mem socket =
        ⟨.returned (HTTPMessage.raw request), socket', none⟩ ∧
      request.line.uri = 47 :: resource ∧ socket'.bytes = [] := by
  have hplain := hresource.plain
  -- request line and headers are lines, which fit the arrays and the buffer
  have hline := RequestLine.isLine_line hplain.method hplain.uri hplain.version
  have hlines : ∀ x ∈ (clientGet resource).line.line ::
      (clientGet resource).headers.map Header.line, IsLine x := by
    refine List.forall_mem_cons.mpr ⟨hline, fun x hx => ?_⟩
    obtain ⟨header, hheader, rfl⟩ := List.mem_map.mp hx
    exact (hplain.headers header hheader).isLine
  have hparse := parseRequestLine_line hplain.method hplain.uri hplain.version
    (fitsArrays_three.mpr ⟨hplain.method_lt, hplain.uri_lt, hplain.version_lt⟩)
  have hwire : socket.bytes = lineBlock ((clientGet resource).line.line ::
      (clientGet resource).headers.map Header.line) ++ [] := by
    rw [hs, List.append_nil, HTTPMessage.head, headBlock]
  have hlength : (clientGet resource).head.length ≤ defaultBufferSize := by
    have hshort := hresource.length_lt
    rw [length_clientGet]
    unfold uriSize at hshort
    unfold defaultBufferSize
    omega
  have hend := headerEnd_lineBlock hlines hwire
  have haccepts := accepts_lineBlock hmem.2.1 hlines hparse hwire
  obtain ⟨tok, l, headers, socket', htok, hl, hheaders, hreceive, -, hrest, -, -⟩ :=
    receive_of_accepts hmem.1 hend hlength haccepts
  obtain ⟨t, htext⟩ := headText_lineBlock hlines hwire
  -- the first line of the text is the request line
  have hsame : l = (clientGet resource).line := by
    rw [htext, strtok_lineBlock_cons hline] at htok
    obtain rfl := Option.some.inj htok
    exact ParsedLine.line.inj (hl.symm.trans hparse)
  -- a `GET` announces no body
  have hnone : contentLength headers = 0 := by
    rw [hheaders, htext, List.take_left]
    exact contentLength_clientGet hresource _
  refine ⟨⟨l, headers, none, 0⟩, socket', ?_, ?_, ?_⟩
  · rw [receiveHttpRequest, deserializeHttpRequestHeader, hreceive, receiveBody, hnone]
    rfl
  · rw [hsame]
    rfl
  · rw [hrest]
    apply List.drop_of_length_le
    rw [hs, HTTPMessage.head, headBlock]
    exact le_max_left _ _

/-! ## The passes of the server -/

/-- The bytes that are sent according to the log of a connection. -/
def sentIn (log : List (Turn HTTPRequest (List UInt8))) : List UInt8 :=
  log.flatMap fun
    | .read _ => []
    | .sent wire => wire

/-- The passes over a connection whose client waits for the answer to a path: select reports a
read only while there are bytes, no call of the read handler fails, and the write handler is
shown the site. -/
def Site.Serves (site : Site) (path : List UInt8) (s : HttpConnection) : HttpPass → Prop
  | .read threadResult mem => threadResult = true ∧ mem.Succeeds ∧ s.socket.bytes ≠ []
  | .write env => env.threadResult = true ∧ env.Shows site path
  | .dropped => False

/-- The request for a resource is still on its way. -/
structure HttpConnection.Asked (s : HttpConnection) (resource : List UInt8) : Prop where
  isOpen : s.isOpen = true
  request : s.data.request = none
  socket : s.socket.bytes = (clientGet resource).head
  sent : sentIn s.log = []

/-- It is in the record of its client. -/
structure HttpConnection.Taken (s : HttpConnection) (resource : List UInt8) : Prop where
  isOpen : s.isOpen = true
  request : ∃ request, s.data.request = some request ∧ request.line.uri = 47 :: resource
  socket : s.socket.bytes = []
  sent : sentIn s.log = []

/-- The answer is on its way back. -/
structure HttpConnection.Answered (s : HttpConnection) (answer : Answer) : Prop where
  isOpen : s.isOpen = true
  request : s.data.request = none
  socket : s.socket.bytes = []
  sent : answer.Begins (sentIn s.log)

/-- The passes behind the first read. -/
def behindRead : List HttpPass → List HttpPass
  | [] => []
  | .read _ _ :: passes => passes
  | _ :: passes => behindRead passes

section Passes

variable {site : Site} {resource : List UInt8} {s s' : HttpConnection}

/-- A write pass without a request leaves the connection as it is. -/
theorem httpPass_idle (hopen : s.isOpen = true) (hrequest : s.data.request = none)
    {env : WriteEnv} (hresult : env.threadResult = true) :
    httpPass s (.write env) = some s := by
  have hempty : handleClientHttpWrite env (some s.data) =
      ⟨.returned threadResultEmptyRequest s.data, acquired, []⟩ := by
    simp only [handleClientHttpWrite, hresult, if_true, hrequest]
    rfl
  have hkept : s.finish (.returned threadResultEmptyRequest s.data) [] = s := by
    rw [HttpConnection.finish, if_neg (by decide), List.append_nil]
  simp only [httpPass, hopen, if_true, hempty]
  exact congrArg some hkept

/-- The read pass takes the request. -/
theorem HttpConnection.Asked.read (h : s.Asked resource) (hresource : Nameable resource)
    {threadResult : Bool} {mem : ReceiveMemory}
    (hserves : site.Serves (47 :: resource) s (.read threadResult mem))
    (hpass : httpPass s (.read threadResult mem) = some s') : s'.Taken resource := by
  obtain ⟨hresult, hmem, -⟩ := hserves
  obtain ⟨request, socket', hreceive, huri, hrest⟩ :=
    receiveHttpRequest_clientGet hmem hresource h.socket
  have hread : handleClientHttpRead threadResult mem (some s.data) s.socket =
      ⟨.returned threadResultSuccess { s.data with request := some request }, socket'⟩ := by
    simp only [handleClientHttpRead, hresult, if_true, hreceive, HTTPMessage.message_raw]
  simp only [httpPass, h.isOpen, if_true, hread, HttpConnection.finish_success] at hpass
  obtain rfl := Option.some.inj hpass
  refine ⟨rfl, ⟨request, rfl, huri⟩, hrest, ?_⟩
  rw [sentIn, List.flatMap_append, ← sentIn, h.sent]
  rfl

/-- The write pass behind it sends the answer of the site. -/
theorem HttpConnection.Taken.write (h : s.Taken resource)
    (hfits : (site.answer (47 :: resource)).Fits) {env : WriteEnv}
    (hserves : site.Serves (47 :: resource) s (.write env))
    (hpass : httpPass s (.write env) = some s') :
    s'.Answered (site.answer (47 :: resource)) := by
  obtain ⟨request, hrequest, huri⟩ := h.request
  obtain ⟨hresult, hshows⟩ := hserves
  rw [← huri] at hfits hshows ⊢
  obtain ⟨wire, hbegins, houtcome, hsends⟩ :=
    handleClientHttpWrite_answer hrequest hresult hshows hfits
  simp only [httpPass, h.isOpen, if_true, houtcome, hsends, HttpConnection.finish_success]
    at hpass
  obtain rfl := Option.some.inj hpass
  refine ⟨rfl, rfl, h.socket, ?_⟩
  rw [sentIn, List.flatMap_append, ← sentIn, h.sent]
  simpa using hbegins

/-- A read pass is not reported on an empty stream. -/
theorem Site.Serves.env {path : List UInt8} {pass : HttpPass} (h : site.Serves path s pass)
    (hsocket : s.socket.bytes = []) :
    ∃ env, pass = .write env ∧ env.threadResult = true := by
  cases pass with
  | read threadResult mem => exact absurd hsocket h.2.2
  | write env => exact ⟨env, rfl, h.1⟩
  | dropped => exact absurd h id

/-- Behind the answer nothing happens. -/
theorem HttpConnection.Answered.run {answer : Answer} (h : s.Answered answer)
    {passes : List HttpPass} (hserves : Meets httpPass (site.Serves (47 :: resource)) s passes)
    (hrun : run httpPass s passes = some s') : s' = s := by
  induction passes with
  | nil => exact (Option.some.inj hrun).symm
  | cons pass passes ih =>
    obtain ⟨s₁, hpass, hrun⟩ := run_cons_eq_some.mp hrun
    obtain ⟨env, rfl, hresult⟩ := hserves.1.env h.socket
    have hidle := httpPass_idle h.isOpen h.request hresult
    obtain rfl := Option.some.inj (hidle.symm.trans hpass)
    exact ih (hserves.2 s hpass) hrun

/-- Behind the request the next pass answers it. -/
theorem HttpConnection.Taken.run (h : s.Taken resource)
    (hfits : (site.answer (47 :: resource)).Fits) {passes : List HttpPass}
    (hserves : Meets httpPass (site.Serves (47 :: resource)) s passes)
    (hrun : run httpPass s passes = some s') :
    passes = [] ∧ s'.Taken resource ∨
      passes ≠ [] ∧ s'.Answered (site.answer (47 :: resource)) := by
  cases passes with
  | nil =>
    obtain rfl := Option.some.inj hrun
    exact Or.inl ⟨rfl, h⟩
  | cons pass passes =>
    obtain ⟨s₁, hpass, hrest⟩ := run_cons_eq_some.mp hrun
    obtain ⟨env, rfl, -⟩ := hserves.1.env h.socket
    have hanswered := h.write hfits hserves.1 hpass
    obtain rfl := hanswered.run (hserves.2 s₁ hpass) hrest
    exact Or.inr ⟨List.cons_ne_nil _ _, hanswered⟩

/-- A connection waits for its request, and then for the next pass. -/
theorem HttpConnection.Asked.run (h : s.Asked resource) (hresource : Nameable resource)
    (hfits : (site.answer (47 :: resource)).Fits) {passes : List HttpPass}
    (hserves : Meets httpPass (site.Serves (47 :: resource)) s passes)
    (hrun : run httpPass s passes = some s') :
    behindRead passes = [] ∧ (s'.Asked resource ∨ s'.Taken resource) ∨
      behindRead passes ≠ [] ∧ s'.Answered (site.answer (47 :: resource)) := by
  induction passes with
  | nil =>
    obtain rfl := Option.some.inj hrun
    exact Or.inl ⟨rfl, Or.inl h⟩
  | cons pass passes ih =>
    obtain ⟨s₁, hpass, hrest⟩ := run_cons_eq_some.mp hrun
    have hbehind := hserves.2 s₁ hpass
    cases pass with
    | dropped => exact absurd hserves.1 id
    | read threadResult mem =>
      have htaken := h.read hresource hserves.1 hpass
      rcases htaken.run hfits hbehind hrest with ⟨hnil, htaken⟩ | hanswered
      · exact Or.inl ⟨hnil, Or.inr htaken⟩
      · exact Or.inr hanswered
    | write env =>
      have hidle := httpPass_idle h.isOpen h.request hserves.1.1
      obtain rfl := Option.some.inj (hidle.symm.trans hpass)
      exact ih hbehind hrest

end Passes

/-! ## The exchange -/

/-- What the client ends with when the server has sent these bytes. -/
structure ClientGets (client : ClientEnv) (resource : List UInt8) (reply : ByteSource UInt8)
    (answer : Answer) : Prop where
  received : (receiveHttpResponse client.receive reply).outcome = .returned answer.received.raw
  ret : (handleConnectionHttp client resource reply).ret = some 0
  saved : (handleConnectionHttp client resource reply).saved =
    answer.saved client.timestamp resource

theorem clientGets_of_begins {client : ClientEnv} (hclient : client.Succeeds)
    {resource : List UInt8} (hresource : Nameable resource) {reply : ByteSource UInt8}
    {answer : Answer} (htyped : answer.Typed) (hfits : answer.Fits)
    (hbegins : answer.Begins reply.bytes) : ClientGets client resource reply answer := by
  have hreceived := receiveHttpResponse_answer htyped hfits hclient.receive hbegins
  have hsize : resource.length < defaultBufferSize :=
    lt_of_lt_of_le (Nat.lt_of_succ_lt hresource.length_lt) (by decide)
  obtain ⟨hret, hsaved⟩ := handleConnectionHttp_of_returned hclient hsize hreceived
    (saveResponse_answer hfits hclient resource)
  exact ⟨hreceived, hret, hsaved⟩

theorem Answer.Typed.ne_nil_of_begins {answer : Answer} (htyped : answer.Typed)
    {wire : List UInt8} (hbegins : answer.Begins wire) : wire ≠ [] := by
  obtain ⟨extra, rfl⟩ := hbegins
  have hfour := four_le_length_headBlock htyped.plain.isLine answer.served.headers
  intro hnil
  have hlength := congrArg List.length hnil
  rw [List.length_append, List.length_nil] at hlength
  omega

/-- In every run of the server's passes over the connection of a client that has asked for a
resource, the connection stays open, and something is sent exactly if a pass has come behind the
read. Then the client ends with the answer of the site, whatever the segments in which it
arrives. -/
theorem web_exchange (site : Site) {resource : List UInt8} (hresource : Nameable resource)
    (hfits : (site.answer (47 :: resource)).Fits) {client : ClientEnv} (hclient : client.Succeeds)
    (sockfd : Int) {socket reply : ByteSource UInt8} {passes : List HttpPass} {s : HttpConnection}
    (hsocket : socket.bytes = (handleConnectionHttp client resource reply).sent)
    (hserves : Meets httpPass (site.Serves (47 :: resource)) (.accepted sockfd socket) passes)
    (hrun : run httpPass (.accepted sockfd socket) passes = some s)
    (hreply : reply.bytes = sentIn s.log) :
    s.isOpen = true ∧ (sentIn s.log = [] ↔ behindRead passes = []) ∧
      (behindRead passes ≠ [] →
        ClientGets client resource reply (site.answer (47 :: resource))) := by
  rw [sent_clientGet hclient hresource] at hsocket
  have hasked : HttpConnection.Asked (.accepted sockfd socket) resource :=
    ⟨rfl, rfl, hsocket, rfl⟩
  have htyped := site.answer_typed (47 :: resource)
  rcases hasked.run hresource hfits hserves hrun with
    ⟨hnil, hasked | htaken⟩ | ⟨hne, hanswered⟩
  · exact ⟨hasked.isOpen, iff_of_true hasked.sent hnil, fun hne => absurd hnil hne⟩
  · exact ⟨htaken.isOpen, iff_of_true htaken.sent hnil, fun hne => absurd hnil hne⟩
  · have hbegins := hanswered.sent
    refine ⟨hanswered.isOpen, iff_of_false (htyped.ne_nil_of_begins hbegins) hne, fun _ => ?_⟩
    rw [← hreply] at hbegins
    exact clientGets_of_begins hclient hresource htyped hfits hbegins

/-- A site of one file. -/
def noteSite : Site where
  file path := if path = bytes "/a.txt" then some (bytes "hi") else none
  names := [bytes "a.txt"]

/-- A system that shows it; the file is read in two chunks. -/
def noteEnv : WriteEnv :=
  let entries : List DirEntry := [⟨false, bytes "."⟩, ⟨true, bytes "a.txt"⟩]
  { WriteEnv.ideal 5 (bytes "hi") with
    opendir := some (entries, entries)
    reads := [.data (bytes "h"), .data (bytes "i")] }

theorem noteEnv_shows : noteEnv.Shows noteSite (bytes "/a.txt") where
  fullPath := rfl
  sizeStr := rfl
  headers := rfl
  addHeader := fun _ => ⟨rfl, rfl, rfl⟩
  response := rfl
  fileContent := rfl
  body := rfl
  serialize := ⟨rfl, rfl⟩
  script := by simp [noteEnv, WriteEnv.ideal]
  folder := ⟨_, _, rfl, by decide, by decide⟩
  names := by
    rintro first second heq
    obtain ⟨-, rfl⟩ := Prod.mk.inj (Option.some.inj heq)
    decide
  file := ⟨by decide, rfl, by decide⟩

/-- A pass too early, the read, the answer, and a pass too many. -/
theorem web_exchange_note :
    let get := (clientGet (bytes "a.txt")).head
    let socket : ByteSource UInt8 := ⟨[get.take 7, get.drop 7], .closed⟩
    let passes : List HttpPass :=
      [.write noteEnv, .read true .ideal, .write noteEnv, .write noteEnv]
    ∃ s, run httpPass (.accepted 4 socket) passes = some s ∧
      ∀ reply : ByteSource UInt8, reply.bytes = sentIn s.log →
        ClientGets .ideal (bytes "a.txt") reply
          (.content (bytes "text/plain") (bytes "hi")) := by
  intro get socket passes
  have hanswer : noteSite.answer (47 :: bytes "a.txt") =
      .content (bytes "text/plain") (bytes "hi") := by decide +kernel
  have hresource : Nameable (bytes "a.txt") := ⟨by decide, by decide, by decide⟩
  have hsome : (run httpPass (.accepted 4 socket) passes).isSome = true := by decide +kernel
  obtain ⟨s, hs⟩ := Option.isSome_iff_exists.mp hsome
  have hserves : Meets httpPass (noteSite.Serves (47 :: bytes "a.txt")) (.accepted 4 socket)
      passes := by
    have hwrite : noteEnv.threadResult = true ∧ noteEnv.Shows noteSite (47 :: bytes "a.txt") :=
      ⟨rfl, noteEnv_shows⟩
    refine ⟨hwrite, fun s₁ hs₁ => ⟨⟨rfl, ReceiveMemory.ideal_succeeds, ?_⟩, fun _ _ =>
      ⟨hwrite, fun _ _ => ⟨hwrite, fun _ _ => trivial⟩⟩⟩⟩
    obtain rfl := Option.some.inj ((httpPass_idle rfl rfl rfl).symm.trans hs₁)
    decide +kernel
  refine ⟨s, hs, fun reply hreply => ?_⟩
  have hsocket : socket.bytes =
      (handleConnectionHttp .ideal (bytes "a.txt") reply).sent := by
    rw [sent_clientGet ClientEnv.ideal_succeeds hresource]
    simp [socket, get, ByteSource.bytes]
  have hfits : (noteSite.answer (47 :: bytes "a.txt")).Fits := by
    rw [hanswer, Answer.Fits]
    decide
  obtain ⟨-, -, hgets⟩ := web_exchange noteSite hresource hfits ClientEnv.ideal_succeeds 4 hsocket
    hserves hs hreply
  rw [hanswer] at hgets
  exact hgets (List.cons_ne_nil _ _)

end SelectServer
