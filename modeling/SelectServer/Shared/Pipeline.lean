import SelectServer.Shared.WellFormed

/-!
# Requests one after the other on one connection

`receive_http_request` is called repeatedly on the bytes of a list of requests. Every call
returns its request as long as the read that completes its header block takes nothing of
the request behind it; what that read takes beyond the body is lost to the next call.
-/

namespace SelectServer

open CLib

/-! ## Well-formed requests -/

/-- A word that `sscanf` reads back: not empty, no white space, no NUL. -/
structure IsWord (w : List UInt8) : Prop where
  ne_nil : w ≠ []
  no_space : ∀ c ∈ w, isspace c = false
  no_nul : 0 ∉ w

/-- A word of a request line: not empty, no white space, NUL or colon. -/
structure IsToken (w : List UInt8) : Prop where
  ne_nil : w ≠ []
  no_space : ∀ c ∈ w, isspace c = false
  no_nul : 0 ∉ w
  no_colon : 58 ∉ w

/-- The request line without its line ending. -/
def RequestLine.line (l : RequestLine) : List UInt8 :=
  l.method ++ 32 :: (l.uri ++ 32 :: l.version)

/-- The body of a message as bytes; a NULL body has none. -/
def HTTPMessage.content {L : Type} (m : HTTPMessage L) : List UInt8 := m.body.getD []

/-- The head of a request: request line, headers and blank line. -/
def HTTPMessage.head (r : HTTPRequest) : List UInt8 := headBlock r.line.line r.headers

/-- The bytes of a request on the connection. -/
def HTTPMessage.wire (r : HTTPRequest) : List UInt8 := r.head ++ r.content

/-- A request line without colon, well-formed headers, a header block shorter than the
buffer, and a body of exactly `Content-Length` bytes. -/
structure HTTPMessage.WellFormed (r : HTTPRequest) : Prop where
  method : IsToken r.line.method
  uri : IsToken r.line.uri
  version : IsToken r.line.version
  headers : ∀ h ∈ r.headers, h.WellFormed
  head_lt : r.head.length < defaultBufferSize
  content : match findHeaderValue r.headers (bytes "Content-Length") with
    | none => r.content = []
    | some v => v ≠ [] ∧ (∀ c ∈ v, isdigit c = true) ∧ digitsValue v = r.content.length
  body : r.body ≠ some []
  bodyLength : r.bodyLength = r.content.length

/-- The words of the request line fit the arrays that `sscanf` fills, and the block of the
body has a size that fits `int`. -/
structure HTTPMessage.FitsBuffers (r : HTTPRequest) : Prop where
  method : r.line.method.length < methodSize
  uri : r.line.uri.length < uriSize
  version : r.line.version.length < versionSize
  content : r.content.length + 1 < 2 ^ 31

theorem IsToken.isWord {w : List UInt8} (h : IsToken w) : IsWord w :=
  ⟨h.ne_nil, h.no_space, h.no_nul⟩

theorem IsWord.isLine {w : List UInt8} (h : IsWord w) : IsLine w := by
  refine ⟨h.ne_nil, fun hm => ?_, fun hm => ?_, h.no_nul⟩
  · simpa [isspace] using h.no_space _ hm
  · simpa [isspace] using h.no_space _ hm

/-- The text of the request line is what `sprintf` writes without the line ending. -/
theorem RequestLine.text_eq_line (l : RequestLine) : l.text = l.line ++ lineEnding := by
  have hblank : bytes " " = [32] := by decide
  simp [RequestLine.text, RequestLine.line, hblank]

/-- The head on the connection is the text `serialize_http_request_header` builds. -/
theorem HTTPMessage.head_eq (r : HTTPRequest) :
    r.head = r.line.text ++ headersText r.headers ++ lineEnding := by
  rw [HTTPMessage.head, headBlock_eq, RequestLine.text_eq_line]

/-- Three words make a line. -/
theorem RequestLine.isLine_line {l : RequestLine} (hm : IsWord l.method) (hu : IsWord l.uri)
    (hv : IsWord l.version) : IsLine l.line := by
  have hm := hm.isLine
  have hu := hu.isLine
  have hv := hv.isLine
  refine ⟨by simp [RequestLine.line], ?_, ?_, ?_⟩ <;>
    simp only [RequestLine.line, List.mem_append, List.mem_cons, not_or]
  · exact ⟨hm.no_cr, by decide, hu.no_cr, by decide, hv.no_cr⟩
  · exact ⟨hm.no_lf, by decide, hu.no_lf, by decide, hv.no_lf⟩
  · exact ⟨hm.no_nul, by decide, hu.no_nul, by decide, hv.no_nul⟩

/-- The three words are read back from the request line. -/
theorem parseRequestLine_line {l : RequestLine} (hm : IsWord l.method) (hu : IsWord l.uri)
    (hv : IsWord l.version) (hfits : FitsArrays [l.method, l.uri, l.version]) :
    parseRequestLine l.line = .line l := by
  have hwords : scanWords 3 l.line = [l.method, l.uri, l.version] := by
    rw [RequestLine.line, scanWords_word hm.ne_nil hm.no_space, scanWords_skip,
      scanWords_word hu.ne_nil hu.no_space, scanWords_skip, scanWords_last hv.ne_nil hv.no_space]
  simp [parseRequestLine, hwords, hfits]

section WellFormed

variable {r : HTTPRequest} (h : r.WellFormed)
include h

theorem HTTPMessage.WellFormed.isLine : IsLine r.line.line :=
  RequestLine.isLine_line h.method.isWord h.uri.isWord h.version.isWord

theorem HTTPMessage.WellFormed.no_colon : 58 ∉ r.line.line := by
  simp only [RequestLine.line, List.mem_append, List.mem_cons, not_or]
  exact ⟨h.method.no_colon, by decide, h.uri.no_colon, by decide, h.version.no_colon⟩

/-- The announced length is the length of the body, where it fits `int`. -/
theorem HTTPMessage.WellFormed.contentLength_eq (hlt : r.content.length < 2 ^ 31) :
    contentLength r.headers = r.content.length := by
  have hc := h.content
  cases hv : findHeaderValue r.headers (bytes "Content-Length") with
  | none =>
    simp only [hv] at hc
    simp [contentLength, hv, hc]
  | some v =>
    simp only [hv] at hc
    obtain ⟨hne, hdigits, hval⟩ := hc
    have hread := strtol_digits (t := []) hne hdigits (by simp)
    rw [List.append_nil, hval, clampLong_eq_self (by omega) (by omega)] at hread
    simp only [contentLength, hv]
    rw [atoi, hread, toInt32_eq_self (by omega) (by omega)]

theorem HTTPMessage.WellFormed.body_eq :
    r.body = if r.content.length = 0 then none else some r.content := by
  cases hb : r.body with
  | none => simp [HTTPMessage.content, hb]
  | some b =>
    have hne : b ≠ [] := fun he => h.body (he ▸ hb)
    simp [HTTPMessage.content, hb, hne]

end WellFormed

/-! ## A run of calls -/

/-- `receive_http_request` called repeatedly on one connection, once for each memory. -/
def receiveRequests : List ReceiveMemory → ByteSource UInt8 →
    List (Outcome (RawMessage RequestLine)) × ByteSource UInt8
  | [], socket => ([], socket)
  | mem :: mems, socket =>
    let r := receiveHttpRequest mem socket
    let rest := receiveRequests mems r.socket
    (r.outcome :: rest.1, rest.2)

/-- The calls return exactly these requests, in order. -/
def ReturnsExactly (mems : List ReceiveMemory) (socket : ByteSource UInt8)
    (requests : List HTTPRequest) : Prop :=
  (receiveRequests mems socket).1 = requests.map fun r => .returned r.raw

/-- The read that completes the header block of `r` ends within `r`. -/
def ReadStaysWithin (r : HTTPRequest) (socket : ByteSource UInt8) : Prop :=
  arrived socket r.head.length ≤ r.wire.length

instance (r : HTTPRequest) (socket : ByteSource UInt8) : Decidable (ReadStaysWithin r socket) :=
  inferInstanceAs (Decidable (_ ≤ _))

/-- In every state the calls go through, the allocations of the call succeed, its request
fits the buffers, and the read of its header block ends within the request. -/
def StaysWithin : List ReceiveMemory → ByteSource UInt8 → List HTTPRequest → Prop
  | mem :: mems, socket, r :: requests =>
    (mem.Succeeds ∧ r.FitsBuffers ∧ ReadStaysWithin r socket) ∧
      StaysWithin mems (receiveHttpRequest mem socket).socket requests
  | _, _, _ => True

/-- One call: the request at the front of the stream is returned, and the stream goes on
behind it. -/
theorem receive_request {mem : ReceiveMemory} {socket : ByteSource UInt8} {r : HTTPRequest}
    {t : List UInt8} (hwf : r.WellFormed) (hs : socket.bytes = r.wire ++ t)
    (hmem : mem.Succeeds) (hfits : r.FitsBuffers) (hstays : ReadStaysWithin r socket) :
    (receiveHttpRequest mem socket).outcome = .returned r.raw ∧
      (receiveHttpRequest mem socket).socket.bytes = t := by
  have hlt := hfits.content
  -- behind the head stands the body, and then the requests that follow
  have hs' : socket.bytes = headBlock r.line.line r.headers ++ (r.content ++ t) := by
    rw [hs, HTTPMessage.wire, HTTPMessage.head, List.append_assoc]
  obtain ⟨hout, hbytes, -⟩ := receive_headBlock hmem hwf.isLine hwf.no_colon hwf.headers
    (parseRequestLine_line hwf.method.isWord hwf.uri.isWord hwf.version.isWord
      (fitsArrays_three.mpr ⟨hfits.method, hfits.uri, hfits.version⟩)) hs' hwf.head_lt.le
    (hwf.contentLength_eq (by omega)) hlt (by simp)
  refine ⟨?_, ?_⟩
  · rw [receiveHttpRequest, deserializeHttpRequestHeader, hout, List.take_left,
      ← hwf.body_eq, ← hwf.bodyLength]
  · -- the read ended within the body, so what is consumed is exactly the request
    have hwithin : arrived socket r.head.length - r.head.length ≤ r.content.length := by
      unfold ReadStaysWithin HTTPMessage.wire at hstays
      rw [List.length_append] at hstays
      omega
    rw [receiveHttpRequest, deserializeHttpRequestHeader, hbytes]
    rw [HTTPMessage.head] at hwithin
    rw [Nat.max_eq_right hwithin, List.drop_left]

/-- In every run whose reads stay within their requests, the calls return the requests in
order and unaltered, whatever the segmentation. -/
theorem receiveRequests_of_staysWithin (requests : List HTTPRequest)
    (mems : List ReceiveMemory) (socket : ByteSource UInt8) (rest : List UInt8)
    (hwf : ∀ r ∈ requests, r.WellFormed)
    (hs : socket.bytes = requests.flatMap HTTPMessage.wire ++ rest)
    (hcalls : mems.length = requests.length) (hstays : StaysWithin mems socket requests) :
    ReturnsExactly mems socket requests ∧ (receiveRequests mems socket).2.bytes = rest := by
  induction requests generalizing mems socket with
  | nil =>
    obtain rfl := List.length_eq_zero_iff.mp hcalls
    exact ⟨rfl, by simpa [receiveRequests] using hs⟩
  | cons r requests ih =>
    cases mems with
    | nil => simp at hcalls
    | cons mem mems =>
      -- the first call leaves the stream where the remaining requests begin
      obtain ⟨⟨hmem, hfits, hread⟩, hstays⟩ := hstays
      obtain ⟨hout, hbytes⟩ := receive_request (hwf r List.mem_cons_self)
        (by simpa [List.append_assoc] using hs) hmem hfits hread
      obtain ⟨hreturns, hrest⟩ := ih mems _ (fun x hx => hwf x (List.mem_cons_of_mem _ hx))
        hbytes (by simpa using hcalls) hstays
      unfold ReturnsExactly at hreturns ⊢
      simp only [receiveRequests, hout, hreturns, List.map_cons]
      exact ⟨trivial, hrest⟩

/-- A request without headers and body. -/
def bareRequest : HTTPRequest :=
  ⟨⟨bytes "GET", bytes "/", bytes "HTTP/1.1"⟩, [], none, 0⟩

theorem bareRequest_wellFormed : bareRequest.WellFormed where
  method := ⟨by decide, by decide, by decide, by decide⟩
  uri := ⟨by decide, by decide, by decide, by decide⟩
  version := ⟨by decide, by decide, by decide, by decide⟩
  headers := by simp [bareRequest]
  head_lt := by decide
  content := rfl
  body := by decide
  bodyLength := by decide

theorem bareRequest_fitsBuffers : bareRequest.FitsBuffers :=
  ⟨by decide, by decide, by decide, by decide⟩

/-- Two requests whose segments end with them are both returned. -/
theorem receiveRequests_two_segments :
    ReturnsExactly [.ideal, .ideal] ⟨[bareRequest.wire, bareRequest.wire], .closed⟩
        [bareRequest, bareRequest] ∧
      (receiveRequests [.ideal, .ideal]
        ⟨[bareRequest.wire, bareRequest.wire], .closed⟩).2.bytes = [] :=
  receiveRequests_of_staysWithin [bareRequest, bareRequest] [.ideal, .ideal]
    ⟨[bareRequest.wire, bareRequest.wire], .closed⟩ []
    (by simp [bareRequest_wellFormed]) (by decide) rfl
    ⟨⟨ReceiveMemory.ideal_succeeds, bareRequest_fitsBuffers, by decide⟩,
      ⟨ReceiveMemory.ideal_succeeds, bareRequest_fitsBuffers, by decide⟩, trivial⟩

/-- Two requests in one segment: the first call takes both and the second returns NULL. -/
theorem receiveRequests_one_segment :
    (∀ r ∈ [bareRequest, bareRequest], r.WellFormed) ∧
      (ByteSource.mk [bareRequest.wire ++ bareRequest.wire] .closed).bytes =
        [bareRequest, bareRequest].flatMap HTTPMessage.wire ∧
      (receiveRequests [.ideal, .ideal]
        ⟨[bareRequest.wire ++ bareRequest.wire], .closed⟩).1 =
          [.returned bareRequest.raw, .null] ∧
      ¬ ReturnsExactly [.ideal, .ideal] ⟨[bareRequest.wire ++ bareRequest.wire], .closed⟩
        [bareRequest, bareRequest] := by
  have hrun : (receiveRequests [.ideal, .ideal]
      ⟨[bareRequest.wire ++ bareRequest.wire], .closed⟩).1 =
        [.returned bareRequest.raw, .null] := by decide
  refine ⟨by simp [bareRequest_wellFormed], by decide, hrun, ?_⟩
  simp [ReturnsExactly, hrun]

end SelectServer
