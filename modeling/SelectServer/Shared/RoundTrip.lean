import SelectServer.Shared.Pipeline

/-!
# Serialising a message and parsing it back

What the deserialisers make of the text of the serialisers. Both parse the first line twice:
for its own fields, and as one of the lines among which the headers are looked for. A
request line with a colon therefore comes back with one header more
(`request_parsed_back_iff`); a status line without one comes back as it was, whatever stands
behind the blank line (`response_parsed_back`).
-/

namespace SelectServer

open CLib

/-! ## Parsing a head block -/

/-- A message with its line and its headers assigned, and no body yet. -/
def RawMessage.ofHead {L : Type} (line : L) (headers : List Header) : RawMessage L :=
  ⟨some line, some (some headers), some headers.length, none, none⟩

/-- The headers found in a head block: the ones it was made of, behind what its first line is
taken for. -/
theorem headersOfText_headBlock_eq {first : List UInt8} {headers : List Header}
    (hfirst : IsLine first) (hw : ∀ x ∈ headers, x.WellFormed) (junk : List UInt8) :
    headersOfText junk (headBlock first headers) =
      (headerOfLine junk ⟨first, some (10 :: lineBlock (headers.map Header.line))⟩).toList ++
        headers := by
  have hline : IsLine [65] := ⟨by simp, by decide, by decide, by decide⟩
  have hlines := headersOfText_headBlock hline (by decide) hw junk
  simp only [headersOfText, headBlock] at hlines ⊢
  rw [tokens_lineBlock_cons hline, List.filterMap_cons,
    headerOfLine_of_notMem (by decide)] at hlines
  rw [tokens_lineBlock_cons hfirst, List.filterMap_cons]
  cases headerOfLine junk ⟨first, some (10 :: lineBlock (headers.map Header.line))⟩ <;>
    simp [hlines]

/-- A line with a colon is taken for a header. -/
theorem headerOfLine_isSome_of_mem {l : List UInt8} (h : 58 ∈ l) (junk : List UInt8)
    (tail : Option (List UInt8)) : (headerOfLine junk ⟨l, tail⟩).isSome := by
  obtain ⟨pre, post, rfl, hpre⟩ := List.eq_append_cons_of_mem h
  simp [headerOfLine, strchr_append_cons hpre]

/-- A text that begins with a head block is parsed to that head. -/
theorem deserialize_headBlock {L : Type} {parseLine : List UInt8 → ParsedLine L}
    {mem : DeserializeMemory} {first : List UInt8} {headers : List Header} {l : L}
    (hmem : mem.Succeeds) (hfirst : IsLine first) (hw : ∀ x ∈ headers, x.WellFormed)
    (hparse : parseLine first = .line l) (t : List UInt8) :
    deserializeHttpHeader parseLine mem (headBlock first headers ++ t) =
      .returned (.ofHead l (headersOfText mem.headers.junk (headBlock first headers))) := by
  obtain ⟨h1, h2, h3, h4⟩ := hmem
  have hstrtok := strtok_lineBlock_cons hfirst (headers.map Header.line) t
  have hstrstr := strstr_headBlock_append hfirst hw t
  have hacc : AcceptsHead parseLine mem (headBlock first headers ++ t) := by
    refine ⟨⟨h1, h2, h3⟩, ⟨_, l, hstrtok, hparse⟩, ⟨_, hstrstr, ?_⟩⟩
    rw [deserializeHeaders_ok h4]
    rfl
  obtain ⟨tok, l', p, htok, hl', hp, hret⟩ := deserialize_of_accepts hacc
  rw [headBlock, hstrtok] at htok
  obtain rfl := Option.some.inj htok
  obtain rfl : l = l' := by simpa [hparse] using hl'
  rw [hstrstr] at hp
  obtain rfl := Option.some.inj hp
  -- the headers are looked for in the text up to the blank line
  have htake : (headBlock first headers ++ t).take ((headBlock first headers).length - 4 + 4) =
      headBlock first headers := by
    rw [Nat.sub_add_cancel (four_le_length_headBlock hfirst headers), List.take_left]
  rw [hret, htake, RawMessage.ofHead]

/-- A text that ends inside its head block is not parsed. -/
theorem deserialize_headBlock_take {L : Type} (parseLine : List UInt8 → ParsedLine L)
    (mem : DeserializeMemory) {first : List UInt8} {headers : List Header}
    (hfirst : IsLine first) (hw : ∀ x ∈ headers, x.WellFormed) {n : Nat}
    (hn : n < (headBlock first headers).length) (message : RawMessage L) :
    deserializeHttpHeader parseLine mem ((headBlock first headers).take n) ≠
      .returned message := by
  have hstrstr := strstr_headBlock_append hfirst hw []
  rw [List.append_nil] at hstrstr
  have hfour := four_le_length_headBlock hfirst headers
  have hnone := strstr_take_of_lt doubleEndLine_ne_nil hstrstr
    (n := n) (by rw [length_doubleEndLine]; omega)
  have hrejects : ¬ AcceptsHead parseLine mem ((headBlock first headers).take n) := by
    intro hacc
    obtain ⟨p, hp, -⟩ := hacc.block
    simp [hnone] at hp
  exact deserialize_ne_returned hrejects message

/-! ## Requests -/

/-- The size that `serialize_http_request_header` computes is the length of the head, as an
`int`. -/
private theorem requestSize_eq (request : HTTPRequest) :
    request.requestSize (headersText request.headers).length = toInt32 request.head.length := by
  have hblank : (bytes " ").length = 1 := by decide
  -- each conversion on the way is absorbed by the last one
  rw [HTTPMessage.requestSize, RequestLine.size, toInt32_add_left, Int.add_assoc,
    toInt32_add_left, HTTPMessage.head_eq]
  congr 1
  simp only [RequestLine.text, List.length_append, hblank]
  push_cast
  ring

/-- The three stores of the serialiser put the parts of a head one behind the other. -/
private theorem holds_fillRequest (request : HTTPRequest) (headers : List UInt8) (block : Block) :
    (request.fillRequest headers block).Holds 0 (request.line.text ++ headers ++ lineEnding) := by
  rw [HTTPMessage.fillRequest]
  generalize request.line.text = line
  have hline : (block.store 0 (line ++ [0])).Holds 0 line :=
    (Block.holds_store_self block 0 (line ++ [0])).left
  have hheaders : ((block.store 0 (line ++ [0])).store line.length (headers ++ [0])).Holds 0
      (line ++ headers) := by
    have hstored := hline.concat (headers ++ [0]) (Nat.zero_add _)
    rw [← List.append_assoc] at hstored
    exact hstored.left
  have hstored := hheaders.concat (lineEnding ++ [0])
    (by rw [Nat.zero_add, List.length_append])
  rw [← List.append_assoc] at hstored
  exact hstored.left

/-- The bytes that `serialize_http_request_header` returns: the head, up to its length as an
`int`. -/
theorem serializeHttpRequestHeader_bytes {mem : SerializeMemory} {request : HTTPRequest}
    {s : Serialized} (hs : serializeHttpRequestHeader mem request = .returned s) :
    s.size = toInt32 request.head.length ∧ 0 ≤ s.size ∧
      s.bytes = request.head.take s.size.toNat := by
  obtain ⟨-, -, hnonneg, rfl⟩ := serializeHttpRequestHeader_eq_returned_iff.mp hs
  rw [requestSize_eq] at hnonneg ⊢
  have hsize := toInt32_le_natCast request.head.length
  generalize toInt32 request.head.length = size at hnonneg hsize ⊢
  refine ⟨rfl, hnonneg, ?_⟩
  have hhold := holds_fillRequest request (headersText request.headers)
    (Block.malloc size.toNat mem.junk)
  rw [← HTTPMessage.head_eq] at hhold
  -- the size is at most the length of what the block holds
  have hle : size.toNat ≤ request.head.length := by omega
  have hread := (hhold.take size.toNat).read
  rwa [List.length_take_of_le hle] at hread

/-- A head that fits an `int` is serialised. -/
theorem serializeHttpRequestHeader_ok {mem : SerializeMemory} (hmem : mem.Succeeds)
    {request : HTTPRequest} (hlt : request.head.length < 2 ^ 31) :
    ∃ s, serializeHttpRequestHeader mem request = .returned s ∧ s.bytes = request.head := by
  have hheaders : (headersText request.headers).length ≤ request.head.length := by
    rw [HTTPMessage.head_eq]
    simp only [List.length_append]
    omega
  have hhead : toInt32 request.head.length = request.head.length :=
    toInt32_eq_self (by omega) (by omega)
  have hnonneg : 0 ≤ request.requestSize (headersText request.headers).length := by
    rw [requestSize_eq, hhead]
    exact Int.natCast_nonneg _
  have hs := serializeHttpRequestHeader_eq_returned_iff.mpr
    ⟨hmem, hheaders.trans_lt hlt, hnonneg, rfl⟩
  obtain ⟨hsize, -, hbytes⟩ := serializeHttpRequestHeader_bytes hs
  rw [hsize, hhead, Int.toNat_natCast, List.take_length] at hbytes
  exact ⟨_, hs, hbytes⟩

/-- A request whose words fit their arrays and can be told apart, and whose headers can be
told apart too. The words may contain a colon. -/
structure HTTPMessage.PlainRequest (r : HTTPRequest) : Prop where
  method : IsWord r.line.method
  uri : IsWord r.line.uri
  version : IsWord r.line.version
  method_lt : r.line.method.length < methodSize
  uri_lt : r.line.uri.length < uriSize
  version_lt : r.line.version.length < versionSize
  headers : ∀ h ∈ r.headers, h.WellFormed

/-- The text of the serialiser is parsed to the same line and the same headers. -/
def RequestParsedBack (out : SerializeMemory) (mem : DeserializeMemory) (request : HTTPRequest) :
    Prop :=
  ∃ s, serializeHttpRequestHeader out request = .returned s ∧
    deserializeHttpRequestHeader mem (cstr s.bytes) =
      .returned (.ofHead request.line request.headers)

section Requests

variable {out : SerializeMemory} {mem : DeserializeMemory} {request : HTTPRequest}

private theorem cstr_head (h : request.PlainRequest) : cstr request.head = request.head := by
  have hline := RequestLine.isLine_line h.method h.uri h.version
  simpa [HTTPMessage.head, cstr] using cstr_headBlock_append hline h.headers []

private theorem deserialize_head (hmem : mem.Succeeds) (h : request.PlainRequest) :
    deserializeHttpRequestHeader mem request.head = .returned (.ofHead request.line
      (headersOfText mem.headers.junk (headBlock request.line.line request.headers))) := by
  have hline := RequestLine.isLine_line h.method h.uri h.version
  have hparse := parseRequestLine_line h.method h.uri h.version
    (fitsArrays_three.mpr ⟨h.method_lt, h.uri_lt, h.version_lt⟩)
  simpa [HTTPMessage.head, deserializeHttpRequestHeader] using
    deserialize_headBlock hmem hline h.headers hparse []

/-- A request is parsed back exactly when its request line has no colon and its text is
shorter than `2 ^ 31` bytes. -/
theorem request_parsed_back_iff (hout : out.Succeeds) (hmem : mem.Succeeds)
    (h : request.PlainRequest) :
    RequestParsedBack out mem request ↔
      58 ∉ request.line.line ∧ request.head.length < 2 ^ 31 := by
  have hline := RequestLine.isLine_line h.method h.uri h.version
  constructor
  · rintro ⟨s, hs, hret⟩
    obtain ⟨hsize, hnonneg, hbytes⟩ := serializeHttpRequestHeader_bytes hs
    rw [hbytes, cstr_take, cstr_head h] at hret
    have hlt : request.head.length < 2 ^ 31 := by
      by_contra hge
      -- the size has wrapped around, so the text ends inside the head
      have := (toInt32_bounds request.head.length).2
      exact deserialize_headBlock_take parseRequestLine mem hline h.headers
        (by rw [← HTTPMessage.head]; omega) _ hret
    refine ⟨fun hcolon => ?_, hlt⟩
    rw [hsize, toInt32_eq_self (by omega) (by omega), Int.toNat_natCast, List.take_length,
      deserialize_head hmem h, headersOfText_headBlock_eq hline h.headers] at hret
    obtain ⟨extra, hextra⟩ := Option.isSome_iff_exists.mp
      (headerOfLine_isSome_of_mem hcolon mem.headers.junk
        (some (10 :: lineBlock (request.headers.map Header.line))))
    rw [hextra] at hret
    simp [RawMessage.ofHead] at hret
  · rintro ⟨hcolon, hlt⟩
    obtain ⟨s, hs, hbytes⟩ := serializeHttpRequestHeader_ok hout hlt
    refine ⟨s, hs, ?_⟩
    rw [hbytes, cstr_head h, deserialize_head hmem h,
      headersOfText_headBlock hline hcolon h.headers]

end Requests

/-- A URI with a colon. -/
def colonRequest : HTTPRequest :=
  ⟨⟨bytes "GET", bytes "/a:b", bytes "HTTP/1.1"⟩, [], none, 0⟩

theorem colonRequest_plain : colonRequest.PlainRequest where
  method := ⟨by decide, by decide, by decide⟩
  uri := ⟨by decide, by decide, by decide⟩
  version := ⟨by decide, by decide, by decide⟩
  method_lt := by decide
  uri_lt := by decide
  version_lt := by decide
  headers := by simp [colonRequest]

/-- A URI without a colon. -/
def plainRequest : HTTPRequest :=
  ⟨⟨bytes "GET", bytes "/a.txt", bytes "HTTP/1.1"⟩, [⟨bytes "Host", bytes "a:b"⟩], none, 0⟩

theorem plainRequest_plain : plainRequest.PlainRequest where
  method := ⟨by decide, by decide, by decide⟩
  uri := ⟨by decide, by decide, by decide⟩
  version := ⟨by decide, by decide, by decide⟩
  method_lt := by decide
  uri_lt := by decide
  version_lt := by decide
  headers := by
    intro h hh
    obtain rfl := List.mem_singleton.mp hh
    exact ⟨by decide, by decide⟩

theorem plainRequest_parsed_back :
    RequestParsedBack (.filled 0) ReceiveMemory.ideal.message plainRequest :=
  (request_parsed_back_iff (SerializeMemory.filled_succeeds 0) ReceiveMemory.ideal_succeeds.2.1
    plainRequest_plain).mpr ⟨by decide, by decide⟩

/-- The request line of `GET /a:b HTTP/1.1` comes back as a header. -/
theorem colonRequest_not_parsed_back :
    colonRequest.PlainRequest ∧
      deserializeHttpRequestHeader ReceiveMemory.ideal.message colonRequest.head =
        .returned (.ofHead colonRequest.line [⟨bytes "GET /a", bytes " HTTP/1.1"⟩]) ∧
      ¬ RequestParsedBack (.filled 0) ReceiveMemory.ideal.message colonRequest := by
  refine ⟨colonRequest_plain, by decide, ?_⟩
  rintro ⟨s, hs, hret⟩
  have hlt : colonRequest.head.length < 2 ^ 31 := by decide
  obtain ⟨s', hs', hbytes⟩ := serializeHttpRequestHeader_ok (SerializeMemory.filled_succeeds 0) hlt
  obtain rfl := Outcome.returned.inj (hs.symm.trans hs')
  rw [hbytes] at hret
  exact absurd hret (by decide)

/-! ## Responses -/

/-- The status line without its line ending. -/
def ResponseLine.line (l : ResponseLine) : List UInt8 :=
  l.version ++ 32 :: (formatInt l.statusCode ++ 32 :: l.reasonPhrase)

theorem ResponseLine.text_eq_line (l : ResponseLine) : l.text = l.line ++ lineEnding := by
  have hblank : bytes " " = [32] := by decide
  simp [ResponseLine.text, ResponseLine.line, hblank]

/-- A response whose status line has no colon and whose fields fit their arrays. -/
structure HTTPMessage.PlainResponse (r : HTTPResponse) : Prop where
  version : IsWord r.line.version
  version_colon : 58 ∉ r.line.version
  version_lt : r.line.version.length < versionSize
  statusCode_ge : 100 ≤ r.line.statusCode
  statusCode_le : r.line.statusCode ≤ 999
  reason : ∀ c ∈ r.line.reasonPhrase, c ≠ 58 ∧ c ≠ 13 ∧ c ≠ 10 ∧ c ≠ 0
  reason_lt : r.line.reasonPhrase.length < reasonPhraseSize
  headers : ∀ h ∈ r.headers, h.WellFormed
  bodyLength : ∀ b, r.body = some b → r.bodyLength = b.length

section Responses

variable {response : HTTPResponse} (h : response.PlainResponse)
include h

private theorem statusCode_eq : ∃ n : Nat, response.line.statusCode = n ∧ n < 10 ^ 3 ∧
    formatInt response.line.statusCode = decimal n := by
  obtain ⟨n, hn⟩ := Int.eq_ofNat_of_zero_le
    (le_trans (by norm_num) h.statusCode_ge : 0 ≤ response.line.statusCode)
  have hle := h.statusCode_le
  exact ⟨n, hn, by omega, by rw [hn, formatInt_natCast]⟩

private theorem notMem_statusLine {d : UInt8} (hversion : d ∉ response.line.version)
    (hreason : d ∉ response.line.reasonPhrase) (hblank : d ≠ 32) (hdigit : isdigit d = false) :
    d ∉ response.line.line := by
  obtain ⟨n, -, -, hcode⟩ := statusCode_eq h
  simp only [ResponseLine.line, hcode, List.mem_append, List.mem_cons, not_or]
  refine ⟨hversion, hblank, fun hm => ?_, hblank, hreason⟩
  rw [isdigit_of_mem_decimal hm] at hdigit
  exact absurd hdigit (by decide)

theorem HTTPMessage.PlainResponse.isLine : IsLine response.line.line := by
  have hv := h.version.isLine
  refine ⟨by simp [ResponseLine.line], ?_, ?_, ?_⟩
  · exact notMem_statusLine h hv.no_cr (fun hm => (h.reason _ hm).2.1 rfl) (by decide) (by decide)
  · exact notMem_statusLine h hv.no_lf (fun hm => (h.reason _ hm).2.2.1 rfl) (by decide)
      (by decide)
  · exact notMem_statusLine h hv.no_nul (fun hm => (h.reason _ hm).2.2.2 rfl) (by decide)
      (by decide)

theorem HTTPMessage.PlainResponse.no_colon : 58 ∉ response.line.line :=
  notMem_statusLine h h.version_colon (fun hm => (h.reason _ hm).1 rfl) (by decide) (by decide)

/-- The status line is parsed back: the version and the code by `sscanf`, the reason phrase as
what stands behind the second blank. -/
theorem parseResponseLine_line :
    parseResponseLine response.line.line = .line response.line := by
  obtain ⟨n, hn, hlt, hcode⟩ := statusCode_eq h
  obtain ⟨c, cs, hc⟩ := List.exists_cons_of_ne_nil h.version.ne_nil
  have hspace := h.version.no_space
  have hdrop : response.line.line.dropWhile isspace = response.line.line := by
    have : isspace c = false := hspace c (by simp [hc])
    simp [ResponseLine.line, hc, this]
  have htake : response.line.line.takeWhile (! isspace ·) = response.line.version := by
    rw [ResponseLine.line, List.takeWhile_append_of_pos (by simpa using hspace)]
    simp [isspace]
  have hrest : response.line.line.dropWhile (! isspace ·) =
      32 :: (decimal n ++ 32 :: response.line.reasonPhrase) := by
    rw [ResponseLine.line, List.dropWhile_append_of_pos (by simpa using hspace), hcode]
    simp [isspace]
  have hscan : scanStatus response.line.line = some (response.line.version, (n : Int)) := by
    have hcons : response.line.line = c :: (cs ++ 32 :: (decimal n ++
        32 :: response.line.reasonPhrase)) := by
      simp [ResponseLine.line, hc, hcode]
    rw [scanStatus, hdrop]
    nth_rewrite 1 [hcons]
    simp only
    rw [← hcons, hrest, htake, scanInt_skip, scanInt_decimal (by omega)]
    rfl
  -- neither the version nor the code contains a blank
  have hblank1 : 32 ∉ response.line.version := fun hm => by
    simpa [isspace] using hspace _ hm
  have hblank2 : 32 ∉ decimal n := fun hm => by
    simpa [isdigit] using isdigit_of_mem_decimal hm
  have hreason : ((strchr 32 response.line.line).bind fun reasonStart =>
      strchr 32 (reasonStart.drop 1)) = some (32 :: response.line.reasonPhrase) := by
    rw [ResponseLine.line, strchr_append_cons hblank1, Option.bind_some, List.drop_one,
      List.tail_cons, hcode, strchr_append_cons hblank2]
  have hversion : ∀ version ∈ scanWords 1 response.line.line, version.length < versionSize := by
    rw [ResponseLine.line, scanWords_word h.version.ne_nil hspace]
    intro version hmem
    obtain rfl := List.mem_singleton.mp hmem
    exact h.version_lt
  rw [parseResponseLine, if_pos hversion, hscan]
  simp only [hreason]
  rw [List.drop_one, List.tail_cons, if_pos h.reason_lt, ← hn]

end Responses

/-- The head of a response: status line, headers and blank line. -/
def HTTPMessage.responseHead (r : HTTPResponse) : List UInt8 :=
  r.line.text ++ headersText r.headers ++ lineEnding

/-- What the serialiser writes stays inside the buffers it allocates: the one that
`serialize_headers` fills with `strcat`, and its own. -/
def StaysInBuffers (response : HTTPResponse) (s : Serialized) : Prop :=
  ((headersText response.headers).length : Int) ≤ headersSize response.headers ∧
    s.block.InBounds

section Serialise

variable {mem : SerializeMemory} {response : HTTPResponse} (h : response.PlainResponse)
include h

/-- The length that is assigned to a body is its own. -/
theorem HTTPMessage.PlainResponse.copied_eq : response.copied = response.content := by
  cases hb : response.body with
  | none => simp [HTTPMessage.copied, HTTPMessage.content, hb]
  | some body => simp [HTTPMessage.copied, HTTPMessage.content, hb, h.bodyLength body hb]

/-- The bytes of a response that is serialised inside its buffers: head, body, and what the
block holds behind them. -/
theorem serializeHttpResponse_head {s : Serialized}
    (hs : serializeHttpResponse mem response = .returned s) (hfits : StaysInBuffers response s) :
    ∃ extra, s.bytes = response.responseHead ++ response.content ++ extra := by
  have hbounds := hfits.2
  obtain ⟨-, -, -, -, rfl⟩ := serializeHttpResponse_eq_returned_iff.mp hs
  have hparts : response.responseHead ++ response.content = response.line.text ++
      headersText response.headers ++ lineEnding ++ response.copied := by
    rw [HTTPMessage.responseHead, h.copied_eq]
  rw [hparts]
  simp only [HTTPMessage.fillResponse, HTTPMessage.copied] at hbounds ⊢
  -- the last store ends inside the block, so the block holds all the parts
  cases hb : response.body with
  | none =>
    simp only [hb] at hbounds
    rw [List.append_nil]
    exact ⟨_, (holds_responseHead _ _ _).read_eq_append
      ((inBounds_responseHead _ _ _ _).mp hbounds)⟩
  | some body =>
    simp only [hb] at hbounds
    exact ⟨_, (holds_responseParts _ _ _ _).read_eq_append
      ((inBounds_responseParts _ _ _ _ _).mp hbounds)⟩

private theorem length_text_le :
    response.line.text.length + 1 ≤
      response.line.version.length + 4 + response.line.reasonPhrase.length + 4 := by
  obtain ⟨n, -, hlt, hcode⟩ := statusCode_eq h
  have hdigits := length_decimal_le (by norm_num) hlt
  have hblank : (bytes " ").length = 1 := by decide
  have hend : lineEnding.length = 2 := by decide
  simp only [ResponseLine.text, hcode, List.length_append, hblank, hend]
  omega

/-- A response whose size fits an `int` is serialised, inside its buffers. -/
theorem serializeHttpResponse_ok (hmem : mem.Succeeds)
    (hlt : response.sizeWithBody response.content.length < 2 ^ 31) :
    ∃ s, serializeHttpResponse mem response = .returned s ∧ StaysInBuffers response s := by
  have htext := length_text_le h
  have hend : lineEnding.length = 2 := by decide
  have hlength : response.body.isSome → response.bodyLength = response.copied.length := by
    intro hsome
    obtain ⟨body, hb⟩ := Option.isSome_iff_exists.mp hsome
    rw [h.copied_eq, h.bodyLength body hb]
    simp [HTTPMessage.content, hb]
  obtain ⟨s, hs, -, -, -, hbounds⟩ := serializeHttpResponse_spec hmem hlength (h.copied_eq ▸ hlt)
  refine ⟨s, hs, ?_, hbounds.mpr ?_⟩
  · unfold HTTPMessage.sizeWithBody at hlt
    exact (headersSize_eq (by omega)).ge
  · simp only [HTTPMessage.sizeWithBody, List.length_append, hend]
    omega

end Serialise

/-- A reason phrase with a blank, a header with an empty key and a colon in its value, and a
body with a NUL and a blank line. -/
def notFoundResponse : HTTPResponse :=
  ⟨⟨bytes "HTTP/1.1", 404, bytes "Not Found"⟩, [⟨[], bytes "a: b"⟩, ⟨bytes "Empty", []⟩],
    some (0 :: doubleEndLine), 5⟩

theorem notFoundResponse_plain : notFoundResponse.PlainResponse where
  version := ⟨by decide, by decide, by decide⟩
  version_colon := by decide
  version_lt := by decide
  statusCode_ge := by decide
  statusCode_le := by decide
  reason := by decide
  reason_lt := by decide
  headers := by
    intro h hh
    rcases List.mem_pair.mp hh with rfl | rfl
    · exact ⟨by decide, by decide⟩
    · exact ⟨by decide, by decide⟩
  bodyLength := by
    intro b hb
    obtain rfl := Option.some.inj hb
    rfl

end SelectServer
