import SelectServer.Server.HttpWrite
import SelectServer.Shared.WellFormed

/-!
# The response for an existing file

When no call fails, `handle_client_http_write` sends for an existing file a status line,
three headers, the blank line, the content of the file, and one byte more: the size that
`serialize_http_response` computes counts the status code as `sizeof(int)`.
-/

namespace SelectServer

open CLib

/-! ## What is sent -/

/-- The bytes that the effects of a run send on a socket. -/
def sentOn (sockfd : Int) (effects : List Effect) : List UInt8 :=
  effects.flatMap fun
    | .send fd data => if fd = sockfd then data else []
    | _ => []

/-- The system answers for a file: no allocation fails, `path` can be opened, `fstat` reports
the length of `content`, the reads deliver `content` in chunks of any size, and no `send`
fails. -/
structure WriteEnv.Serves (env : WriteEnv) (path content : List UInt8) : Prop where
  threadResult : env.threadResult = true
  fullPath : env.fullPath = true
  sizeStr : env.sizeStr = true
  headers : env.headers = true
  addHeader : ∀ k, (env.addHeader k).Succeeds
  response : env.response = true
  fileContent : env.fileContent = true
  headersBuffer : env.headersBuffer = true
  responseBuffer : env.responseBuffer = true
  openFile : 0 < env.openFile path
  fstat : env.fstat = some content.length
  reads : ∃ chunks : List (List UInt8), env.reads = chunks.map FileRead.data ∧
    chunks.flatten = content
  script : .failed ∉ env.script

theorem WriteEnv.Serves.serialize {env : WriteEnv} {path content : List UInt8}
    (h : env.Serves path content) : env.serialize.Succeeds :=
  ⟨h.headersBuffer, h.responseBuffer⟩

/-! ## Headers and file content -/

theorem getContentType_bounds (extension : List UInt8) :
    (∀ c ∈ getContentType extension, c ≠ 13 ∧ c ≠ 10 ∧ c ≠ 0) ∧
      (getContentType extension).length ≤ 24 := by
  unfold getContentType
  repeat' refine iteInduction (motive := fun t : List UInt8 =>
    (∀ c ∈ t, c ≠ 13 ∧ c ≠ 10 ∧ c ≠ 0) ∧ t.length ≤ 24) (fun _ => ?_) (fun _ => ?_)
  all_goals exact ⟨by decide, by decide⟩

/-- The headers of the response are well-formed, and announce the length. -/
theorem responseHeaders_wellFormed (extension : List UInt8) (n : Nat) :
    ∀ h ∈ responseHeaders (getContentType extension) n, h.WellFormed := by
  intro h hh
  simp only [responseHeaders, List.mem_cons, List.not_mem_nil, or_false] at hh
  have htype : ∀ c ∈ bytes "Content-Type", c ≠ 58 ∧ c ≠ 13 ∧ c ≠ 10 ∧ c ≠ 0 := by decide
  have hlength : ∀ c ∈ bytes "Content-Length", c ≠ 58 ∧ c ≠ 13 ∧ c ≠ 10 ∧ c ≠ 0 := by decide
  rcases hh with rfl | rfl | rfl
  · exact ⟨htype, (getContentType_bounds extension).1⟩
  · refine ⟨hlength, fun c hc => ?_⟩
    rw [formatInt_natCast] at hc
    have hdigit := isdigit_of_mem_decimal hc
    refine ⟨?_, ?_, ?_⟩ <;> rintro rfl <;> simp [isdigit] at hdigit
  · exact ⟨by decide, by decide⟩

theorem contentLength_responseHeaders (contentType : List UInt8) {n : Nat} (h : n < 2 ^ 31) :
    contentLength (responseHeaders contentType n) = n := by
  have hfind : findHeaderValue (responseHeaders contentType n) (bytes "Content-Length") =
      some (decimal n) := by
    rw [← formatInt_natCast]
    have hkey : (bytes "Content-Type" == bytes "Content-Length") = false := by decide
    simp [findHeaderValue, responseHeaders, hkey]
  rw [contentLength, hfind]
  exact atoi_decimal h

theorem length_responseHeaders (extension : List UInt8) {n : Nat} (h : n < 2 ^ 63) :
    (headersText (responseHeaders (getContentType extension) n)).length ≤ 100 := by
  have htype := (getContentType_bounds extension).2
  have hlength : (decimal n).length ≤ 19 := length_decimal_le (by omega) (by omega)
  have h1 : (bytes "Content-Type").length = 12 := by decide
  have h2 : (bytes "Content-Length").length = 14 := by decide
  have h3 : (bytes "Connection").length = 10 := by decide
  have h4 : (bytes "close").length = 5 := by decide
  have hsep : keyValueSeparator.length = 2 := by decide
  have hend : lineEnding.length = 2 := by decide
  simp only [headersText, responseHeaders, List.flatMap_cons, List.flatMap_nil, Header.text,
    List.length_append, List.length_nil, formatInt_natCast, h1, h2, h3, h4, hsep, hend]
  omega

theorem buildHeaders_of_succeeds {env : WriteEnv} (hheaders : env.headers = true)
    (hadd : ∀ k, (env.addHeader k).Succeeds) (contentType : List UInt8) (size : Int) :
    ∃ arr, buildHeaders env contentType size = some arr ∧
      arr.live = some (responseHeaders contentType size) := by
  obtain ⟨arr, hadds, hlive⟩ := addHeaders_of_succeeds hadd
    (responseHeaders contentType size) 0 (createHeaders_wellFormed initialHeaderCount)
    (by simp) (by simp [initialHeaderCount, responseHeaders])
  rw [contents_createHeaders, List.nil_append] at hlive
  exact ⟨arr, by simpa [buildHeaders, hheaders] using hadds, hlive⟩

/-! ## The loop over `read` -/

/-- What the reads deliver, up to the first one that fails. -/
def contentRead : List FileRead → List UInt8
  | [] => []
  | .failed :: _ => []
  | .data bs :: reads => bs ++ contentRead reads

theorem contentRead_data (chunks : List (List UInt8)) :
    contentRead (chunks.map .data) = chunks.flatten := by
  induction chunks with
  | nil => rfl
  | cons bs chunks ih => rw [List.map_cons, contentRead, ih, List.flatten_cons]

theorem readFileLoop_full {size total : Nat} (h : size ≤ total) (reads : List FileRead)
    (block : Block) : readFileLoop size reads total block = .done block := by
  cases reads with
  | nil => rw [readFileLoop, if_neg h.not_gt]
  | cons r reads =>
    cases r with
    | failed => rw [readFileLoop, if_neg h.not_gt]
    | data bs => rw [readFileLoop, if_neg h.not_gt]

/-- The loop puts what `read` delivers one behind the other, as far as the size goes. -/
theorem readFileLoop_done {size : Nat} (reads : List FileRead) (got : List UInt8)
    {block : Block} (hhold : block.Holds 0 got) (hle : got.length ≤ size)
    (hsize : size ≤ (got ++ contentRead reads).length) :
    ∃ block', readFileLoop size reads got.length block = .done block' ∧
      block'.Holds 0 ((got ++ contentRead reads).take size) := by
  induction reads generalizing got block with
  | nil =>
    rw [contentRead, List.append_nil] at hsize ⊢
    exact ⟨block, readFileLoop_full hsize _ _, by rwa [List.take_of_length_le hle]⟩
  | cons r reads ih =>
    rcases hle.lt_or_eq with hlt | rfl
    · cases r with
      | failed =>
        rw [contentRead, List.append_nil] at hsize
        exact absurd hlt hsize.not_gt
      | data bs =>
        rw [contentRead, ← List.append_assoc] at hsize ⊢
        rw [readFileLoop, if_pos hlt]
        have hstored := hhold.concat (bs.take (size - got.length)) (Nat.zero_add _)
        rcases Nat.lt_or_ge (size - got.length) bs.length with hmore | hfits
        · -- the read fills the block
          have hfull : (got ++ bs.take (size - got.length)).length = size := by
            rw [List.length_append, List.length_take]
            omega
          have htake : (got ++ bs ++ contentRead reads).take size =
              got ++ bs.take (size - got.length) := by
            rw [List.append_assoc, List.take_append, List.take_of_length_le hle,
              List.take_append_of_le_length hmore.le]
          rw [htake]
          rw [List.length_append] at hfull
          exact ⟨_, readFileLoop_full hfull.ge _ _, hstored⟩
        · rw [List.take_of_length_le hfits] at hstored ⊢
          obtain ⟨block', hloop, hhold'⟩ :=
            ih (got ++ bs) hstored (by rw [List.length_append]; omega) hsize
          rw [List.length_append] at hloop
          exact ⟨block', hloop, hhold'⟩
    · exact ⟨block, readFileLoop_full le_rfl _ _, by rwa [List.take_left]⟩

/-- With too few bytes a read that fails ends the loop. -/
theorem readFileLoop_failed {size : Nat} {reads : List FileRead} {total : Nat}
    (h : total + (contentRead reads).length < size) (hfails : .failed ∈ reads) (block : Block) :
    ∃ block', readFileLoop size reads total block = .failed block' := by
  induction reads generalizing total block with
  | nil => exact absurd hfails List.not_mem_nil
  | cons r reads ih =>
    have hlt : total < size := by omega
    cases r with
    | failed => exact ⟨block, by rw [readFileLoop, if_pos hlt]⟩
    | data bs =>
      rw [contentRead, List.length_append] at h
      rw [readFileLoop, if_pos hlt]
      apply ih
      · rw [List.length_take]
        omega
      · simpa using hfails

/-- Without one the loop never ends: every further `read` returns 0. -/
theorem readFileLoop_spins {size : Nat} {reads : List FileRead} {total : Nat}
    (h : total + (contentRead reads).length < size) (hfails : .failed ∉ reads) (block : Block) :
    ∃ block', readFileLoop size reads total block = .spins block' := by
  induction reads generalizing total block with
  | nil =>
    rw [contentRead, List.length_nil, Nat.add_zero] at h
    exact ⟨block, by rw [readFileLoop, if_pos h]⟩
  | cons r reads ih =>
    have hlt : total < size := by omega
    cases r with
    | failed => exact absurd List.mem_cons_self hfails
    | data bs =>
      rw [contentRead, List.length_append] at h
      rw [readFileLoop, if_pos hlt]
      apply ih
      · rw [List.length_take]
        omega
      · exact fun hmem => hfails (List.mem_cons_of_mem _ hmem)

/-! ## The response -/

/-- The status line of the response, without its line ending. -/
def okLine : List UInt8 := bytes "HTTP/1.1 200 OK"

theorem okLine_isLine : IsLine okLine :=
  ⟨by decide, by decide, by decide, by decide⟩

/-- The bytes of the response are the head, the content and one byte more. -/
theorem serializeHttpResponse_file {mem : SerializeMemory} (hmem : mem.Succeeds)
    (extension : List UInt8) {content : List UInt8} (hlen : content.length ≤ 2 ^ 31 - 4096) :
    ∃ s extra, extra.length = 1 ∧
      serializeHttpResponse mem ⟨⟨defaultHttpVersion, 200, http200Phrase⟩,
        responseHeaders (getContentType extension) content.length, some content,
        content.length⟩ = .returned s ∧
      s.bytes = headBlock okLine (responseHeaders (getContentType extension) content.length) ++
        (content ++ extra) := by
  have hheaders := length_responseHeaders extension
    (by omega : content.length < 2 ^ 63)
  have hversion : defaultHttpVersion.length = 8 := by decide
  have hphrase : http200Phrase.length = 2 := by decide
  have htext : ResponseLine.text ⟨defaultHttpVersion, 200, http200Phrase⟩ =
      okLine ++ lineEnding := by
    rw [ResponseLine.text, show formatInt 200 = bytes "200" by decide]
    decide
  have hline : okLine.length = 15 := by decide
  let response : HTTPResponse := ⟨⟨defaultHttpVersion, 200, http200Phrase⟩,
    responseHeaders (getContentType extension) content.length, some content, content.length⟩
  -- `body_length` is the length of the content, so all of it is copied
  have hcopied : response.copied = content := by
    simp only [HTTPMessage.copied, response, Int.toNat_natCast, List.take_length]
  have hsize : response.sizeWithBody response.copied.length < 2 ^ 31 := by
    rw [hcopied]
    simp only [HTTPMessage.sizeWithBody, response, hversion, hphrase]
    omega
  obtain ⟨s, hs, hssize, -, hhold, -⟩ :=
    serializeHttpResponse_spec hmem (fun _ => by rw [hcopied]) hsize
  have hlength : (response.line.text ++ headersText response.headers ++ lineEnding ++
      response.copied).length + 1 = response.sizeWithBody response.copied.length := by
    have hend : lineEnding.length = 2 := by decide
    simp only [HTTPMessage.sizeWithBody, List.length_append, response, htext, hline, hend,
      hversion, hphrase]
    omega
  -- the text is what the block holds, and its last byte is never written
  have hread := hhold.read_eq_append (Nat.le.intro hlength)
  generalize hextra : List.drop _ _ = extra at hread
  refine ⟨s, extra, ?_, hs, ?_⟩
  · rw [← hextra, List.length_drop, Block.length_read, ← hlength, Nat.add_sub_cancel_left]
  · rw [Serialized.bytes, hssize, Int.toNat_natCast, hread, hcopied]
    simp only [response, htext, headBlock_eq, List.append_assoc]

/-- The branch for an open file reads all of its content and sends it. -/
theorem serveFile_of_serves {env : WriteEnv} {path content : List UInt8}
    (henv : env.Serves path content) (hlen : content.length < 2 ^ 31) (data : ClientHttpData)
    (extension : List UInt8) (fd : Int) (effects : List Effect) (blocks : List Block) :
    ∃ blocks', serveFile env data extension fd content.length effects blocks =
      sendResponse env data ⟨⟨defaultHttpVersion, 200, http200Phrase⟩,
        responseHeaders (getContentType extension) content.length, some content,
        content.length⟩ (effects ++ [.close fd, .unlock .lockFile]) blocks' := by
  obtain ⟨arr, hbuild, hlive⟩ := buildHeaders_of_succeeds henv.headers henv.addHeader
    (getContentType extension) content.length
  obtain ⟨chunks, hreads, hflat⟩ := henv.reads
  have hread : [] ++ contentRead (chunks.map .data) = content := by
    rw [List.nil_append, contentRead_data, hflat]
  obtain ⟨block, hloop, hhold⟩ := readFileLoop_done (chunks.map .data) []
    (Block.holds_nil (Block.malloc (content.length + 1) env.junk) 0) (Nat.zero_le _)
    (by rw [hread])
  -- the terminator behind the content is not part of the body
  have hbody : (block.store content.length [0]).read content.length = content := by
    rw [hread, List.take_length] at hhold
    exact (hhold.store _ _ (Or.inl (by simp))).read
  have hlength : toInt32 content.length = content.length := toInt32_eq_self (by omega) (by omega)
  have hcreate : createHttpResponse env.response defaultHttpVersion 200 http200Phrase [] none =
      some ⟨⟨defaultHttpVersion, 200, http200Phrase⟩, [], none, 0⟩ := by
    rw [henv.response]
    rfl
  refine ⟨blocks ++ [sizeStrBlock env content.length] ++ [block.store content.length [0]], ?_⟩
  rw [List.length_nil] at hloop
  simp only [serveFile, if_pos henv.sizeStr, if_pos henv.headers, if_pos henv.fileContent, hbuild,
    hcreate, hreads, hloop, hlive, hbody, hlength]

/-- A request for a file that can be opened gets to the branch for an open file. -/
theorem handleClientHttpWrite_eq_serveFile {env : WriteEnv} {data : ClientHttpData}
    {request : HTTPRequest} {content : List UInt8} (hrequest : data.request = some request)
    (hslash : request.line.uri.head? = some 47) (hdot : 46 ∈ request.line.uri)
    (henv : env.Serves (resourcesFolder ++ request.line.uri) content) :
    ∃ extension blocks, handleClientHttpWrite env (some data) =
      serveFile env data extension (env.openFile (resourcesFolder ++ request.line.uri))
        content.length ([.lock .lock, .unlock .lock] ++
          [.lock .lockFile, .openFile (resourcesFolder ++ request.line.uri)]) blocks := by
  have huri : request.line.uri.head? = some 47 ∧ 1 < request.line.uri.length := by
    refine ⟨hslash, ?_⟩
    -- a URI of the slash alone has no dot
    rcases huri : request.line.uri with _ | ⟨c, _ | ⟨d, ds⟩⟩
    · simp [huri] at hslash
    · simp_all
    · simp
  obtain ⟨extension, hext⟩ : ∃ extension, strrchr 46 (resourcesFolder ++ request.line.uri) =
      some extension := by
    refine Option.ne_none_iff_exists'.mp fun hnone => ?_
    simp [strrchr_eq_none_iff, hdot] at hnone
  have hstat : (if 0 < env.openFile (resourcesFolder ++ request.line.uri) then env.fstat else
      none) = some content.length := by
    rw [if_pos henv.openFile, henv.fstat]
  refine ⟨extension, [(Block.malloc (resourcesFolder.length + request.line.uri.length + 1)
    env.junk).store 0 (resourcesFolder ++ request.line.uri ++ [0])], ?_⟩
  simp only [handleClientHttpWrite, if_pos henv.threadResult, hrequest, if_pos huri, respondFile,
    if_pos henv.fullPath, hext, hstat]

/-- The bytes sent for an existing file: the head, the content, and one byte more. -/
theorem handleClientHttpWrite_file {env : WriteEnv} {data : ClientHttpData}
    {request : HTTPRequest} {content : List UInt8} (hrequest : data.request = some request)
    (hslash : request.line.uri.head? = some 47) (hdot : 46 ∈ request.line.uri)
    (henv : env.Serves (resourcesFolder ++ request.line.uri) content)
    (hlen : content.length ≤ 2 ^ 31 - 4096) :
    ∃ extension extra, extra.length = 1 ∧
      (handleClientHttpWrite env (some data)).outcome = .returned threadResultSuccess
        { data with request := none, response := none } ∧
      sentOn data.clientSockfd (handleClientHttpWrite env (some data)).effects =
        headBlock okLine (responseHeaders (getContentType extension) content.length) ++
          (content ++ extra) := by
  obtain ⟨extension, blocks, hrun⟩ :=
    handleClientHttpWrite_eq_serveFile hrequest hslash hdot henv
  obtain ⟨blocks', hserve⟩ := serveFile_of_serves henv (by omega) data extension
    (env.openFile (resourcesFolder ++ request.line.uri))
    ([.lock .lock, .unlock .lock] ++
      [.lock .lockFile, .openFile (resourcesFolder ++ request.line.uri)]) blocks
  obtain ⟨s, extra, hextra, hs, hbytes⟩ := serializeHttpResponse_file henv.serialize extension hlen
  have hsent : sendHttpResponse env.serialize ⟨⟨defaultHttpVersion, 200, http200Phrase⟩,
      responseHeaders (getContentType extension) content.length, some content,
      content.length⟩ env.script = some (0, s.bytes) :=
    sendHttpResponse_of_serialize henv.script hs
  rw [hrun, hserve, sendResponse, hsent]
  refine ⟨extension, extra, hextra, rfl, ?_⟩
  rw [← hbytes]
  simp [sentOn]

end SelectServer
