import SelectServer.Server.Buffers
import SelectServer.Server.HttpTurns
import SelectServer.Server.ResponseEnd

/-!
# The site behind the HTTP write handler

A function that mentions no buffer and no system call says what `handle_client_http_write` is
for: a site answers a path (`Site.answer`). Where the system shows a site to the handler, what
it sends begins with the answer of the site (`handleClientHttpWrite_answer`).
-/

namespace SelectServer

open CLib

/-! ## Sites -/

/-- What the folder of the server holds: the content of the files by path, and the names of its
regular files as the folder lists them. -/
structure Site where
  file : List UInt8 → Option (List UInt8)
  names : List (List UInt8)

/-- What a site says to a path. -/
inductive Answer
  | content (contentType body : List UInt8)
  | badRequest
  | notFound
  deriving DecidableEq, Repr

/-- A path with an extension stands for its file. -/
def Site.fileAnswer (site : Site) (path : List UInt8) : Answer :=
  match strrchr 46 path with
  | none => .badRequest
  | some extension =>
    match site.file path with
    | none => .notFound
    | some content => .content (getContentType extension) content

/-- The slash stands for the list of names, a longer path for a file. -/
def Site.answer (site : Site) (path : List UInt8) : Answer :=
  if path = [47] then .content (bytes "text/plain") (listingText site.names)
  else if path.head? = some 47 then site.fileAnswer path
  else .badRequest

/-- The bytes behind the head. -/
def Answer.body : Answer → List UInt8
  | .content _ body => body
  | _ => []

/-- The response that carries an answer. -/
def Answer.served : Answer → HTTPResponse
  | .content contentType body => ⟨⟨defaultHttpVersion, 200, http200Phrase⟩,
      responseHeaders contentType body.length, some body, body.length⟩
  | .badRequest => statusResponse 400 http400Phrase
  | .notFound => statusResponse 404 http404Phrase

/-- The content type of an answer is one of the table. -/
inductive Answer.Typed : Answer → Prop
  | content (extension body : List UInt8) : Typed (.content (getContentType extension) body)
  | badRequest : Typed .badRequest
  | notFound : Typed .notFound

theorem Site.answer_typed (site : Site) (path : List UInt8) : (site.answer path).Typed := by
  have hplain : getContentType (bytes ".txt") = bytes "text/plain" := by decide
  unfold Site.answer
  split
  · rw [← hplain]
    exact .content _ _
  · split
    · unfold Site.fileAnswer
      split
      · exact .badRequest
      · split
        · exact .notFound
        · exact .content _ _
    · exact .badRequest

/-! ## The system behind the server -/

/-- The system shows a site to the run that answers a path: no allocation and no `send` fails,
both passes over the folder find its names, and the file of the path is opened and read in
chunks of any size, or is missing. -/
structure WriteEnv.Shows (env : WriteEnv) (site : Site) (path : List UInt8) : Prop where
  fullPath : env.fullPath = true
  sizeStr : env.sizeStr = true
  headers : env.headers = true
  addHeader : ∀ k, (env.addHeader k).Succeeds
  response : env.response = true
  fileContent : env.fileContent = true
  body : env.body = true
  serialize : env.serialize.Succeeds
  script : .failed ∉ env.script
  folder : ∃ first second, env.opendir = some (first, second) ∧
    regularNames first = site.names ∧ regularNames second = site.names
  names : env.NamesTerminated
  file : match site.file path with
    | none => env.openFile (resourcesFolder ++ path) < 0
    | some content => 0 < env.openFile (resourcesFolder ++ path) ∧
        env.fstat = some content.length ∧ contentRead env.reads = content

section Shows

variable {env : WriteEnv} {site : Site} {path : List UInt8} (h : env.Shows site path)
include h

private theorem WriteEnv.Shows.copies (k : Nat) : (env.addHeader k).copies = true := by
  obtain ⟨-, hkey, hvalue⟩ := h.addHeader k
  rw [HeaderAlloc.copies, hkey, hvalue]
  rfl

private theorem WriteEnv.Shows.usable : env.HeadersUsable :=
  ⟨h.headers, fun _ => (h.addHeader 1).1⟩

private theorem WriteEnv.Shows.complete : env.HeadersComplete :=
  ⟨fun _ => (h.addHeader 2).1, h.copies 2⟩

/-- All three headers are sent. -/
private theorem WriteEnv.Shows.headersSent (contentType : List UInt8) (size : Int) :
    env.headersSent contentType size = responseHeaders contentType size := by
  simp only [WriteEnv.headersSent, responseHeaders, addedHeaders, h.copies, if_true,
    List.append_nil, List.cons_append, List.nil_append]

/-- The listing has the names of the site, and nothing behind them. -/
private theorem WriteEnv.Shows.responds_listing (hpath : path = [47])
    (hlen : (listingText site.names).length < 2 ^ 31) :
    env.Responds path
      (Answer.content (bytes "text/plain") (listingText site.names)).served := by
  obtain ⟨first, second, hfolder, hfirst, hsecond⟩ := h.folder
  have hbytes : ∀ entries, regularNames entries = site.names →
      listingLength entries = (listingText site.names).length := by
    intro entries hnames
    rw [listingLength, hnames, length_listingText]
  have hsize : listingSize first = (listingText site.names).length := by
    rw [listingSize_eq, hbytes first hfirst, toInt32_eq_self (by omega) (by omega)]
  have hlisted : env.Listed first second :=
    ⟨hfolder, h.response, h.body, by rw [hsize]; exact Int.natCast_nonneg _⟩
  -- the names have no NUL, so the C string of the body is all of it
  have hcstr : cstr (env.listing first second) = listingText site.names := by
    rw [← hsecond]
    have hfits : listingLength second ≤ (listingSize first).toNat := by
      rw [hbytes second hsecond, hsize, Int.toNat_natCast]
    exact cstr_listing (h.names first second hfolder) hfits
  have hbody : env.listing first second = listingText site.names := by
    have hlength : (env.listing first second).length = (listingText site.names).length := by
      rw [WriteEnv.listing, Block.length_read, hsize, Int.toNat_natCast]
    rw [← hcstr] at hlength ⊢
    exact ((cstr_isPrefix _).eq_of_length hlength.symm).symm
  have hserved : env.listingResponse first second =
      (Answer.content (bytes "text/plain") (listingText site.names)).served := by
    rw [WriteEnv.listingResponse, hcstr, hbody, h.headersSent, hsize]
    rfl
  rw [← hserved]
  exact .listing hpath ⟨hlisted, h.sizeStr, h.usable, h.complete⟩

private theorem WriteEnv.Shows.responds_file (hhead : path.head? = some 47)
    (hlong : 1 < path.length) (hlen : (site.fileAnswer path).body.length < 2 ^ 31) :
    env.Responds path (site.fileAnswer path).served := by
  -- the folder's name has no dot
  have hlast : strrchr 46 (resourcesFolder ++ path) = strrchr 46 path :=
    strrchr_append_of_notMem (by decide) path
  have hfile := h.file
  unfold Site.fileAnswer at hlen ⊢
  cases hextension : strrchr 46 path with
  | none =>
    have hdot : 46 ∉ path := strrchr_eq_none_iff.mp hextension
    exact .badRequest (Or.inr ⟨hlong, h.fullPath, hdot⟩) h.response
  | some extension =>
    have hdot : 46 ∈ path := by
      by_contra hn
      exact Option.some_ne_none _ (hextension.symm.trans (strrchr_eq_none_iff.mpr hn))
    have hnames : env.NamesFile path := ⟨hhead, h.fullPath, hdot⟩
    cases hcontent : site.file path with
    | none =>
      simp only [hcontent] at hfile ⊢
      have hsize : env.fileSize path = none := by
        rw [WriteEnv.fileSize, if_neg (by omega)]
      exact .notFound hnames hsize (Or.inl hfile) h.response
    | some content =>
      simp only [hextension, hcontent] at hfile hlen ⊢
      obtain ⟨hopen, hstat, hread⟩ := hfile
      have hsize : env.fileSize path = some content.length := by
        rw [WriteEnv.fileSize, if_pos hopen, hstat]
      have hsends : env.SendsFile content.length :=
        ⟨⟨h.sizeStr, h.response, h.usable⟩, h.fileContent, hread ▸ le_rfl, h.complete⟩
      have hint : toInt32 content.length = content.length :=
        toInt32_eq_self (by omega) (by simpa [Answer.body] using hlen)
      have hserved : env.fileResponse extension content.length =
          (Answer.content (getContentType extension) content).served := by
        rw [WriteEnv.fileResponse, h.headersSent, hread, List.take_length, hint]
        rfl
      rw [← hserved]
      exact .file hnames (hlast.trans hextension) hsize hsends

/-- The answers of the system lead to the response of the site. -/
theorem WriteEnv.Shows.responds (hlen : (site.answer path).body.length < 2 ^ 31) :
    env.Responds path (site.answer path).served := by
  unfold Site.answer at hlen ⊢
  by_cases hpath : path = [47]
  · rw [if_pos hpath] at hlen ⊢
    exact h.responds_listing hpath hlen
  · rw [if_neg hpath] at hlen ⊢
    by_cases hhead : path.head? = some 47
    · rw [if_pos hhead] at hlen ⊢
      refine h.responds_file hhead ?_ hlen
      rcases path with _ | ⟨c, _ | ⟨d, rest⟩⟩
      · exact absurd hhead.symm (Option.some_ne_none _)
      · exact absurd (congrArg (· :: []) (Option.some.inj hhead)) hpath
      · exact Nat.succ_lt_succ (Nat.succ_pos _)
    · rw [if_neg hhead]
      exact .badRequest (Or.inl hhead) h.response

end Shows

/-! ## The answer on the wire -/

/-- The status lines of the server. -/
def statusLines : List ResponseLine :=
  [⟨defaultHttpVersion, 200, http200Phrase⟩, ⟨defaultHttpVersion, 400, http400Phrase⟩,
    ⟨defaultHttpVersion, 404, http404Phrase⟩]

theorem Answer.line_mem (answer : Answer) : answer.served.line ∈ statusLines := by
  cases answer with
  | content => exact List.mem_cons_self
  | badRequest => exact List.mem_cons_of_mem _ List.mem_cons_self
  | notFound => exact List.mem_cons_of_mem _ (List.mem_cons_of_mem _ List.mem_cons_self)

theorem statusLines_plain : ∀ l ∈ statusLines, l.version = defaultHttpVersion ∧
    (100 ≤ l.statusCode ∧ l.statusCode ≤ 999) ∧
    (∀ c ∈ l.reasonPhrase, c ≠ 58 ∧ c ≠ 13 ∧ c ≠ 10 ∧ c ≠ 0) ∧ l.reasonPhrase.length ≤ 11 := by
  decide

section Wire

variable {answer : Answer} (h : answer.Typed)
include h

theorem Answer.Typed.headers_wellFormed :
    ∀ x ∈ answer.served.headers, x.WellFormed := by
  cases h with
  | content extension body => exact responseHeaders_wellFormed extension body.length
  | badRequest => exact fun x hx => absurd hx List.not_mem_nil
  | notFound => exact fun x hx => absurd hx List.not_mem_nil

theorem Answer.Typed.plain : answer.served.PlainResponse := by
  obtain ⟨hversion, ⟨hge, hle⟩, hphrase, hshort⟩ := statusLines_plain _ answer.line_mem
  have hword : IsWord defaultHttpVersion := ⟨by decide, by decide, by decide⟩
  refine ⟨hversion ▸ hword, hversion ▸ by decide, hversion ▸ by decide, hge, hle, hphrase,
    hshort.trans_lt (by decide), h.headers_wellFormed, ?_⟩
  intro b hb
  cases h with
  | content extension body =>
    rw [← Option.some.inj hb]
    rfl
  | badRequest => exact absurd hb.symm (Option.some_ne_none b)
  | notFound => exact absurd hb.symm (Option.some_ne_none b)

theorem Answer.Typed.contentLength_served (hlen : answer.body.length < 2 ^ 31) :
    contentLength answer.served.headers = answer.body.length := by
  cases h with
  | content extension body => exact contentLength_responseHeaders _ hlen
  | badRequest => rfl
  | notFound => rfl

theorem Answer.Typed.length_headers (hlen : answer.body.length < 2 ^ 31) :
    (headersText answer.served.headers).length ≤ 100 := by
  cases h with
  | content extension body => exact length_responseHeaders extension (hlen.trans (by norm_num))
  | badRequest => exact Nat.zero_le _
  | notFound => exact Nat.zero_le _

/-- The head of an answer is short. -/
theorem Answer.Typed.length_head (hlen : answer.body.length < 2 ^ 31) :
    (headBlock answer.served.line.line answer.served.headers).length ≤ 200 := by
  obtain ⟨hversion, ⟨hge, hle⟩, -, hshort⟩ := statusLines_plain _ answer.line_mem
  have hheaders := h.length_headers hlen
  have hend : lineEnding.length = 2 := by decide
  have hlength : defaultHttpVersion.length = 8 := by decide
  have hcode : (formatInt answer.served.line.statusCode).length ≤ 3 := by
    obtain ⟨n, hn⟩ := Int.eq_ofNat_of_zero_le (by omega : 0 ≤ answer.served.line.statusCode)
    rw [hn, formatInt_natCast]
    exact length_decimal_le (by norm_num) (by omega)
  rw [headBlock_eq, ResponseLine.line, hversion]
  simp only [List.length_append, List.length_cons, hend, hlength]
  omega

end Wire

theorem Answer.content_served (answer : Answer) : answer.served.content = answer.body := by
  cases answer with
  | content => rfl
  | badRequest => rfl
  | notFound => rfl

/-- The bytes begin with the head and the body. -/
def Answer.Begins (answer : Answer) (wire : List UInt8) : Prop :=
  ∃ extra, wire = headBlock answer.served.line.line answer.served.headers ++
    (answer.body ++ extra)

/-- A body for which the receiving side has memory. -/
def Answer.Fits (answer : Answer) : Prop := answer.body.length ≤ 2 ^ 31 - 4096

/-- The write handler sends the answer of the site, and frees the request. -/
theorem handleClientHttpWrite_answer {env : WriteEnv} {site : Site} {data : ClientHttpData}
    {request : HTTPRequest} (hrequest : data.request = some request)
    (hresult : env.threadResult = true) (hshows : env.Shows site request.line.uri)
    (hfits : (site.answer request.line.uri).Fits) :
    ∃ wire, (site.answer request.line.uri).Begins wire ∧
      (handleClientHttpWrite env (some data)).outcome = .returned threadResultSuccess
        { data with request := none, response := none } ∧
      (handleClientHttpWrite env (some data)).sends = [wire] := by
  have htyped := site.answer_typed request.line.uri
  have hresponds := hshows.responds (hfits.trans_lt (by norm_num))
  generalize site.answer request.line.uri = answer at *
  have hlen : answer.body.length < 2 ^ 31 := hfits.trans_lt (by norm_num)
  -- the size of the response is an `int`
  have hsize : answer.served.sizeWithBody answer.served.content.length < 2 ^ 31 := by
    have hhead := htyped.length_head hlen
    have hend : lineEnding.length = 2 := by decide
    unfold Answer.Fits at hfits
    rw [headBlock_eq, ResponseLine.line] at hhead
    simp only [List.length_append, List.length_cons, hend] at hhead
    rw [HTTPMessage.sizeWithBody, answer.content_served]
    omega
  obtain ⟨s, hs, hbuffers⟩ := serializeHttpResponse_ok htyped.plain hshows.serialize hsize
  obtain ⟨extra, hbytes⟩ := serializeHttpResponse_head htyped.plain hs hbuffers
  -- the bytes begin with head and content
  have hbegins : answer.Begins s.bytes := by
    refine ⟨extra, ?_⟩
    rw [hbytes, answer.content_served, HTTPMessage.responseHead, headBlock_eq,
      ResponseLine.text_eq_line, List.append_assoc]
  refine ⟨s.bytes, hbegins, ?_⟩
  have hexit := handleClientHttpWrite_exit env data
  generalize handleClientHttpWrite env (some data) = run at hexit ⊢
  cases hexit with
  | noResult hfalse => exact absurd (hresult.symm.trans hfalse) Bool.noConfusion
  | noRequest _ hnone => exact absurd (hrequest.symm.trans hnone) (Option.some_ne_none _)
  | request _ hrequest' hexit =>
    obtain rfl := Option.some.inj (hrequest.symm.trans hrequest')
    rcases hexit.sendsOnly with ⟨r, effects, blocks, hr, hno, rfl⟩ | ⟨hnone, -⟩
    · obtain rfl := (hr _).mp hresponds
      -- nothing else is sent
      have hquiet : effects.filterMap Effect.sent? = [] := by
        refine List.filterMap_eq_nil_iff.mpr fun e he => ?_
        cases e with
        | send fd data => exact absurd he (hno fd data)
        | _ => rfl
      rw [sendResponse, sendHttpResponse_of_serialize hshows.script hs]
      refine ⟨rfl, ?_⟩
      rw [WriteRun.sends, List.filterMap_append, hquiet]
      rfl
    · exact absurd hresponds (hnone _)

end SelectServer
