import SelectServer.Server.ResponseHeaders

/-!
# The exits of the write handler

`handle_client_http_write` has an exit for each call that can fail, and the combination of
answers that leads to one is spread over its branches. Here each exit stands with the answers
that lead to it, and the handler takes one of them (`handleClientHttpWrite_exit`).
-/

namespace SelectServer

open CLib

/-! ## What is answered -/

/-- The size of the file of a URI, if the first test takes it for opened. -/
def WriteEnv.fileSize (env : WriteEnv) (uri : List UInt8) : Option Nat :=
  if 0 < env.openFile (resourcesFolder ++ uri) then env.fstat else none

theorem fileSize_lt {env : WriteEnv} (hstat : ∀ size, env.fstat = some size → size < 2 ^ 63)
    {uri : List UInt8} {size : Nat} (h : env.fileSize uri = some size) : size < 2 ^ 63 := by
  rw [WriteEnv.fileSize] at h
  split at h
  · exact hstat size h
  · exact absurd h.symm (Option.some_ne_none _)

/-- The second test takes the file for missing. -/
def WriteEnv.Missing (env : WriteEnv) (uri : List UInt8) : Prop :=
  env.openFile (resourcesFolder ++ uri) < 0 ∨ env.fstatAgain = false

/-- The URI names a file, and there is memory for its path. -/
def WriteEnv.NamesFile (env : WriteEnv) (uri : List UInt8) : Prop :=
  uri.head? = some 47 ∧ env.fullPath = true ∧ 46 ∈ uri

/-- The URI is no path, or its path has no extension. -/
def WriteEnv.BadRequest (env : WriteEnv) (uri : List UInt8) : Prop :=
  uri.head? ≠ some 47 ∨ 1 < uri.length ∧ env.fullPath = true ∧ 46 ∉ uri

/-- The three kinds of URIs exclude one another. -/
theorem ne_slash_of_namesFile {env : WriteEnv} {uri : List UInt8} (h : env.NamesFile uri) :
    uri ≠ [47] := by
  rintro rfl
  exact absurd h.2.2 (by decide)

theorem not_namesFile_of_badRequest {env : WriteEnv} {uri : List UInt8}
    (h : env.BadRequest uri) : ¬ env.NamesFile uri := by
  rintro ⟨hhead, -, hdot⟩
  rcases h with hn | ⟨-, -, hn⟩
  · exact hn hhead
  · exact hn hdot

theorem ne_slash_of_badRequest {env : WriteEnv} {uri : List UInt8} (h : env.BadRequest uri) :
    uri ≠ [47] := by
  rintro rfl
  rcases h with hn | ⟨hlong, -, -⟩
  · exact hn rfl
  · exact Nat.lt_irrefl 1 hlong

/-- The folder's name has no dot, so the search for one looks at the URI only. -/
theorem strrchr_fullPath_eq_none_iff {uri : List UInt8} :
    strrchr 46 (resourcesFolder ++ uri) = none ↔ 46 ∉ uri := by
  have hfolder : 46 ∉ resourcesFolder := by decide
  simp [strrchr_eq_none_iff, hfolder]

/-- A response without headers and body. -/
def statusResponse (statusCode : Int) (reasonPhrase : List UInt8) : HTTPResponse :=
  ⟨⟨defaultHttpVersion, statusCode, reasonPhrase⟩, [], none, 0⟩

/-- The response for an open file of `size` bytes. -/
def WriteEnv.fileResponse (env : WriteEnv) (extension : List UInt8) (size : Nat) :
    HTTPResponse :=
  ⟨⟨defaultHttpVersion, 200, http200Phrase⟩, env.headersSent (getContentType extension) size,
    some ((contentRead env.reads).take size), toInt32 size⟩

/-- As an `int` the size of the file is negative, and with the head in front of it the sum is
not: the size is by less than the head below a multiple of `2 ^ 32`. -/
def WriteEnv.OvercopiesFile (env : WriteEnv) (extension : List UInt8) (size : Nat) : Prop :=
  env.serialize.Succeeds ∧ 2 ^ 32 ≤ size % 2 ^ 32 + (env.fileResponse extension size).sizeWithBody 0

/-- The listing for the entries of the two passes. -/
def WriteEnv.listing (env : WriteEnv) (first second : List DirEntry) : List UInt8 :=
  (listingBlock env.junk (listingSize first).toNat second).read (listingSize first).toNat

/-- The response with the listing. -/
def WriteEnv.listingResponse (env : WriteEnv) (first second : List DirEntry) : HTTPResponse :=
  ⟨⟨defaultHttpVersion, 200, http200Phrase⟩,
    env.headersSent (bytes "text/plain") (cstr (env.listing first second)).length,
    some (env.listing first second), listingSize first⟩

/-- Its headers are well-formed and short. -/
theorem listingResponse_bounds (env : WriteEnv) (first second : List DirEntry) :
    (∀ x ∈ (env.listingResponse first second).headers, x.WellFormed) ∧
      (headersText (env.listingResponse first second).headers).length ≤ 100 := by
  have hlt : (cstr (env.listing first second)).length < 2 ^ 63 := by
    have hle : (cstr (env.listing first second)).length ≤ (listingSize first).toNat := by
      have hprefix := (cstr_isPrefix (env.listing first second)).length_le
      rwa [WriteEnv.listing, Block.length_read] at hprefix
    have hsize := (toInt32_bounds
      ((regularNames first).map fun name => (name.length + 2 : Int)).sum).2
    rw [← listingSize] at hsize
    omega
  have hplain : getContentType (bytes ".txt") = bytes "text/plain" := by decide
  have hbounds := headersSent_bounds env (bytes ".txt") hlt
  rwa [hplain] at hbounds

section

variable {env : WriteEnv} {data : ClientHttpData} {effects : List Effect} {blocks : List Block}

theorem createHttpResponse_eq {statusCode : Int} (hcode : 0 < statusCode)
    (halloc : env.response = true) (version reasonPhrase : List UInt8) :
    createHttpResponse env.response version statusCode reasonPhrase [] none =
      some ⟨⟨version, statusCode, reasonPhrase⟩, [], none, 0⟩ := by
  rw [createHttpResponse, if_neg hcode.not_ge, if_pos halloc]

theorem createHttpResponse_eq_none (halloc : ¬ env.response = true) (statusCode : Int)
    (version reasonPhrase : List UInt8) :
    createHttpResponse env.response version statusCode reasonPhrase [] none = none := by
  rw [createHttpResponse, if_neg halloc, ite_self]

theorem respondStatus_eq {statusCode : Int} (hcode : 0 < statusCode)
    (halloc : env.response = true) (reasonPhrase : List UInt8) :
    respondStatus env data statusCode reasonPhrase effects blocks =
      sendResponse env data (statusResponse statusCode reasonPhrase) effects blocks := by
  simp only [respondStatus, createHttpResponse_eq hcode halloc, statusResponse]

/-- The exits behind `send_http_response` add what is sent to the effects, if anything. -/
theorem sendResponse_effects (env : WriteEnv) (data : ClientHttpData) (response : HTTPResponse)
    (effects : List Effect) (blocks : List Block) :
    ∃ sent : Option (List UInt8), (sendResponse env data response effects blocks).effects =
      effects ++ sent.toList.map (.send data.clientSockfd) := by
  rw [sendResponse]
  cases sendHttpResponse env.serialize response env.script with
  | none => exact ⟨none, (List.append_nil effects).symm⟩
  | some r => exact ⟨some r.2, rfl⟩

/-- They fill no further block of the handler. -/
theorem sendResponse_blocks (response : HTTPResponse) :
    (sendResponse env data response effects blocks).blocks = blocks := by
  rw [sendResponse]
  cases sendHttpResponse env.serialize response env.script with
  | none => rfl
  | some r => rfl

/-- A status without headers and body is always sent, or refused. -/
theorem sendHttpResponse_statusResponse_ne_none (statusCode : Int) (reasonPhrase : List UInt8) :
    sendHttpResponse env.serialize (statusResponse statusCode reasonPhrase) env.script ≠ none := by
  intro hnone
  have hsmall : (headersText (statusResponse statusCode reasonPhrase).headers).length < 2 ^ 31 := by
    exact (by decide : (headersText []).length < 2 ^ 31)
  have hover := ((sendHttpResponse_eq_none_iff hsmall env.script).mp hnone).2.2
  exact absurd hover.1 (by simp [statusResponse])

/-- The response for a file is sent or refused, unless its body is copied with a negative
length. -/
theorem sendHttpResponse_fileResponse_eq_none_iff (extension : List UInt8) {size : Nat}
    (hsize : size < 2 ^ 63) :
    sendHttpResponse env.serialize (env.fileResponse extension size) env.script = none ↔
      env.OvercopiesFile extension size := by
  have hheaders : (headersText (env.fileResponse extension size).headers).length ≤ 100 :=
    (headersSent_bounds env extension hsize).2
  have hversion : defaultHttpVersion.length = 8 := by decide
  have hphrase : http200Phrase.length = 2 := by decide
  have hhead : (env.fileResponse extension size).sizeWithBody 0 =
      20 + (headersText (env.fileResponse extension size).headers).length := by
    simp only [HTTPMessage.sizeWithBody, WriteEnv.fileResponse, hversion, hphrase]
    omega
  rw [sendHttpResponse_eq_none_iff (by omega), WriteEnv.OvercopiesFile, HTTPMessage.offered_eq,
    HTTPMessage.Overcopies]
  refine and_congr_right fun _ => ?_
  -- body and body length of the response
  have hbody : (env.fileResponse extension size).body.isSome = true := rfl
  have hlength : (env.fileResponse extension size).bodyLength = toInt32 size := by
    rw [WriteEnv.fileResponse]
  rw [if_pos hbody, hlength, and_iff_right hbody, hhead]
  generalize (headersText (env.fileResponse extension size).headers).length = n at hheaders
  -- both sums are taken modulo `2 ^ 32`
  obtain ⟨k, hk⟩ := dvd_sub_toInt32 size
  have hinner := toInt32_bounds size
  generalize toInt32 size = z at hk hinner
  obtain ⟨m, hm⟩ := dvd_sub_toInt32 ((20 + n : Nat) + z)
  have houter := toInt32_bounds ((20 + n : Nat) + z)
  generalize toInt32 ((20 + n : Nat) + z) = y at hm houter
  omega

theorem respondStatus_eq_fault (halloc : ¬ env.response = true) (statusCode : Int)
    (reasonPhrase : List UInt8) :
    respondStatus env data statusCode reasonPhrase effects blocks = ⟨.fault, effects, blocks⟩ := by
  simp only [respondStatus, createHttpResponse_eq_none halloc]

end

/-! ## An open file -/

section

variable (env : WriteEnv) (data : ClientHttpData)

/-- The array of headers and the response are there when the content is read. -/
structure WriteEnv.Prepared : Prop where
  sizeStr : env.sizeStr = true
  response : env.response = true
  usable : env.HeadersUsable

/-- There is no memory for the content, or a read fails before all of it is there. -/
def WriteEnv.ContentFails (size : Nat) : Prop :=
  env.fileContent = true → (contentRead env.reads).length < size ∧ .failed ∈ env.reads

/-- The exits of the branch for an open file of `size` bytes, entered behind `effects`. -/
inductive FileExit (effects : List Effect) (extension : List UInt8) (fd : Int) (size : Nat) :
    WriteRun → Prop
  -- `lock_file` stays locked
  | noSizeStr (blocks : List Block) : env.sizeStr = false →
      FileExit effects extension fd size ⟨.returned threadResultError
        { data with request := none }, effects ++ [.close fd], blocks⟩
  | notPrepared (blocks : List Block) : ¬ env.Prepared →
      FileExit effects extension fd size ⟨.fault, effects, blocks⟩
  | rejected (blocks : List Block) : env.Prepared → env.ContentFails size →
      env.HeadersFreeable →
      FileExit effects extension fd size ⟨.returned threadResultError
        { data with request := none, response := none },
        effects ++ [.close fd, .unlock .lockFile], blocks⟩
  | notFreeable (blocks : List Block) : env.Prepared → env.ContentFails size →
      ¬ env.HeadersFreeable →
      FileExit effects extension fd size
        ⟨.fault, effects ++ [.close fd, .unlock .lockFile], blocks⟩
  -- the file ends early, and no read fails
  | spins (blocks : List Block) : env.Prepared → env.fileContent = true →
      (contentRead env.reads).length < size → .failed ∉ env.reads →
      FileExit effects extension fd size ⟨.spins, effects, blocks⟩
  | notReadable (blocks : List Block) : env.Prepared → env.fileContent = true →
      size ≤ (contentRead env.reads).length → ¬ env.HeadersComplete →
      FileExit effects extension fd size
        ⟨.fault, effects ++ [.close fd, .unlock .lockFile], blocks⟩
  | sent (blocks : List Block) : env.Prepared → env.fileContent = true →
      size ≤ (contentRead env.reads).length → env.HeadersComplete →
      FileExit effects extension fd size (sendResponse env data (env.fileResponse extension size)
        (effects ++ [.close fd, .unlock .lockFile]) blocks)

variable {env data}

theorem rejectFile_exit (hprepared : env.Prepared) {size : Nat} (hfails : env.ContentFails size)
    {contentType : List UInt8} {arr : HeaderArray}
    (hbuild : buildHeaders env contentType size = some arr) (effects : List Effect)
    (extension : List UInt8) (fd : Int) (blocks : List Block) :
    FileExit env data effects extension fd size
      (rejectFile data arr (effects ++ [.close fd, .unlock .lockFile]) blocks) := by
  have hfreeable := freeable_buildHeaders hbuild
  unfold rejectFile
  by_cases h : env.HeadersFreeable
  · rw [if_pos (hfreeable.mpr h)]
    exact .rejected _ hprepared hfails h
  · rw [if_neg (hfreeable.not.mpr h)]
    exact .notFreeable _ hprepared hfails h

theorem serveFile_exit (effects : List Effect) (extension : List UInt8) (fd : Int) (size : Nat)
    (blocks : List Block) :
    FileExit env data effects extension fd size
      (serveFile env data extension fd size effects blocks) := by
  by_cases hsize : env.sizeStr = true
  · by_cases hresponse : env.response = true
    · cases hbuild : buildHeaders env (getContentType extension) size with
      | none =>
        -- the headers are used as NULL
        have hunusable := (buildHeaders_eq_none_iff env _ _).mp hbuild
        simp only [serveFile, if_pos hsize, hbuild]
        exact .notPrepared _ fun h => hunusable h.usable
      | some arr =>
        have hprepared : env.Prepared := ⟨hsize, hresponse, usable_of_buildHeaders hbuild⟩
        simp only [serveFile, if_pos hsize, hbuild,
          createHttpResponse_eq (by decide : (0 : Int) < 200) hresponse]
        by_cases hcontent : env.fileContent = true
        · rw [if_pos hcontent]
          rcases Nat.lt_or_ge (contentRead env.reads).length size with hlt | hle
          · -- the reads end before the size: with a failure, or never
            have htotal : 0 + (contentRead env.reads).length < size := by rwa [Nat.zero_add]
            by_cases hfails : .failed ∈ env.reads
            · obtain ⟨block, hloop⟩ := readFileLoop_failed htotal hfails
                (Block.malloc (size + 1) env.junk)
              rw [hloop]
              exact rejectFile_exit hprepared (fun _ => ⟨hlt, hfails⟩) hbuild _ _ _ _
            · obtain ⟨block, hloop⟩ := readFileLoop_spins htotal hfails
                (Block.malloc (size + 1) env.junk)
              rw [hloop]
              exact .spins _ hprepared hcontent hlt hfails
          · have hread : size ≤ ([] ++ contentRead env.reads).length := hle
            obtain ⟨block, hloop, hhold⟩ := readFileLoop_done env.reads []
              (Block.holds_nil (Block.malloc (size + 1) env.junk) 0) (Nat.zero_le _) hread
            rw [List.nil_append] at hhold
            -- the terminator stands behind the content
            have hbody : (block.store size [0]).read size =
                (contentRead env.reads).take size := by
              have hlength : ((contentRead env.reads).take size).length = size := by
                rw [List.length_take, Nat.min_eq_left hle]
              have hread := (hhold.store size [0] (Or.inl (by rw [hlength, Nat.zero_add]))).read
              rwa [hlength] at hread
            rw [List.length_nil] at hloop
            simp only [hloop]
            -- serialising reads the strings of all headers
            by_cases hcomplete : env.HeadersComplete
            · simp only [live_buildHeaders hbuild hcomplete, hbody]
              exact .sent _ hprepared hcontent hle hcomplete
            · simp only [live_buildHeaders_eq_none hbuild hcomplete]
              exact .notReadable _ hprepared hcontent hle hcomplete
        · rw [if_neg hcontent]
          exact rejectFile_exit hprepared (fun h => absurd h hcontent) hbuild _ _ _ _
    · simp only [serveFile, if_pos hsize, createHttpResponse_eq_none hresponse]
      -- the response is used as NULL, whatever the headers
      have hfault : FileExit env data effects extension fd size
          ⟨.fault, effects, if env.headers then blocks ++ [sizeStrBlock env size] else blocks⟩ :=
        .notPrepared _ fun h => hresponse h.response
      cases buildHeaders env (getContentType extension) size with
      | none => exact hfault
      | some arr => exact hfault
  · simp only [serveFile, if_neg hsize]
    exact .noSizeStr _ (by simpa using hsize)

/-! ## The listing -/

variable (env data)

/-- The folder has been listed: what the two passes have found, and a block for it. -/
structure WriteEnv.Listed (first second : List DirEntry) : Prop where
  opendir : env.opendir = some (first, second)
  response : env.response = true
  body : env.body = true
  size : 0 ≤ listingSize first

/-- The folder has been opened, and the sizes of its entries add up to `-1`: the block for the
body has no byte. -/
structure WriteEnv.Wraps (first second : List DirEntry) : Prop where
  opendir : env.opendir = some (first, second)
  response : env.response = true
  body : env.body = true
  size : listingSize first = -1

/-- The exits of the branch for the listing, entered behind `effects` with the folder opened. -/
inductive ListingExit (effects : List Effect) : WriteRun → Prop
  -- `lock_file` stays locked
  | noFolder : env.opendir = none →
      ListingExit effects ⟨.returned threadResultError data, effects, []⟩
  | noResponse : env.opendir ≠ none → ¬ env.response = true →
      ListingExit effects ⟨.fault, effects, []⟩
  | wraps {first second : List DirEntry} : env.Wraps first second →
      ListingExit effects ⟨.fault, effects, [(Block.malloc 0 env.junk).store 0 [0]]⟩
  | noBody {first second : List DirEntry} : env.opendir = some (first, second) →
      env.response = true → ¬ (env.body = true ∧ -1 ≤ listingSize first) →
      ListingExit effects ⟨.returned threadResultError
        { data with request := none, response := none }, effects ++ [.unlock .lockFile], []⟩
  | noSizeStr {first second : List DirEntry} (response : HTTPResponse) (blocks : List Block) :
      env.Listed first second → env.sizeStr = false →
      ListingExit effects ⟨.returned threadResultError
        { data with request := none, response := some response },
        effects ++ [.unlock .lockFile], blocks⟩
  | notReadable {first second : List DirEntry} (blocks : List Block) :
      env.Listed first second → env.sizeStr = true →
      ¬ (env.HeadersUsable ∧ env.HeadersComplete) →
      ListingExit effects ⟨.fault, effects ++ [.unlock .lockFile], blocks⟩
  | sent {first second : List DirEntry} (blocks : List Block) : env.Listed first second →
      env.sizeStr = true → env.HeadersUsable → env.HeadersComplete →
      ListingExit effects (sendResponse env data (env.listingResponse first second)
        (effects ++ [.unlock .lockFile]) blocks)

variable {env data}

theorem WriteEnv.Listed.not_wraps {first second : List DirEntry} (h : env.Listed first second)
    (first' second' : List DirEntry) : ¬ env.Wraps first' second' := by
  intro hwraps
  obtain ⟨rfl, -⟩ := Prod.mk.inj (Option.some.inj (h.opendir.symm.trans hwraps.opendir))
  have hnonneg := h.size
  rw [hwraps.size] at hnonneg
  exact absurd hnonneg (by decide)

/-- The listing is sent, or refused. -/
theorem sendHttpResponse_listingResponse_ne_none {first second : List DirEntry}
    (h : env.Listed first second) :
    sendHttpResponse env.serialize (env.listingResponse first second) env.script ≠ none := by
  have hsmall := (listingResponse_bounds env first second).2
  intro hnone
  have hover := ((sendHttpResponse_eq_none_iff (by omega) env.script).mp hnone).2.2
  exact hover.2.not_ge h.size

theorem respondListing_exit (effects : List Effect) :
    ListingExit env data (effects ++ [.lock .lockFile, .opendir resourcesFolder])
      (respondListing env data effects) := by
  cases hfolder : env.opendir with
  | none =>
    simp only [respondListing, hfolder]
    exact .noFolder hfolder
  | some passes =>
    obtain ⟨first, second⟩ := passes
    by_cases hresponse : env.response = true
    · simp only [respondListing, hfolder,
        createHttpResponse_eq (by decide : (0 : Int) < 200) hresponse]
      by_cases hempty : env.body = true ∧ listingSize first = -1
      · rw [if_pos hempty]
        exact .wraps ⟨hfolder, hresponse, hempty.1, hempty.2⟩
      rw [if_neg hempty]
      by_cases hbody : env.body = true ∧ 0 ≤ listingSize first
      · have hlisted : env.Listed first second := ⟨hfolder, hresponse, hbody.1, hbody.2⟩
        rw [if_pos hbody]
        by_cases hsize : env.sizeStr = true
        · rw [if_pos hsize]
          cases hbuild : buildHeaders env (bytes "text/plain")
              (cstr (env.listing first second)).length with
          | none =>
            -- the headers are used as NULL
            have hunusable := (buildHeaders_eq_none_iff env _ _).mp hbuild
            rw [WriteEnv.listing] at hbuild
            rw [hbuild]
            exact .notReadable _ hlisted hsize fun h => hunusable h.1
          | some arr =>
            have husable := usable_of_buildHeaders hbuild
            -- serialising reads the strings of all headers
            by_cases hcomplete : env.HeadersComplete
            · have hlive := live_buildHeaders hbuild hcomplete
              rw [WriteEnv.listing] at hbuild
              simp only [hbuild, hlive]
              exact .sent _ hlisted hsize husable hcomplete
            · have hlive := live_buildHeaders_eq_none hbuild hcomplete
              rw [WriteEnv.listing] at hbuild
              simp only [hbuild, hlive]
              exact .notReadable _ hlisted hsize fun h => hcomplete h.2
        · rw [if_neg hsize]
          exact .noSizeStr _ _ hlisted (by simpa using hsize)
      · rw [if_neg hbody]
        -- the `malloc` fails, or the size is negative
        refine .noBody hfolder hresponse fun h => ?_
        rcases h.2.lt_or_eq with hlt | heq
        · exact hbody ⟨h.1, by omega⟩
        · exact hempty ⟨h.1, heq.symm⟩
    · simp only [respondListing, hfolder, createHttpResponse_eq_none hresponse]
      exact .noResponse (by simp [hfolder]) hresponse

/-! ## The handler -/

/-- What is done before the request is looked at. -/
def acquired : List Effect := [.lock .lock, .unlock .lock]

variable (env data)

/-- The exits behind a response without headers. -/
inductive StatusExit (statusCode : Int) (reasonPhrase : List UInt8) (effects : List Effect) :
    WriteRun → Prop
  | noResponse (blocks : List Block) : ¬ env.response = true →
      StatusExit statusCode reasonPhrase effects ⟨.fault, effects, blocks⟩
  | sent (blocks : List Block) : env.response = true →
      StatusExit statusCode reasonPhrase effects
        (sendResponse env data (statusResponse statusCode reasonPhrase) effects blocks)

/-- The exits of the handler for a request with this URI. -/
inductive UriExit (uri : List UInt8) : WriteRun → Prop
  | badRequest {run : WriteRun} : env.BadRequest uri →
      StatusExit env data 400 http400Phrase acquired run → UriExit uri run
  | noPath : uri.head? = some 47 → 1 < uri.length → env.fullPath = false →
      UriExit uri ⟨.returned threadResultError { data with request := none }, acquired, []⟩
  | file {size : Nat} {extension : List UInt8} {run : WriteRun} : env.NamesFile uri →
      strrchr 46 (resourcesFolder ++ uri) = some extension → env.fileSize uri = some size →
      FileExit env data
        (acquired ++ [.lock .lockFile, .openFile (resourcesFolder ++ uri)]) extension
        (env.openFile (resourcesFolder ++ uri)) size run → UriExit uri run
  | notFound {run : WriteRun} : env.NamesFile uri → env.fileSize uri = none →
      env.Missing uri → StatusExit env data 404 http404Phrase
        (acquired ++ [.lock .lockFile, .openFile (resourcesFolder ++ uri)] ++
          [.unlock .lockFile]) run → UriExit uri run
  -- neither opened nor missing: `lock_file` stays locked
  | ofTwoMinds (blocks : List Block) : env.NamesFile uri → env.fileSize uri = none →
      ¬ env.Missing uri → UriExit uri ⟨.returned threadResultSuccess
        { data with request := none, response := none },
        acquired ++ [.lock .lockFile, .openFile (resourcesFolder ++ uri)], blocks⟩
  | listing {run : WriteRun} : uri = [47] →
      ListingExit env data (acquired ++ [.lock .lockFile, .opendir resourcesFolder]) run →
      UriExit uri run

/-- The exits of the handler. -/
inductive WriteExit : WriteRun → Prop
  | noResult : env.threadResult = false → WriteExit ⟨.null, acquired, []⟩
  | noRequest : env.threadResult = true → data.request = none →
      WriteExit ⟨.returned threadResultEmptyRequest data, acquired, []⟩
  | request {request : HTTPRequest} {run : WriteRun} : env.threadResult = true →
      data.request = some request → UriExit env data request.line.uri run → WriteExit run

variable {env data}

theorem respondStatus_exit {statusCode : Int} (hcode : 0 < statusCode)
    (reasonPhrase : List UInt8) (effects : List Effect) (blocks : List Block) :
    StatusExit env data statusCode reasonPhrase effects
      (respondStatus env data statusCode reasonPhrase effects blocks) := by
  by_cases hresponse : env.response = true
  · rw [respondStatus_eq hcode hresponse]
    exact .sent _ hresponse
  · rw [respondStatus_eq_fault hresponse]
    exact .noResponse _ hresponse

theorem respondFile_exit {uri : List UInt8} (hhead : uri.head? = some 47)
    (hlong : 1 < uri.length) : UriExit env data uri (respondFile env data uri acquired) := by
  by_cases hpath : env.fullPath = true
  · simp only [respondFile, if_pos hpath]
    cases hlast : strrchr 46 (resourcesFolder ++ uri) with
    | none =>
      have hdot : 46 ∉ uri := strrchr_fullPath_eq_none_iff.mp hlast
      exact .badRequest (Or.inr ⟨hlong, hpath, hdot⟩)
        (respondStatus_exit (by decide) http400Phrase _ _)
    | some extension =>
      have hdot : 46 ∈ uri := by
        by_contra hn
        simp [strrchr_fullPath_eq_none_iff.mpr hn] at hlast
      have hnames : env.NamesFile uri := ⟨hhead, hpath, hdot⟩
      cases hstat : env.fileSize uri with
      | some size =>
        have hopen := hstat
        rw [WriteEnv.fileSize] at hopen
        simp only [hopen]
        exact .file hnames hlast hstat (serveFile_exit _ _ _ _ _)
      | none =>
        have hopen := hstat
        rw [WriteEnv.fileSize] at hopen
        simp only [hopen]
        by_cases hmissing : env.Missing uri
        · have hor := hmissing
          rw [WriteEnv.Missing] at hor
          rw [if_pos hor]
          exact .notFound hnames hstat hmissing (respondStatus_exit (by decide) http404Phrase _ _)
        · have hor := hmissing
          rw [WriteEnv.Missing] at hor
          rw [if_neg hor]
          exact .ofTwoMinds _ hnames hstat hmissing
  · simp only [respondFile, if_neg hpath]
    exact .noPath hhead hlong (by simpa using hpath)

/-- Every run of the handler ends at one of its exits. -/
theorem handleClientHttpWrite_exit (env : WriteEnv) (data : ClientHttpData) :
    WriteExit env data (handleClientHttpWrite env (some data)) := by
  by_cases hresult : env.threadResult = true
  · cases hrequest : data.request with
    | none =>
      simp only [handleClientHttpWrite, if_pos hresult, hrequest]
      exact .noRequest hresult hrequest
    | some request =>
      simp only [handleClientHttpWrite, if_pos hresult, hrequest]
      apply WriteExit.request hresult hrequest
      by_cases hfile : request.line.uri.head? = some 47 ∧ 1 < request.line.uri.length
      · rw [if_pos hfile]
        exact respondFile_exit hfile.1 hfile.2
      · rw [if_neg hfile]
        by_cases hlisting : request.line.uri.head? = some 47 ∧ request.line.uri.length = 1
        · rw [if_pos hlisting]
          have huri : request.line.uri = [47] := by
            obtain ⟨c, hc⟩ := List.length_eq_one_iff.mp hlisting.2
            have hhead := hlisting.1
            rw [hc, List.head?_cons] at hhead
            rw [hc, Option.some.inj hhead]
          exact .listing huri (respondListing_exit acquired)
        · rw [if_neg hlisting]
          have hbad : request.line.uri.head? ≠ some 47 := by
            intro hhead
            have hpos : request.line.uri ≠ [] := by
              intro hnil
              simp [hnil] at hhead
            have hlength := List.length_pos_iff.mpr hpos
            exact hfile ⟨hhead, by_contra fun hn => hlisting ⟨hhead, by omega⟩⟩
          exact .badRequest (Or.inl hbad) (respondStatus_exit (by decide) http400Phrase _ _)
  · simp only [handleClientHttpWrite, if_neg hresult]
    exact .noResult (by simpa using hresult)

end

end SelectServer
