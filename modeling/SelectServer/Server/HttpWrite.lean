import SelectServer.Shared.Messages

/-!
# The HTTP write handler of `server/server.c`

`handle_client_http_write` answers a request with a file below `RESOURCES_FOLDER`, a
listing of that folder, or an error response.

Everything the handler asks the system for (allocations, `open`, `fstat`, `read`,
`readdir`, `send`) is an answer in a `WriteEnv`. What it does is recorded: its effects in
order, and the buffers it fills, each with the log of its stores.
-/

namespace SelectServer

open CLib

/-! ## Constants -/

/-- `RESOURCES_FOLDER`. -/
def resourcesFolder : List UInt8 := bytes "assets"

/-- `HTTP_200_PHRASE`. -/
def http200Phrase : List UInt8 := bytes "OK"

/-- `HTTP_400_PHRASE`. -/
def http400Phrase : List UInt8 := bytes "Bad Request"

/-- `HTTP_404_PHRASE`. -/
def http404Phrase : List UInt8 := bytes "Not Found"

/-- `THREAD_RESULT_EMPTY_REQUEST`. -/
def threadResultEmptyRequest : Int := -3

/-- `THREAD_RESULT_ERROR`. -/
def threadResultError : Int := -1

/-- `THREAD_RESULT_SUCCESS`. -/
def threadResultSuccess : Int := 0

/-- `sizeof(int)`. -/
def sizeofInt : Nat := 4

/-- `get_content_type`. -/
def getContentType (extension : List UInt8) : List UInt8 :=
  if extension = bytes ".jpg" then bytes "image/jpeg"
  else if extension = bytes ".jpeg" then bytes "image/jpeg"
  else if extension = bytes ".png" then bytes "image/png"
  else if extension = bytes ".gif" then bytes "image/gif"
  else if extension = bytes ".bmp" then bytes "image/bmp"
  else if extension = bytes ".tiff" then bytes "image/tiff"
  else if extension = bytes ".txt" then bytes "text/plain"
  else if extension = bytes ".pdf" then bytes "application/pdf"
  else if extension = bytes ".html" then bytes "text/html"
  else bytes "application/octet-stream"

/-! ## State and environment -/

/-- `Client_Http_Data`, less the address that is only logged. -/
structure ClientHttpData where
  clientSockfd : Int
  request : Option HTTPRequest
  response : Option HTTPResponse
  deriving DecidableEq, Repr

/-- The result of one `read`: the bytes stored, none at the end of the file, or an error. -/
inductive FileRead
  | data (bs : List UInt8)
  | failed
  deriving DecidableEq, Repr

/-- An entry that `readdir` returns; `regular` is `d_type == DT_REG`. -/
structure DirEntry where
  regular : Bool
  name : List UInt8
  deriving DecidableEq, Repr

/-- The answers of the system during one run of the handler: the results of its `malloc`
calls, of `open`, of the two places that call `fstat` (the size, and whether the call
returns 0), of the `read` calls (after the last one, the end of the file), of `opendir` with
the two passes over the entries, of the `malloc` calls that serialise the response, and of the
`send` calls. -/
structure WriteEnv where
  threadResult : Bool
  fullPath : Bool
  openFile : List UInt8 → Int
  fstat : Option Nat
  fstatAgain : Bool
  sizeStr : Bool
  headers : Bool
  addHeader : Nat → HeaderAlloc
  response : Bool
  fileContent : Bool
  reads : List FileRead
  opendir : Option (List DirEntry × List DirEntry)
  body : Bool
  headersBuffer : Bool
  responseBuffer : Bool
  script : List SendResult
  junk : Nat → UInt8

/-- The memory for serialising the response. -/
def WriteEnv.serialize (env : WriteEnv) : SerializeMemory :=
  ⟨env.headersBuffer, env.responseBuffer, env.junk⟩

/-- A system in which every call succeeds, `open` returns `fd`, the files have the given
content, and the folder is empty. -/
def WriteEnv.ideal (fd : Int) (content : List UInt8) : WriteEnv where
  threadResult := true
  fullPath := true
  openFile := fun _ => fd
  fstat := some content.length
  fstatAgain := true
  sizeStr := true
  headers := true
  addHeader := fun k => ⟨true, some (2 * k), some (2 * k + 1)⟩
  response := true
  fileContent := true
  reads := [.data content]
  opendir := some ([], [])
  body := true
  headersBuffer := true
  responseBuffer := true
  script := []
  junk := fun _ => 0

/-- The two mutexes of the server. -/
inductive Mutex
  | lock
  | lockFile
  deriving DecidableEq, Repr

/-- What the handler does to the outside. -/
inductive Effect
  | lock (m : Mutex)
  | unlock (m : Mutex)
  | openFile (path : List UInt8)
  | close (fd : Int)
  | opendir (path : List UInt8)
  | send (sockfd : Int) (data : List UInt8)
  deriving DecidableEq, Repr

/-- How a run ends: NULL, a `Thread_Result` with the client record it leaves, undefined
behaviour, or not at all. -/
inductive Handled
  | null
  | returned (value : Int) (data : ClientHttpData)
  | fault
  | spins
  deriving DecidableEq, Repr

/-- The handler gets to a `return`. -/
def Handled.Returns : Handled → Prop
  | .null | .returned _ _ => True
  | .fault | .spins => False

instance : DecidablePred Handled.Returns
  | .null | .returned _ _ => isTrue trivial
  | .fault | .spins => isFalse id

/-- A run of the handler. -/
structure WriteRun where
  outcome : Handled
  effects : List Effect
  blocks : List Block

/-! ## Responses -/

/-- The headers of a 200 response with a body. -/
def responseHeaders (contentType : List UInt8) (size : Int) : List Header :=
  [⟨bytes "Content-Type", contentType⟩, ⟨bytes "Content-Length", formatInt size⟩,
    ⟨bytes "Connection", bytes "close"⟩]

/-- The array that `create_headers` and the three `add_header` calls build. -/
def buildHeaders (env : WriteEnv) (contentType : List UInt8) (size : Int) : Option HeaderArray :=
  addHeaders env.addHeader 0
    ⟨if env.headers then some (createHeaders initialHeaderCount) else none, 0, initialHeaderCount⟩
    (responseHeaders contentType size)

/-- The exits behind `send_http_response`: request and response are freed. -/
def sendResponse (env : WriteEnv) (data : ClientHttpData) (response : HTTPResponse)
    (effects : List Effect) (blocks : List Block) : WriteRun :=
  match sendHttpResponse env.serialize response env.script with
  | none => ⟨.fault, effects, blocks⟩
  | some (ret, sent) =>
    { outcome := .returned (if ret < 0 then threadResultError else threadResultSuccess)
        { data with request := none, response := none }
      effects := effects ++ [.send data.clientSockfd sent]
      blocks := blocks }

/-- A response without headers and body. -/
def respondStatus (env : WriteEnv) (data : ClientHttpData) (statusCode : Int)
    (reasonPhrase : List UInt8) (effects : List Effect) (blocks : List Block) : WriteRun :=
  match createHttpResponse env.response defaultHttpVersion statusCode reasonPhrase [] none with
  | none => ⟨.fault, effects, blocks⟩
  | some response => sendResponse env data response effects blocks

/-- The decimal text of a length in the block of `sizeof(int)` bytes allocated for it. -/
def sizeStrBlock (env : WriteEnv) (size : Int) : Block :=
  (Block.malloc sizeofInt env.junk).store 0 (formatInt size ++ [0])

/-! ## A file -/

/-- How the loop over `read` ends; with the answers used up, every `read` returns 0. -/
inductive FileLoop
  | done (block : Block)
  | failed (block : Block)
  | spins (block : Block)

/-- The loop that reads the file into its block. -/
def readFileLoop (size : Nat) : List FileRead → Nat → Block → FileLoop
  | [], total, block => if total < size then .spins block else .done block
  | r :: reads, total, block =>
    if total < size then
      match r with
      | .failed => .failed block
      | .data bs =>
        -- `read` never returns more than it is asked for
        let bs := bs.take (size - total)
        readFileLoop size reads (total + bs.length) (block.store total bs)
    else .done block

/-- The exits of the file branch that free a response whose headers are `arr`. -/
def rejectFile (data : ClientHttpData) (arr : HeaderArray) (effects : List Effect)
    (blocks : List Block) : WriteRun :=
  { outcome := if arr.freeable then
        .returned threadResultError { data with request := none, response := none }
      else .fault
    effects := effects
    blocks := blocks }

/-- The branch for an open file whose size is known. -/
def serveFile (env : WriteEnv) (data : ClientHttpData) (extension : List UInt8) (fd : Int)
    (size : Nat) (effects : List Effect) (blocks : List Block) : WriteRun :=
  if env.sizeStr then
    -- the first `add_header` does not return from a NULL array
    let blocks := if env.headers then blocks ++ [sizeStrBlock env size] else blocks
    match buildHeaders env (getContentType extension) size,
        createHttpResponse env.response defaultHttpVersion 200 http200Phrase [] none with
    | some arr, some response =>
      if env.fileContent then
        match readFileLoop size env.reads 0 (Block.malloc (size + 1) env.junk) with
        | .spins block => ⟨.spins, effects, blocks ++ [block]⟩
        | .failed block =>
          rejectFile data arr (effects ++ [.close fd, .unlock .lockFile]) (blocks ++ [block])
        | .done block =>
          let block := block.store size [0]
          let effects := effects ++ [.close fd, .unlock .lockFile]
          match arr.live with
          | none => ⟨.fault, effects, blocks ++ [block]⟩
          | some headers =>
            sendResponse env data { response with
              headers := headers
              body := some (block.read size)
              bodyLength := toInt32 size } effects (blocks ++ [block])
      else rejectFile data arr (effects ++ [.close fd, .unlock .lockFile]) blocks
    | _, _ => ⟨.fault, effects, blocks⟩
  else
    -- `lock_file` stays locked
    ⟨.returned threadResultError { data with request := none }, effects ++ [.close fd], blocks⟩

/-- The branch for a URI that names a file. -/
def respondFile (env : WriteEnv) (data : ClientHttpData) (uri : List UInt8)
    (effects : List Effect) : WriteRun :=
  if env.fullPath then
    let fullPath := resourcesFolder ++ uri
    let blocks := [(Block.malloc (resourcesFolder.length + uri.length + 1) env.junk).store 0
      (fullPath ++ [0])]
    match strrchr 46 fullPath with
    | none => respondStatus env data 400 http400Phrase effects blocks
    | some lastOccurrence =>
      let fd := env.openFile fullPath
      let effects := effects ++ [.lock .lockFile, .openFile fullPath]
      -- descriptor 0 counts as not opened here
      match if 0 < fd then env.fstat else none with
      | some size => serveFile env data lastOccurrence fd size effects blocks
      | none =>
        if fd < 0 ∨ env.fstatAgain = false then
          respondStatus env data 404 http404Phrase (effects ++ [.unlock .lockFile]) blocks
        else
          -- neither branch is taken: no response, and `lock_file` stays locked
          ⟨.returned threadResultSuccess { data with request := none, response := none },
            effects, blocks⟩
  else ⟨.returned threadResultError { data with request := none }, effects, []⟩

/-! ## The listing -/

/-- The names of the regular files among directory entries. -/
def regularNames (entries : List DirEntry) : List (List UInt8) :=
  (entries.filter DirEntry.regular).map DirEntry.name

/-- The first pass: the size of the listing. -/
def listingSize (entries : List DirEntry) : Int :=
  toInt32 ((regularNames entries).map fun name => (name.length + 2 : Int)).sum

/-- The second pass: the names are concatenated behind `offset`. -/
def concatNames (block : Block) (offset : Nat) : List (List UInt8) → Block
  | [] => block
  | name :: names =>
    concatNames ((block.store offset (name ++ [0])).store (offset + name.length) (crlf ++ [0]))
      (offset + name.length + 2) names

/-- The block of the listing after both passes. -/
def listingBlock (junk : Nat → UInt8) (bodySize : Nat) (entries : List DirEntry) : Block :=
  (concatNames ((Block.malloc (bodySize + 1) junk).store 0 [0]) 0 (regularNames entries)).store
    bodySize [0]

/-- The branch for the URI `/`. The size of the body counts as a `size_t` for `malloc`: of
`-1` it makes a block without a byte, of every other negative number more bytes than there are. -/
def respondListing (env : WriteEnv) (data : ClientHttpData) (effects : List Effect) : WriteRun :=
  let effects := effects ++ [.lock .lockFile, .opendir resourcesFolder]
  match env.opendir with
  | none =>
    -- `lock_file` stays locked
    ⟨.returned threadResultError data, effects, []⟩
  | some (first, second) =>
    match createHttpResponse env.response defaultHttpVersion 200 http200Phrase [] none with
    | none => ⟨.fault, effects, []⟩
    | some response =>
      let bodySize := listingSize first
      if env.body ∧ bodySize = -1 then
        -- the NUL of the empty string stands behind the block
        ⟨.fault, effects, [(Block.malloc 0 env.junk).store 0 [0]]⟩
      else if env.body ∧ 0 ≤ bodySize then
        let effects := effects ++ [.unlock .lockFile]
        -- the size comes from the first pass over the folder, the names from the second
        let block := listingBlock env.junk bodySize.toNat second
        let body := block.read bodySize.toNat
        if env.sizeStr then
          let blocks := if env.headers then [block, sizeStrBlock env (cstr body).length]
            else [block]
          match buildHeaders env (bytes "text/plain") (cstr body).length with
          | none => ⟨.fault, effects, blocks⟩
          | some arr =>
            match arr.live with
            | none => ⟨.fault, effects, blocks⟩
            | some headers =>
              sendResponse env data { response with
                headers := headers
                body := some body
                bodyLength := bodySize } effects blocks
        else
          ⟨.returned threadResultError
            { data with request := none, response := some { response with body := some body } },
            effects, [block]⟩
      else
        ⟨.returned threadResultError { data with request := none, response := none },
          effects ++ [.unlock .lockFile], []⟩

/-! ## The handler -/

/-- `handle_client_http_write`. -/
def handleClientHttpWrite (env : WriteEnv) (arg : Option ClientHttpData) : WriteRun :=
  match arg with
  | none => ⟨.null, [], []⟩
  | some data =>
    let effects : List Effect := [.lock .lock, .unlock .lock]
    if env.threadResult then
      match data.request with
      | none => ⟨.returned threadResultEmptyRequest data, effects, []⟩
      | some request =>
        let uri := request.line.uri
        if uri.head? = some 47 ∧ 1 < uri.length then respondFile env data uri effects
        else if uri.head? = some 47 ∧ uri.length = 1 then respondListing env data effects
        else respondStatus env data 400 http400Phrase effects []
    else ⟨.null, effects, []⟩

end SelectServer
