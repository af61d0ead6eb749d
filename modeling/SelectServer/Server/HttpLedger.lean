import SelectServer.Server.HttpTurns
import SelectServer.Server.Ledger
import SelectServer.Server.HeaderHeap

/-!
# What an HTTP client costs the server

The records of the HTTP clients are on the heap, with the request that waits for its answer,
and the handlers allocate a `Thread_Result`, the path and the size of a file, the response with
its headers and its content, and the buffers of the send. `handle_client_http_read`,
`handle_client_http_write` and what the loop does with `http_clients` stand here with what they
do to the heap.

A write frees the request and all that it has allocated, or it reports an error and has lost six
blocks at most (`endsOn_handleClientHttpWrite`): the content of a file that cannot be read, and an
array of headers that its last `realloc` loses, or the text of headers that are not sent. A read
stores its request over the one that waits. So a client costs each request that it does not let
the server answer before the next one, and what the write that ends it has lost
(`http_client_costs`). Where a handler does not return, nothing is said: it may free the array of
headers of a response whose last slot holds a string that was freed.
-/

namespace SelectServer

open CLib Systems

/-! ## The handlers -/

/-- The array that `create_headers` and the three `add_header` calls build. -/
def buildHeadersOn (env : WriteEnv) (contentType : List UInt8) (size : Int) :
    HeapM (Option HeldPacked) :=
  createHeadersOn env.addHeader env.headers (responseHeaders contentType size)

/-- The response with its headers and its content. -/
def HeldHttp.withContent {L : Type} {words : Nat} (m : HeldHttp L words) (array : HeldArray)
    (body : Nat × List UInt8) (bodyLength : Int) : HeldHttp L words :=
  { m with headers := some array, body := some body, bodyLength }

theorem HeldHttp.plain_withContent {L : Type} {words : Nat} (m : HeldHttp L words)
    (array : HeldArray) (body : Nat × List UInt8) (bodyLength : Int) :
    (m.withContent array body bodyLength).plain =
      { m.plain with headers := array.headers, body := some body.2, bodyLength } := rfl

/-- `Client_Http_Data` with its blocks. -/
structure HeldHttpClient where
  block : Nat
  clientSockfd : Int
  request : Option HeldRequest
  response : Option HeldResponse

/-- The record without its blocks. -/
def HeldHttpClient.plain (c : HeldHttpClient) : ClientHttpData :=
  ⟨c.clientSockfd, c.request.map HeldHttp.plain, c.response.map HeldHttp.plain⟩

/-- The blocks of a record. -/
def HeldHttpClient.blocks (c : HeldHttpClient) : Multiset Nat :=
  {c.block} + httpBlocks c.request + httpBlocks c.response

/-- The result of a handler of HTTP clients. -/
abbrev HttpResult := Option (HeldResult HeldHttpClient)

/-- The result without its blocks. -/
def handled : HttpResult → Handled
  | none => .null
  | some r => .returned r.value r.data.plain

/-- `handle_client_http_read` on the heap: the pointer to the request is overwritten, whatever is
received. -/
def handleClientHttpReadOn (threadResult : Bool) (mem : ReceiveMemory) (data : HeldHttpClient)
    (socket : ByteSource UInt8) : HeapM (HttpResult × ByteSource UInt8) :=
  if threadResult then do
    let block ← malloc
    match ← receiveHttpRequestOn mem socket with
    | (none, socket) =>
      pure (some ⟨block, threadResultError, { data with request := none }⟩, socket)
    | (some request, socket) =>
      pure (some ⟨block, threadResultSuccess, { data with request := some request }⟩, socket)
  else pure (none, socket)

/-- The exits behind `send_http_response`. -/
def sendResponseOn (env : WriteEnv) (block : Nat) (data : HeldHttpClient)
    (response : HeldResponse) : HeapM HttpResult := do
  let r ← sendHttpResponseOn env.serialize response.plain env.script
  freeHttpRequest data.request
  freeHttpResponse (some response)
  pure (some ⟨block, if r.1 < 0 then threadResultError else threadResultSuccess,
    { data with request := none, response := none }⟩)

/-- A response without headers and body; a NULL is sent. -/
def respondStatusOn (env : WriteEnv) (block : Nat) (data : HeldHttpClient) (statusCode : Int)
    (reasonPhrase : List UInt8) : HeapM HttpResult := do
  match ← createHttpResponseOn env.response defaultHttpVersion statusCode reasonPhrase with
  | none => failure
  | some response => sendResponseOn env block data response

/-- The exits of the file branch that free a response whose headers are `p`. -/
def rejectFileOn (block : Nat) (data : HeldHttpClient) (response : HeldResponse)
    (p : Option HeldPacked) : HeapM HttpResult :=
  if packedFreeable p then do
    freeHttpRequest data.request
    freeHttpResponse (some { response with headers := p.map HeldPacked.array })
    pure (some ⟨block, threadResultError, { data with request := none, response := none }⟩)
  else failure

/-- The branch for an open file whose size is known. -/
def serveFileOn (env : WriteEnv) (block : Nat) (data : HeldHttpClient)
    (extension : List UInt8) (size : Nat) : HeapM HttpResult :=
  if env.sizeStr then do
    let sizeStr ← malloc
    let p ← buildHeadersOn env (getContentType extension) size
    -- the last `add_header` does not need the text
    free sizeStr
    match ← createHttpResponseOn env.response defaultHttpVersion 200 http200Phrase with
    | none => failure
    | some response =>
      if env.fileContent then do
        let fileContent ← malloc
        match readFileLoop size env.reads 0 (Block.malloc (size + 1) env.junk) with
        | .spins _ => failure
        -- the block for the content is not in the response yet
        | .failed _ => rejectFileOn block data response p
        | .done content =>
          match completeArray p with
          | none => failure
          | some array =>
            sendResponseOn env block data (response.withContent array
              (fileContent, (content.store size [0]).read size) (toInt32 size))
      else rejectFileOn block data response p
  else do
    freeHttpRequest data.request
    pure (some ⟨block, threadResultError, { data with request := none }⟩)

/-- The branch for a URI that names a file. -/
def respondFileOn (env : WriteEnv) (block : Nat) (data : HeldHttpClient) (uri : List UInt8) :
    HeapM HttpResult :=
  if env.fullPath then do
    let fullPath ← malloc
    match strrchr 46 (resourcesFolder ++ uri) with
    | none => do
      free fullPath
      respondStatusOn env block data 400 http400Phrase
    | some lastOccurrence => do
      free fullPath
      let fd := env.openFile (resourcesFolder ++ uri)
      match if 0 < fd then env.fstat else none with
      | some size => serveFileOn env block data lastOccurrence size
      | none =>
        if fd < 0 ∨ env.fstatAgain = false then respondStatusOn env block data 404 http404Phrase
        else do
          freeHttpRequest data.request
          freeHttpResponse data.response
          pure (some ⟨block, threadResultSuccess, { data with request := none, response := none }⟩)
  else do
    freeHttpRequest data.request
    pure (some ⟨block, threadResultError, { data with request := none }⟩)

/-- The branch for the URI `/`. The stream that `opendir` returns is not a block of the server. -/
def respondListingOn (env : WriteEnv) (block : Nat) (data : HeldHttpClient) : HeapM HttpResult :=
  match env.opendir with
  | none => pure (some ⟨block, threadResultError, data⟩)
  | some (first, second) => do
    match ← createHttpResponseOn env.response defaultHttpVersion 200 http200Phrase with
    | none => failure
    | some response =>
      let bodySize := listingSize first
      if env.body ∧ bodySize = -1 then failure
      else if env.body ∧ 0 ≤ bodySize then do
        let bodyBlock ← malloc
        let body := (listingBlock env.junk bodySize.toNat second).read bodySize.toNat
        if env.sizeStr then do
          let sizeStr ← malloc
          let p ← buildHeadersOn env (bytes "text/plain") (cstr body).length
          free sizeStr
          match completeArray p with
          | none => failure
          | some array =>
            sendResponseOn env block data (response.withContent array (bodyBlock, body) bodySize)
        else do
          freeHttpRequest data.request
          pure (some ⟨block, threadResultError,
            { data with
              request := none
              response := some { response with body := some (bodyBlock, body) } }⟩)
      else do
        freeHttpRequest data.request
        freeHttpResponse (some response)
        pure (some ⟨block, threadResultError, { data with request := none, response := none }⟩)

/-- `handle_client_http_write` on the heap. -/
def handleClientHttpWriteOn (env : WriteEnv) (data : HeldHttpClient) : HeapM HttpResult :=
  if env.threadResult then do
    let block ← malloc
    match data.request with
    | none => pure (some ⟨block, threadResultEmptyRequest, data⟩)
    | some request =>
      let uri := request.line.uri
      if uri.head? = some 47 ∧ 1 < uri.length then respondFileOn env block data uri
      else if uri.head? = some 47 ∧ uri.length = 1 then respondListingOn env block data
      else respondStatusOn env block data 400 http400Phrase
  else pure none

/-! ## What the handlers own -/

/-- What a read loses: the request that was waiting. -/
theorem owns_handleClientHttpRead {threadResult : Bool} {mem : ReceiveMemory}
    {data : HeldHttpClient} {socket : ByteSource UInt8}
    (h : (handleClientHttpRead threadResult mem (some data.plain) socket).outcome ≠ .fault) :
    Owns data.blocks (handleClientHttpReadOn threadResult mem data socket) fun r O =>
      handleClientHttpRead threadResult mem (some data.plain) socket = ⟨handled r.1, r.2⟩ ∧
        (∀ held ∈ r.1, held.data.response = data.response ∧
          ∀ request ∈ held.data.request, request.headers.isSome = true) ∧
        ∃ L, O = resultBlocks HeldHttpClient.blocks data r.1 + L ∧
          L.card = if threadResult then (httpBlocks data.request).card else 0 := by
  unfold handleClientHttpReadOn
  unfold handleClientHttpRead at h ⊢
  cases threadResult with
  | false => exact Owns.pure ⟨rfl, by simp, 0, (add_zero _).symm, rfl⟩
  | true =>
    simp only [if_true] at h ⊢
    have hreceive : ∀ f, (receiveHttpRequest mem socket).outcome ≠ .fault f := by
      intro f hfault
      apply h
      simp only [hfault]
    apply Owns.malloc_bind
    intro block
    apply (owns_receiveHttpRequest hreceive).call
    rintro ⟨request, rest⟩ O ⟨houtcome, rfl, rfl, hheaders⟩
    -- what is received takes the place of the request that was there
    have hoverwritten : httpBlocks request + ({block} + data.blocks) = {block} +
        HeldHttpClient.blocks { data with request := request } + httpBlocks data.request := by
      simp only [HeldHttpClient.blocks]
      abel
    rw [hoverwritten]
    simp only [houtcome]
    cases request with
    | none => exact Owns.pure ⟨rfl, by simp, _, rfl, rfl⟩
    | some request =>
      refine Owns.pure ⟨rfl, ?_, _, rfl, rfl⟩
      rintro held hheld
      obtain rfl := Option.some.inj hheld
      exact ⟨rfl, hheaders⟩

/-- What a handler with this result may have lost. -/
def mostLost : HttpResult → Nat
  | none => 0
  | some r => if r.value = threadResultError then 6 else 0

/-- A write handler that returns does on the heap what it does without one. It leaves neither a
request nor a response and has lost nothing, unless it reports an error. -/
def EndsOn (data : HeldHttpClient) (P : Multiset Nat) (m : HeapM HttpResult)
    (outcome : Handled) : Prop :=
  outcome.Returns → Owns P m fun r O => handled r = outcome ∧
    (∀ held ∈ r, held.value = threadResultError ∨
      held.data.request = none ∧ held.data.response = none) ∧
    ∃ L, O = resultBlocks HeldHttpClient.blocks data r + L ∧ L.card ≤ mostLost r

section Writes

/-- The blocks of a response that was created without headers and body. -/
theorem httpBlocks_withContent {response : HeldResponse} (array : HeldArray)
    (body : Nat × List UInt8) (bodyLength : Int)
    (hempty : response.headers = none ∧ response.body = none) :
    httpBlocks (some (response.withContent array body bodyLength)) =
      {body.1} + (httpBlocks (some response) + arrayBlocks (some array)) := by
  obtain ⟨hheaders, hbody⟩ := hempty
  simp only [httpBlocks, HeldHttp.withContent, hheaders, hbody, arrayBlocks, Option.map_none,
    Option.map_some, Option.toList_none, Option.toList_some, Multiset.coe_nil,
    Multiset.coe_singleton]
  abel

theorem httpBlocks_withHeaders {response : HeldResponse} (p : Option HeldPacked)
    (hempty : response.headers = none) :
    httpBlocks (some { response with headers := p.map HeldPacked.array }) =
      httpBlocks (some response) + packedBlocks p := by
  simp only [httpBlocks, packedBlocks, hempty, arrayBlocks]
  abel

/-- Request and response can be freed from the record. -/
theorem HeldHttpClient.blocks_eq (c : HeldHttpClient) :
    c.blocks = httpBlocks c.request + (httpBlocks c.response +
      HeldHttpClient.blocks { c with request := none, response := none }) := by
  simp only [HeldHttpClient.blocks, httpBlocks]
  abel

variable {data : HeldHttpClient} (env : WriteEnv) (block : Nat)
  (effects : List Effect) (blocks : List Block)

section Rules

variable {α : Type} {P : Multiset Nat} {R : α → Multiset Nat → Prop} {outcome : Handled}

/-- An error is reported, and the blocks beside those of the result are lost. -/
theorem endsOn_error (data' : HeldHttpClient) (hresult : P = {block} + data'.blocks)
    (houtcome : outcome = .returned threadResultError data'.plain) {L : Multiset Nat}
    (hlost : L.card ≤ 6) :
    EndsOn data (P + L) (pure (some ⟨block, threadResultError, data'⟩)) outcome := by
  intro _
  refine Owns.pure ⟨houtcome.symm, ?_, L, by rw [hresult]; rfl, hlost⟩
  rintro held hheld
  obtain rfl := Option.some.inj hheld
  exact Or.inl rfl

theorem endsOn_error_keeping (data' : HeldHttpClient) (hresult : P = {block} + data'.blocks)
    (houtcome : outcome = .returned threadResultError data'.plain) :
    EndsOn data P (pure (some ⟨block, threadResultError, data'⟩)) outcome := by
  rw [← add_zero P]
  exact endsOn_error block data' hresult houtcome (Nat.zero_le 6)

/-- The text of the size is there while the headers are built. -/
theorem owns_sizedHeaders {env : WriteEnv} {contentType : List UInt8} {size : Int}
    {arr : HeaderArray} (harr : buildHeaders env contentType size = some arr)
    {f : Option HeldPacked → HeapM α}
    (hf : ∀ p L, arr.live = (completeArray p).map HeldArray.headers →
      arr.freeable = packedFreeable p → (L.card ≤ if p.isNone then 5 else 0) →
      Owns (packedBlocks p + L + P) (f p) R) :
    Owns P (malloc >>= fun sizeStr => buildHeadersOn env contentType size >>= fun p =>
      free sizeStr >>= fun _ => f p) R := by
  apply Owns.malloc_bind
  intro sizeStr
  apply (owns_createHeaders harr).call
  rintro p O ⟨hlive, hfreeable, L, rfl, hcard⟩
  rw [add_left_comm]
  exact Owns.free_bind (hf p L hlive hfreeable hcard)

/-- A complete array is not lost. -/
theorem packedBlocks_of_complete {p : Option HeldPacked} {array : HeldArray}
    (h : completeArray p = some array) {L : Multiset Nat}
    (hlost : L.card ≤ if p.isNone then 5 else 0) :
    packedBlocks p + L = arrayBlocks (some array) := by
  obtain ⟨p, rfl, hp⟩ := Option.bind_eq_some_iff.mp h
  obtain ⟨-, harray⟩ := Option.ite_none_right_eq_some.mp hp
  obtain rfl := Option.some.inj harray
  have hzero : L = 0 := Multiset.card_eq_zero.mp (Nat.le_zero.mp hlost)
  rw [hzero, add_zero]
  rfl

theorem owns_createdResponse {alloc : Bool} {version : List UInt8} {statusCode : Int}
    {reasonPhrase : List UInt8} {response : HTTPResponse}
    (hcreated : createHttpResponse alloc version statusCode reasonPhrase [] none = some response)
    {f : Option HeldResponse → HeapM α} (hf : ∀ held : HeldResponse, held.plain = response →
      held.headers = none ∧ held.body = none →
        Owns (httpBlocks (some held) + P) (f (some held)) R) :
    Owns P (createHttpResponseOn alloc version statusCode reasonPhrase >>= f) R := by
  apply (owns_createHttpResponse alloc version statusCode reasonPhrase).call
  rintro held O ⟨hheld, rfl, hempty⟩
  obtain ⟨held, rfl, hplain⟩ := Option.map_eq_some_iff.mp (hheld.symm.trans hcreated)
  exact hf held hplain (hempty held rfl)

end Rules

/-- The branches that report an error before there is a response free the request alone. -/
theorem endsOn_rejectRequest :
    EndsOn data ({block} + data.blocks)
      (freeHttpRequest data.request >>= fun _ =>
        pure (some ⟨block, threadResultError, { data with request := none }⟩))
      (.returned threadResultError { data.plain with request := none }) := by
  intro hreturns
  have hblocks : {block} + data.blocks = httpBlocks data.request +
      ({block} + HeldHttpClient.blocks { data with request := none }) := by
    simp only [HeldHttpClient.blocks, httpBlocks]
    abel
  rw [hblocks]
  exact owns_freeHttpMessage
    (endsOn_error_keeping block { data with request := none } rfl rfl hreturns) _

/-- A response that is not serialised is an error, and loses the text of its headers at most. -/
theorem endsOn_sendResponse (hresponse : data.response = none) (response : HeldResponse) :
    EndsOn data (httpBlocks (some response) + ({block} + data.blocks))
      (sendResponseOn env block data response)
      (sendResponse env data.plain response.plain effects blocks).outcome := by
  intro hreturns
  cases hsent : sendHttpResponse env.serialize response.plain env.script with
  | none => simp [sendResponse, hsent, Handled.Returns] at hreturns
  | some sent =>
    -- serialising loses the text of the headers at most, and only where it fails
    have hlost : sendLost env.serialize response.plain ≤ 1 ∧
        (¬ sent.1 < 0 → sendLost env.serialize response.plain = 0) := by
      unfold sendLost
      split
      · rename_i hlost
        refine ⟨Nat.le_refl 1, fun hret => absurd ?_ hret⟩
        rw [Bool.and_eq_true, Bool.not_eq_true'] at hlost
        rw [sendHttpResponse] at hsent
        cases hs : serializeHttpResponse env.serialize response.plain with
        | null =>
          rw [hs] at hsent
          rw [← Option.some.inj hsent]
          exact neg_one_lt_zero
        | fault f =>
          rw [hs] at hsent
          cases hsent
        | returned s =>
          rw [hs] at hlost
          exact absurd hlost.2 Bool.true_eq_false_eq_False
      · exact ⟨Nat.zero_le 1, fun _ => rfl⟩
    apply (owns_sendHttpResponse hsent).call
    rintro r L ⟨rfl, hcard⟩
    have hblocks : L + (httpBlocks (some response) + ({block} + data.blocks)) =
        httpBlocks data.request + (httpBlocks (some response) + (({block} +
          HeldHttpClient.blocks { data with request := none, response := none }) + L)) := by
      -- the record had no response, so nothing is lost where this one is stored
      rw [data.blocks_eq, hresponse, httpBlocks]
      abel
    -- request and response are freed, whether the response went out or not
    rw [hblocks]
    apply owns_freeHttpMessage
    apply owns_freeHttpMessage
    refine Owns.pure ⟨?_, ?_, L, rfl, ?_⟩
    · simp only [handled, sendResponse, hsent]
      rfl
    · rintro held hheld
      obtain rfl := Option.some.inj hheld
      exact Or.inr ⟨rfl, rfl⟩
    · rw [hcard]
      by_cases hret : r.1 < 0
      · simp only [mostLost, if_pos hret, if_true]
        exact hlost.1.trans (by decide)
      · rw [hlost.2 hret]
        exact Nat.zero_le _

theorem endsOn_respondStatus (hresponse : data.response = none) (statusCode : Int)
    (reasonPhrase : List UInt8) :
    EndsOn data ({block} + data.blocks)
      (respondStatusOn env block data statusCode reasonPhrase)
      (respondStatus env data.plain statusCode reasonPhrase effects blocks).outcome := by
  intro hreturns
  apply (owns_createHttpResponse env.response defaultHttpVersion statusCode reasonPhrase).call
  rintro response O ⟨hcreated, rfl, -⟩
  rw [respondStatus, hcreated] at hreturns ⊢
  cases response with
  | none => exact hreturns.elim
  | some response => exact endsOn_sendResponse env block effects blocks hresponse response hreturns

/-- A response that is not sent is freed with its array, if that can be freed; what is lost are
the blocks beside them. -/
theorem endsOn_rejectFile (hresponse : data.response = none) {response : HeldResponse}
    (hempty : response.headers = none) {arr : HeaderArray} {p : Option HeldPacked}
    (hfreeable : arr.freeable = packedFreeable p) {L : Multiset Nat} (hlost : L.card ≤ 6) :
    EndsOn data (httpBlocks (some response) + (packedBlocks p + ({block} + data.blocks)) + L)
      (rejectFileOn block data response p) (rejectFile data.plain arr effects blocks).outcome := by
  intro hreturns
  unfold rejectFile at hreturns ⊢
  unfold rejectFileOn
  cases hfree : packedFreeable p with
  | false => simp [hfreeable, hfree, Handled.Returns] at hreturns
  | true =>
    simp only [hfreeable, hfree, if_true] at hreturns ⊢
    have hblocks : httpBlocks (some response) + (packedBlocks p + ({block} + data.blocks)) + L =
        httpBlocks data.request + (httpBlocks (some { response with
          headers := p.map HeldPacked.array }) + (({block} + HeldHttpClient.blocks
            { data with request := none, response := none }) + L)) := by
      rw [httpBlocks_withHeaders p hempty, data.blocks_eq, hresponse, httpBlocks]
      abel
    rw [hblocks]
    exact owns_freeHttpMessage (owns_freeHttpMessage
      (endsOn_error block { data with request := none, response := none } rfl rfl hlost trivial)
      _) _

theorem endsOn_serveFile (hresponse : data.response = none) (extension : List UInt8) (fd : Int)
    (size : Nat) :
    EndsOn data ({block} + data.blocks) (serveFileOn env block data extension size)
      (serveFile env data.plain extension fd size effects blocks).outcome := by
  intro hreturns
  unfold serveFileOn
  unfold serveFile at hreturns ⊢
  cases hsizeStr : env.sizeStr with
  | false =>
    -- without memory for the size the request alone is freed
    simp only [Bool.false_eq_true, if_false]
    exact endsOn_rejectRequest block trivial
  | true =>
    cases harr : buildHeaders env (getContentType extension) size with
    | none => simp [hsizeStr, harr, Handled.Returns] at hreturns
    | some arr =>
      cases hcreated : createHttpResponse env.response defaultHttpVersion 200 http200Phrase []
          none with
      | none => simp [hsizeStr, harr, hcreated, Handled.Returns] at hreturns
      | some response =>
        simp only [hsizeStr, harr, hcreated, if_true] at hreturns ⊢
        -- the headers are in the array `p`, or lost in `L`
        apply owns_sizedHeaders harr
        intro p L hlive hfreeable hlost
        have hfive : L.card ≤ 5 := by
          split at hlost
          · exact hlost
          · exact hlost.trans (by decide)
        apply owns_createdResponse hcreated
        rintro held rfl hempty
        cases hcontent : env.fileContent with
        | false =>
          simp only [hcontent, Bool.false_eq_true, if_false] at hreturns ⊢
          have hblocks : httpBlocks (some held) + (packedBlocks p + L + ({block} + data.blocks)) =
              httpBlocks (some held) + (packedBlocks p + ({block} + data.blocks)) + L := by
            abel
          rw [hblocks]
          -- no memory for the content: response and headers are freed
          exact endsOn_rejectFile block _ _ hresponse hempty.1 hfreeable
            (hfive.trans (by decide)) hreturns
        | true =>
          simp only [hcontent, if_true] at hreturns ⊢
          apply Owns.malloc_bind
          intro fileContent
          cases hloop : readFileLoop size env.reads 0 (Block.malloc (size + 1) env.junk) with
          | spins content => simp [hloop, Handled.Returns] at hreturns
          | failed content =>
            simp only [hloop] at hreturns ⊢
            -- the content is lost as well
            have hblocks : {fileContent} + (httpBlocks (some held) + (packedBlocks p + L +
                ({block} + data.blocks))) = httpBlocks (some held) + (packedBlocks p +
                  ({block} + data.blocks)) + ({fileContent} + L) := by
              abel
            rw [hblocks]
            refine endsOn_rejectFile block _ _ hresponse hempty.1 hfreeable ?_ hreturns
            rw [Multiset.card_add, Multiset.card_singleton]
            omega
          | done content =>
            simp only [hloop] at hreturns ⊢
            cases hcomplete : completeArray p with
            | none =>
              rw [hcomplete] at hlive
              simp [hlive, Handled.Returns] at hreturns
            | some array =>
              rw [hcomplete, Option.map_some] at hlive
              rw [packedBlocks_of_complete hcomplete hlost]
              simp only [hlive] at hreturns ⊢
              -- all of the content is there: it is sent, and freed with the response
              have hsend := fun e b => endsOn_sendResponse env block e b hresponse
                (held.withContent array (fileContent, (content.store size [0]).read size)
                  (toInt32 size))
              simp only [HeldHttp.plain_withContent] at hsend
              have hblocks := httpBlocks_withContent array
                (fileContent, (content.store size [0]).read size) (toInt32 size) hempty
              rw [← add_assoc (httpBlocks _), ← add_assoc, ← hblocks]
              exact hsend _ _ hreturns

theorem endsOn_respondFile (hresponse : data.response = none) (uri : List UInt8) :
    EndsOn data ({block} + data.blocks) (respondFileOn env block data uri)
      (respondFile env data.plain uri effects).outcome := by
  intro hreturns
  unfold respondFileOn
  unfold respondFile at hreturns ⊢
  cases hpath : env.fullPath with
  | false =>
    simp only [Bool.false_eq_true, if_false]
    exact endsOn_rejectRequest block trivial
  | true =>
    simp only [hpath, if_true] at hreturns ⊢
    apply Owns.malloc_bind
    intro fullPath
    cases hdot : strrchr 46 (resourcesFolder ++ uri) with
    | none =>
      simp only [hdot] at hreturns ⊢
      exact Owns.free_bind
        (endsOn_respondStatus env block _ _ hresponse 400 http400Phrase hreturns)
    | some lastOccurrence =>
      simp only [hdot] at hreturns ⊢
      apply Owns.free_bind
      cases hsize : if 0 < env.openFile (resourcesFolder ++ uri) then env.fstat else none with
      | some size =>
        simp only [hsize] at hreturns ⊢
        exact endsOn_serveFile env block _ _ hresponse lastOccurrence _ size hreturns
      | none =>
        simp only [hsize] at hreturns ⊢
        by_cases hmissing : env.openFile (resourcesFolder ++ uri) < 0 ∨ env.fstatAgain = false
        · simp only [if_pos hmissing] at hreturns ⊢
          exact endsOn_respondStatus env block _ _ hresponse 404 http404Phrase hreturns
        · -- the request is freed, and no response was sent
          simp only [if_neg hmissing]
          rw [data.blocks_eq, add_left_comm, add_left_comm ({block} : Multiset Nat)]
          refine owns_freeHttpMessage (owns_freeHttpMessage (Owns.pure ⟨rfl, ?_, 0,
            (add_zero _).symm, Nat.zero_le _⟩) _) _
          rintro held hheld
          obtain rfl := Option.some.inj hheld
          exact Or.inr ⟨rfl, rfl⟩

theorem endsOn_respondListing (hresponse : data.response = none) :
    EndsOn data ({block} + data.blocks) (respondListingOn env block data)
      (respondListing env data.plain effects).outcome := by
  intro hreturns
  unfold respondListingOn
  unfold respondListing at hreturns ⊢
  cases hfolder : env.opendir with
  | none =>
    -- the folder cannot be opened: nothing has been allocated
    exact endsOn_error_keeping block data rfl rfl trivial
  | some entries =>
    obtain ⟨first, second⟩ := entries
    cases hcreated : createHttpResponse env.response defaultHttpVersion 200 http200Phrase []
        none with
    | none => simp [hfolder, hcreated, Handled.Returns] at hreturns
    | some response =>
      simp only [hfolder, hcreated] at hreturns ⊢
      apply owns_createdResponse hcreated
      rintro held rfl hempty
      -- a listing of size -1 is written behind its block
      by_cases hwraps : env.body = true ∧ listingSize first = -1
      · rw [if_pos hwraps] at hreturns
        exact hreturns.elim
      simp only [if_neg hwraps] at hreturns ⊢
      by_cases hbody : env.body = true ∧ 0 ≤ listingSize first
      · simp only [if_pos hbody] at hreturns ⊢
        apply Owns.malloc_bind
        intro bodyBlock
        generalize (listingBlock env.junk (listingSize first).toNat second).read
          (listingSize first).toNat = body at hreturns ⊢
        cases hsizeStr : env.sizeStr with
        | false =>
          -- the response stays in the record with its body
          simp only [Bool.false_eq_true, if_false]
          have hblocks : {bodyBlock} + (httpBlocks (some held) + ({block} + data.blocks)) =
              httpBlocks data.request + ({block} + HeldHttpClient.blocks { data with
                request := none
                response := some { held with body := some (bodyBlock, body) } }) := by
            simp only [HeldHttpClient.blocks, httpBlocks, hresponse, hempty.2, Option.map_none,
              Option.map_some, Option.toList_none, Option.toList_some, Multiset.coe_nil,
              Multiset.coe_singleton]
            abel
          rw [hblocks]
          exact owns_freeHttpMessage (endsOn_error_keeping block { data with
            request := none
            response := some { held with body := some (bodyBlock, body) } } rfl rfl trivial) _
        | true =>
          cases harr : buildHeaders env (bytes "text/plain") (cstr body).length with
          | none => simp [hsizeStr, harr, Handled.Returns] at hreturns
          | some arr =>
            simp only [hsizeStr, harr, if_true] at hreturns ⊢
            apply owns_sizedHeaders harr
            -- the headers are in the array `p`, or lost in `L`
            rintro p L hlive - hlost
            cases hcomplete : completeArray p with
            | none =>
              rw [hcomplete] at hlive
              simp [hlive, Handled.Returns] at hreturns
            | some array =>
              rw [hcomplete, Option.map_some] at hlive
              rw [packedBlocks_of_complete hcomplete hlost]
              simp only [hlive] at hreturns ⊢
              -- the listing is sent, and freed with the response
              have hsend := fun e b => endsOn_sendResponse env block e b hresponse
                (held.withContent array (bodyBlock, body) (listingSize first))
              simp only [HeldHttp.plain_withContent] at hsend
              have hblocks : arrayBlocks (some array) + ({bodyBlock} + (httpBlocks (some held) +
                  ({block} + data.blocks))) = httpBlocks (some (held.withContent array
                    (bodyBlock, body) (listingSize first))) + ({block} + data.blocks) := by
                rw [httpBlocks_withContent array _ _ hempty]
                abel
              rw [hblocks]
              exact hsend _ _ hreturns
      · -- no memory for the listing: response and request are freed
        simp only [if_neg hbody]
        have hblocks : httpBlocks (some held) + ({block} + data.blocks) =
            httpBlocks data.request + (httpBlocks (some held) + ({block} + HeldHttpClient.blocks
              { data with request := none, response := none })) := by
          rw [data.blocks_eq, hresponse, httpBlocks]
          abel
        rw [hblocks]
        exact owns_freeHttpMessage (owns_freeHttpMessage (endsOn_error_keeping block
          { data with request := none, response := none } rfl rfl trivial) _) _

theorem endsOn_handleClientHttpWrite (hresponse : data.response = none) :
    EndsOn data data.blocks (handleClientHttpWriteOn env data)
      (handleClientHttpWrite env (some data.plain)).outcome := by
  intro hreturns
  unfold handleClientHttpWriteOn
  unfold handleClientHttpWrite at hreturns ⊢
  cases hresult : env.threadResult with
  | false => exact Owns.pure ⟨rfl, by simp, 0, (add_zero _).symm, Nat.zero_le _⟩
  | true =>
    simp only [hresult, if_true] at hreturns ⊢
    apply Owns.malloc_bind
    intro block
    cases hrequest : data.request with
    | none =>
      simp only [HeldHttpClient.plain, hrequest, Option.map_none]
      refine Owns.pure ⟨?_, ?_, 0, (add_zero _).symm, Nat.zero_le _⟩
      · simp only [handled, HeldHttpClient.plain, hrequest, Option.map_none]
      · rintro held hheld
        obtain rfl := Option.some.inj hheld
        exact Or.inr ⟨hrequest, hresponse⟩
    | some request =>
      have hplain : data.plain.request = some request.plain := by
        rw [HeldHttpClient.plain, hrequest, Option.map_some]
      have hline : request.plain.line = request.line := rfl
      simp only [hplain, hline] at hreturns ⊢
      by_cases hfile : request.line.uri.head? = some 47 ∧ 1 < request.line.uri.length
      · simp only [if_pos hfile] at hreturns ⊢
        exact endsOn_respondFile env block _ hresponse _ hreturns
      · simp only [if_neg hfile] at hreturns ⊢
        by_cases hlisting : request.line.uri.head? = some 47 ∧ request.line.uri.length = 1
        · simp only [if_pos hlisting] at hreturns ⊢
          exact endsOn_respondListing env block _ hresponse hreturns
        · simp only [if_neg hlisting] at hreturns ⊢
          exact endsOn_respondStatus env block _ _ hresponse 400 http400Phrase hreturns

end Writes

/-! ## An entry of the array -/

/-- An HTTP client of the server: its record and its stream, and whether the loop goes on. -/
structure HeldHttpConnection where
  data : HeldHttpClient
  socket : ByteSource UInt8
  isOpen : Bool

/-- `free_client_http_data`, less the `close`. -/
def freeClientHttpData (c : HeldHttpClient) : HeapM Unit := do
  freeHttpRequest c.request
  freeHttpResponse c.response
  free c.block

/-- What `handle_connections` makes of the result of a handler. -/
def HeldHttpConnection.finishOn (c : HeldHttpConnection) (result : HttpResult) :
    HeapM (Option HeldHttpConnection) :=
  match result with
  | none => pure (some { c with isOpen := false })
  | some r =>
    if r.value = threadResultError ∨ r.value = threadResultClosed then do
      freeClientHttpData r.data
      free r.block
      pure none
    else do
      free r.block
      pure (some { c with data := r.data })

/-- A pass of the loop over a client that is still there. -/
def HeldHttpConnection.passOn (c : HeldHttpConnection) :
    HttpPass → HeapM (Option HeldHttpConnection)
  | .read threadResult mem => do
    let r ← handleClientHttpReadOn threadResult mem c.data c.socket
    { c with socket := r.2 }.finishOn r.1
  | .write env => do
    let r ← handleClientHttpWriteOn env c.data
    c.finishOn r
  | .dropped => do
    freeClientHttpData c.data
    pure none

/-- A pass at an element of `http_clients`. -/
def httpEntryPassOn (entry : Option HeldHttpConnection) (pass : HttpPass) :
    HeapM (Option HeldHttpConnection) :=
  match entry with
  | none => pure none
  | some c => if c.isOpen then c.passOn pass else pure (some c)

/-! ## What a client costs -/

/-- The blocks of a request that was received: its struct, the strings of its first line, its
headers and its body. -/
def requestBlocks : Option HTTPRequest → Nat
  | none => 0
  | some request => 5 + 2 * request.headers.length + request.body.toList.length

/-- The blocks of the request that a pass overwrites: a read without memory for its result leaves
the record as it is. -/
def overwritten (s : HttpConnection) : HttpPass → Nat
  | .read threadResult _ => if threadResult then requestBlocks s.data.request else 0
  | .write _ | .dropped => 0

/-- The blocks of the requests that a run overwrites. -/
def overwrittenBlocks : HttpConnection → List HttpPass → Nat
  | _, [] => 0
  | s, pass :: passes =>
    overwritten s pass + (httpPass s pass).elim 0 fun s' => overwrittenBlocks s' passes

/-- The handler of the pass gets to a `return`. -/
def HandlerReturns (s : HttpConnection) : HttpPass → Prop
  | .read threadResult mem =>
    (handleClientHttpRead threadResult mem (some s.data) s.socket).outcome.Returns
  | .write env => (handleClientHttpWrite env (some s.data)).outcome.Returns
  | .dropped => True

instance (s : HttpConnection) : DecidablePred (HandlerReturns s)
  | .read threadResult mem => inferInstanceAs (Decidable
      (handleClientHttpRead threadResult mem (some s.data) s.socket).outcome.Returns)
  | .write env => inferInstanceAs
      (Decidable (handleClientHttpWrite env (some s.data)).outcome.Returns)
  | .dropped => isTrue trivial

/-- The client on the heap is the one without blocks; it has no response, and its request has
been received. -/
structure HeldHttpConnection.Shows (c : HeldHttpConnection) (s : HttpConnection) : Prop where
  data : c.data.plain = s.data
  socket : c.socket = s.socket
  isOpen : c.isOpen = s.isOpen
  response : c.data.response = none
  headers : ∀ request ∈ c.data.request, request.headers.isSome = true

theorem card_httpBlocks {request : Option HeldRequest}
    (h : ∀ held ∈ request, held.headers.isSome = true) :
    (httpBlocks request).card = requestBlocks (request.map HeldHttp.plain) := by
  cases request with
  | none => rfl
  | some held =>
    obtain ⟨array, harray⟩ := Option.isSome_iff_exists.mp (h held rfl)
    have hstrings : array.strings.length = 2 * array.entries.length := by
      simp [HeldArray.strings, HeaderEntry.addrs, List.length_flatMap, Nat.mul_comm]
    have hbody : (held.body.map Prod.fst).toList.length =
        (held.body.map Prod.snd).toList.length := by
      cases held.body with
      | none => rfl
      | some body => rfl
    simp only [httpBlocks, requestBlocks, Option.map_some, HeldHttp.plain, harray, arrayBlocks,
      Option.elim_some, HeldArray.headers, Multiset.card_add, Multiset.card_singleton,
      Multiset.coe_card, List.length_map, hstrings, hbody, held.lineBlocks.2]
    omega

variable {c : HeldHttpConnection} {s s' : HttpConnection}

theorem HeldHttpConnection.Shows.card_request (h : c.Shows s) :
    (httpBlocks c.data.request).card = requestBlocks s.data.request := by
  rw [card_httpBlocks h.headers, ← h.data]
  rfl

/-- The client is there, and its blocks beside those of `L` are those of its record; or it is not,
its connection has ended, and so many blocks are left. -/
def EntryOwns (s : HttpConnection) (overwrittenTotal : Nat) (entry : Option HeldHttpConnection)
    (O : Multiset Nat) : Prop :=
  (∃ c L, entry = some c ∧ c.Shows s ∧ O = c.data.blocks + L ∧ L.card = overwrittenTotal) ∨
    entry = none ∧ s.isOpen = false ∧ overwrittenTotal ≤ O.card ∧ O.card ≤ overwrittenTotal + 6

theorem owns_freeClientHttpData {α : Type} {P : Multiset Nat} {m : HeapM α}
    {R : α → Multiset Nat → Prop} (hm : Owns P m R) (c : HeldHttpClient) :
    Owns (c.blocks + P) (freeClientHttpData c >>= fun _ => m) R := by
  have hblocks : c.blocks + P =
      httpBlocks c.request + (httpBlocks c.response + ({c.block} + P)) := by
    rw [HeldHttpClient.blocks]
    abel
  rw [hblocks, freeClientHttpData]
  simp only [bind_assoc]
  exact owns_freeHttpMessage (owns_freeHttpMessage (Owns.free_bind hm) _) _

/-- What a handler has left to the loop: the record is freed behind an error, with all that it
refers to, and it stays otherwise. -/
theorem owns_finishHttpOn (hshows : c.Shows s) (socket : ByteSource UInt8) {result : HttpResult}
    {outcome : Handled} (houtcome : handled result = outcome)
    (events : List (Turn HTTPRequest (List UInt8)))
    (hleaves : ∀ held ∈ result, held.value = threadResultError ∨ held.data.response = none ∧
      ∀ request ∈ held.data.request, request.headers.isSome = true)
    {L : Multiset Nat} {n : Nat} (hcard : n ≤ L.card) (hmost : L.card ≤ n + mostLost result) :
    Owns (resultBlocks HeldHttpClient.blocks c.data result + L)
      ({ c with socket := socket }.finishOn result)
      (EntryOwns ({ s with socket := socket }.finish outcome events) n) := by
  subst houtcome
  cases result with
  | none =>
    -- NULL ends the loop, and the record stays
    have hlost : L.card = n := hmost.antisymm hcard
    exact Owns.pure (Or.inl ⟨_, L, rfl, ⟨hshows.data, rfl, rfl, hshows.response, hshows.headers⟩,
      rfl, hlost⟩)
  | some r =>
    unfold HeldHttpConnection.finishOn resultBlocks
    simp only [handled, HttpConnection.finish]
    by_cases hvalue : r.value = threadResultError ∨ r.value = threadResultClosed
    · simp only [if_pos hvalue]
      have hmost' : L.card ≤ n + 6 := by
        refine hmost.trans (Nat.add_le_add_left ?_ n)
        rw [mostLost]
        split
        · exact Nat.le_refl 6
        · exact Nat.zero_le 6
      rw [add_right_comm, add_comm]
      apply owns_freeClientHttpData
      exact Owns.free_bind (Owns.pure (Or.inr ⟨rfl, rfl, hcard, hmost'⟩))
    · simp only [if_neg hvalue]
      have herror : ¬ r.value = threadResultError := fun h => hvalue (Or.inl h)
      have hlost : L.card = n := by
        rw [mostLost, if_neg herror, add_zero] at hmost
        exact hmost.antisymm hcard
      obtain ⟨hresponse, hheaders⟩ := (hleaves r rfl).resolve_left herror
      rw [add_assoc]
      exact Owns.free_bind (Owns.pure (Or.inl ⟨_, L, rfl,
        ⟨rfl, rfl, hshows.isOpen, hresponse, hheaders⟩, rfl, hlost⟩))

/-- A pass whose handler returns loses the request that a read finds waiting, and the one that
ends the connection six blocks more at most. -/
theorem owns_httpPassOn {pass : HttpPass} (hshows : c.Shows s) (hpass : httpPass s pass = some s')
    (hreturns : HandlerReturns s pass) :
    Owns c.data.blocks (c.passOn pass) (EntryOwns s' (overwritten s pass)) := by
  cases pass with
  | read threadResult mem =>
    simp only [httpPass, Option.ite_none_right_eq_some, Option.some.injEq] at hpass
    obtain ⟨-, rfl⟩ := hpass
    have hdefined : (handleClientHttpRead threadResult mem (some c.data.plain)
        c.socket).outcome ≠ .fault := by
      intro hfault
      rw [hshows.data, hshows.socket] at hfault
      rw [HandlerReturns, hfault] at hreturns
      exact hreturns
    apply (owns_handleClientHttpRead hdefined).bind
    rintro ⟨result, socket⟩ O ⟨hread, hleaves, L, rfl, hcard⟩
    have hcard' : L.card = overwritten s (.read threadResult mem) := by
      rw [hcard, hshows.card_request, overwritten]
    rw [hshows.data, hshows.socket] at hread
    rw [hread]
    refine owns_finishHttpOn hshows socket rfl _ (fun held hheld => ?_) hcard'.ge
      (hcard'.le.trans (Nat.le_add_right _ _))
    obtain ⟨hresponse, hheaders⟩ := hleaves held hheld
    exact Or.inr ⟨hresponse.trans hshows.response, hheaders⟩
  | write env =>
    simp only [httpPass, Option.ite_none_right_eq_some, Option.some.injEq] at hpass
    obtain ⟨-, rfl⟩ := hpass
    have hwrites := endsOn_handleClientHttpWrite env hshows.response
    rw [hshows.data] at hwrites
    apply (hwrites hreturns).bind
    rintro result O ⟨hwrite, hleaves, L, rfl, hcard⟩
    have hsame : { s with socket := c.socket } = s := by
      rw [hshows.socket]
    rw [← hsame]
    refine owns_finishHttpOn hshows c.socket hwrite _ (fun held hheld => ?_) (Nat.zero_le _)
      (hcard.trans (Nat.le_add_left _ _))
    refine (hleaves held hheld).imp_right fun hnone => ⟨hnone.2, ?_⟩
    simp [hnone.1]
  | dropped =>
    simp only [httpPass, Option.ite_none_right_eq_some, Option.some.injEq] at hpass
    obtain ⟨-, rfl⟩ := hpass
    rw [← add_zero c.data.blocks]
    exact owns_freeClientHttpData (Owns.pure (Or.inr ⟨rfl, rfl, Nat.zero_le _, Nat.zero_le _⟩)) _

/-- The client that was just accepted, with the block of its record. -/
def HeldHttpConnection.accepted (block : Nat) (sockfd : Int) (socket : ByteSource UInt8) :
    HeldHttpConnection := ⟨⟨block, sockfd, none, none⟩, socket, true⟩

/-- The connection ends in `s` behind the passes to come, whose handlers return, and what they
will overwrite is missing from `total`. -/
def TracksRequestCosts (s : HttpConnection) (total : Nat) (passes : List HttpPass)
    (entry : Option HeldHttpConnection) (O : Multiset Nat) : Prop :=
  ∃ s₀ n, EntryOwns s₀ n entry O ∧ run httpPass s₀ passes = some s ∧
    Meets httpPass HandlerReturns s₀ passes ∧ n + overwrittenBlocks s₀ passes = total

theorem owns_httpEntryPass {total : Nat} (pass : HttpPass) (passes : List HttpPass)
    (entry : Option HeldHttpConnection) (P : Multiset Nat)
    (h : TracksRequestCosts s total (pass :: passes) entry P) :
    Owns P (httpEntryPassOn entry pass) (TracksRequestCosts s total passes) := by
  obtain ⟨s₀, n, howns, hrun, hmeets, htotal⟩ := h
  obtain ⟨s₁, hpass, hrest⟩ := run_cons_eq_some.mp hrun
  obtain ⟨hreturns, hmeets⟩ := hmeets
  have hopen : s₀.isOpen = true := isOpen_of_httpPass hpass
  rw [overwrittenBlocks, hpass, Option.elim_some] at htotal
  rcases howns with ⟨c, L, rfl, hshows, rfl, hcard⟩ | ⟨-, hclosed, -⟩
  · unfold httpEntryPassOn
    simp only [if_pos (hshows.isOpen.trans hopen)]
    apply ((owns_httpPassOn hshows hpass hreturns).frame L).mono
    rintro entry' O ⟨O', rfl, howns⟩
    refine ⟨s₁, n + overwritten s₀ pass, ?_, hrest, hmeets s₁ hpass, by omega⟩
    rcases howns with ⟨c', L', rfl, hshows', rfl, hcard'⟩ | ⟨rfl, hclosed, hle, hge⟩
    · refine Or.inl ⟨c', L' + L, rfl, hshows', add_assoc _ _ _, ?_⟩
      rw [Multiset.card_add, hcard, hcard', Nat.add_comm]
    · refine Or.inr ⟨rfl, hclosed, ?_, ?_⟩
      · rw [Multiset.card_add]
        omega
      · rw [Multiset.card_add]
        omega
  · exact absurd (hclosed.symm.trans hopen) Bool.false_ne_true

/-- In every run of the handlers over a connection in which each of them returns, whatever calls
fail and whatever else is on the heap, no block is freed that is not there. A client that the
array still has costs its record, the request that waits for its answer, and each request that a
read has found waiting; one whose record was freed has left the latter behind, and six blocks at
most of the pass that ended it. -/
theorem http_client_costs {sockfd : Int} {socket : ByteSource UInt8} {passes : List HttpPass}
    (hrun : run httpPass (.accepted sockfd socket) passes = some s)
    (hreturns : Meets httpPass HandlerReturns (.accepted sockfd socket) passes) (block : Nat) :
    Owns {block} (passes.foldlM httpEntryPassOn (some (.accepted block sockfd socket)))
      fun entry O =>
        (∃ c, entry = some c ∧ c.data.plain = s.data ∧ c.isOpen = s.isOpen ∧
          O.card = 1 + requestBlocks s.data.request +
            overwrittenBlocks (.accepted sockfd socket) passes) ∨
        entry = none ∧ s.isOpen = false ∧
          overwrittenBlocks (.accepted sockfd socket) passes ≤ O.card ∧
          O.card ≤ overwrittenBlocks (.accepted sockfd socket) passes + 6 := by
  have hshows : (HeldHttpConnection.accepted block sockfd socket).Shows
      (.accepted sockfd socket) := ⟨rfl, rfl, rfl, rfl, by simp [HeldHttpConnection.accepted]⟩
  have hinit : TracksRequestCosts s (overwrittenBlocks (.accepted sockfd socket) passes) passes
      (some (.accepted block sockfd socket)) {block} :=
    ⟨_, 0, Or.inl ⟨_, 0, rfl, hshows, rfl, rfl⟩, hrun, hreturns, zero_add _⟩
  apply (Owns.foldlM owns_httpEntryPass passes _ hinit).mono
  rintro entry O ⟨s₀, n, howns, hnil, -, htotal⟩
  obtain rfl := Option.some.inj hnil
  rw [overwrittenBlocks, add_zero] at htotal
  rw [← htotal]
  rcases howns with ⟨c, L, rfl, hlast, rfl, hcard⟩ | hfreed
  · refine Or.inl ⟨c, rfl, hlast.data, hlast.isOpen, ?_⟩
    have hresponse : httpBlocks c.data.response = 0 := by
      rw [hlast.response, httpBlocks]
    simp only [HeldHttpClient.blocks, Multiset.card_add, Multiset.card_singleton, hcard,
      hresponse, Multiset.card_zero, hlast.card_request]
    omega
  · exact Or.inr hfreed

/-- Two requests are read before one is answered, and then the client sends nothing more. -/
def overwritingPasses : List HttpPass :=
  [.read true .ideal, .read true .ideal, .read true .ideal]

theorem http_client_costs_overwritten :
    ∃ s, run httpPass (.accepted 4 twoRequests) overwritingPasses = some s ∧
      s.isOpen = false ∧ overwrittenBlocks (.accepted 4 twoRequests) overwritingPasses = 10 ∧
      ∀ block, Owns {block}
        (overwritingPasses.foldlM httpEntryPassOn (some (.accepted block 4 twoRequests)))
        fun entry O =>
          (∃ c, entry = some c ∧ c.data.plain = s.data ∧ c.isOpen = s.isOpen ∧
            O.card = 1 + requestBlocks s.data.request +
              overwrittenBlocks (.accepted 4 twoRequests) overwritingPasses) ∨
          entry = none ∧ s.isOpen = false ∧
            overwrittenBlocks (.accepted 4 twoRequests) overwritingPasses ≤ O.card ∧
            O.card ≤ overwrittenBlocks (.accepted 4 twoRequests) overwritingPasses + 6 := by
  have hsome : (run httpPass (.accepted 4 twoRequests) overwritingPasses).map
      HttpConnection.isOpen = some false := by
    decide +kernel
  obtain ⟨s, hs, hclosed⟩ := Option.map_eq_some_iff.mp hsome
  have hreturns : Meets httpPass HandlerReturns (.accepted 4 twoRequests) overwritingPasses := by
    decide +kernel
  exact ⟨s, hs, hclosed, by decide +kernel, http_client_costs hs hreturns⟩

end SelectServer
