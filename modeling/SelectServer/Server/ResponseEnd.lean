import SelectServer.Server.Failures
import SelectServer.Server.WriteExits
import SelectServer.Shared.RoundTrip

/-!
# Where a response ends

A client that receives a response can tell its end by a `Content-Length`, or by the end of the
connection. `handle_client_http_write` decides what is sent, and the main loop whether the
connection is closed, by the result of the handler: it is closed behind an error only.

So the end of a response that has been sent in part is that of the connection. A response that
has gone out whole leaves the connection open: with status 400 or 404 it announces no length,
with status 200 it announces a close that does not come (`response_end_known_iff`).
-/

namespace SelectServer

open CLib Systems

/-! ## What the client sees -/

/-- The bytes of a response up to the first blank line, and those behind it. -/
def splitHead (wire : List UInt8) : Option (List UInt8 × List UInt8) :=
  (strstr doubleEndLine wire).map fun i => (wire.take (i + 4), wire.drop (i + 4))

/-- The value of a header in the head of a response. -/
def headerIn (head key : List UInt8) : Option (List UInt8) :=
  findHeaderValue (headersOfText [] head) key

/-- The response carries a `Content-Length` equal to the length of its body. -/
def AnnouncesLength (wire : List UInt8) : Prop :=
  ∃ head body value, splitHead wire = some (head, body) ∧
    headerIn head (bytes "Content-Length") = some value ∧ atoi value = body.length

/-- The response carries `Connection: close`. -/
def AnnouncesClose (wire : List UInt8) : Prop :=
  ∃ head body, splitHead wire = some (head, body) ∧
    headerIn head (bytes "Connection") = some (bytes "close")

/-- The client can tell the end of the response, and a close that is announced comes. -/
structure EndKnown (wire : List UInt8) (closed : Prop) : Prop where
  determinable : AnnouncesLength wire ∨ closed
  closes : AnnouncesClose wire → closed

/-! ## What the main loop does -/

/-- What a run gives the thread that waits for it, if it ends. -/
def Handled.result : Handled → Option (Option Int)
  | .null => some none
  | .returned value _ => some (some value)
  | .fault | .spins => none

/-- In a run of the server, the main loop has come to an HTTP client that select has reported
for writing and not for reading. -/
structure LoopState.Writable (l : ListeningSockets) (s : LoopState) (i : Nat) : Prop where
  reached : ∃ events, run (loopStep l) (.initial l) events = some s
  phase : s.phase = .scanning i
  goesOn : s.goesOn i
  client : ∃ e, s.tables.entries .http i = some e
  notRead : i ∉ s.readFds
  write : i ∈ s.writeFds

/-- The visit of a descriptor closes its connection when the write handler ends like this. -/
def Closes (l : ListeningSockets) (s : LoopState) (i : Nat) (outcome : Handled) : Prop :=
  ∃ result answers s', outcome.result = some result ∧ answers.task = .done result ∧
    loopStep l s (.visit answers) = some s' ∧ s'.tables.opened i = none

section Loop

variable {l : ListeningSockets} {s : LoopState} {i : Nat}

/-- A record is that of the connection its descriptor stands for. -/
theorem LoopState.Writable.entry (h : s.Writable l i) :
    ∃ e, s.tables.entries .http i = some e ∧ e.clientSockfd = i ∧
      s.tables.opened i = some ⟨.http, e.serial⟩ ∧ i ∉ l.fds ∧ i < maxClients ∧ 0 < i := by
  obtain ⟨events, hrun⟩ := h.reached
  obtain ⟨e, he⟩ := h.client
  exact ⟨e, he, (tied_of_run hrun).agree.entry .http i e he⟩

/-- The visit gives the record of the client to the write handler. -/
theorem LoopState.Writable.loopStep_eq (h : s.Writable l i) (answers : Answers) :
    loopStep l s (.visit answers) =
      some (s.advance i (runClientTask s.tables .http .write i answers.task)) := by
  obtain ⟨e, he, -, -, hlistening, hlt, -⟩ := h.entry
  have hprotocol : protocolAt s.tables i = .http := by
    simp [protocolAt, indexInClientHttpDataArray, hlt, he]
  have hudp : i ≠ l.udp := fun heq =>
    hlistening (ListeningSockets.mem_fds.mpr (Or.inr (Or.inl heq)))
  have hvisit : visitFd l s i answers =
      some (runClientTask s.tables .http .write i answers.task) := by
    simp only [visitFd, forBody, if_neg h.notRead, if_pos h.write, if_neg hudp, hprotocol]
  simp only [loopStep, h.phase, if_pos h.goesOn, hvisit, Option.map_some]

/-- The connection is closed exactly behind an error. -/
theorem LoopState.Writable.closes_iff (h : s.Writable l i) (outcome : Handled) :
    Closes l s i outcome ↔ ∃ value data, outcome = .returned value data ∧
      (value = threadResultError ∨ value = threadResultClosed) := by
  obtain ⟨e, he, hfd, hopened, -, -, hpos⟩ := h.entry
  -- the connection is there in front of the visit
  have hkept : s.tables.opened i ≠ none := by
    rw [hopened]
    exact Option.some_ne_none _
  constructor
  · rintro ⟨result, answers, s', hresult, htask, hvisit, hnone⟩
    rw [h.loopStep_eq, htask] at hvisit
    obtain rfl := Option.some.inj hvisit
    rw [LoopState.advance_tables] at hnone
    cases result with
    | none =>
      simp only [runClientTask, he, Option.isSome_some, if_true] at hnone
      exact absurd hnone hkept
    | some value =>
      cases outcome with
      | returned value' data =>
        obtain rfl : value' = value := Option.some.inj (Option.some.inj hresult)
        refine ⟨value', data, rfl, ?_⟩
        by_contra hother
        simp only [runClientTask, he, Option.isSome_some, if_true, if_neg hother] at hnone
        exact hkept hnone
      | null => exact absurd (Option.some.inj hresult) (by simp)
      | fault => exact absurd hresult (by simp [Handled.result])
      | spins => exact absurd hresult (by simp [Handled.result])
  · rintro ⟨value, data, rfl, hvalue⟩
    refine ⟨some value, ⟨none, 0, false, .done (some value)⟩, _, rfl, rfl, h.loopStep_eq _, ?_⟩
    rw [LoopState.advance_tables]
    simp only [runClientTask, he, Option.isSome_some, if_true, if_pos hvalue, Tables.dropClient,
      Tables.freeClient, hfd, if_pos hpos, Tables.fdClr, Tables.setEntry, Tables.close]

end Loop

/-! ## What is on the wire -/

/-- The bytes of a response that is serialised begin with its head, or end inside it. -/
theorem serializeHttpResponse_prefix {mem : SerializeMemory} {response : HTTPResponse}
    {first : List UInt8} (hline : response.line.text = first ++ lineEnding) {s : Serialized}
    (hs : serializeHttpResponse mem response = .returned s) :
    (∃ n < (headBlock first response.headers).length,
        s.bytes = (headBlock first response.headers).take n) ∨
      ∃ rest, s.bytes = headBlock first response.headers ++ rest := by
  have hhead : headBlock first response.headers =
      response.line.text ++ headersText response.headers ++ lineEnding := by
    rw [headBlock_eq, hline]
  have hhold : s.block.Holds 0 (headBlock first response.headers) := by
    obtain ⟨-, -, -, -, rfl⟩ := serializeHttpResponse_eq_returned_iff.mp hs
    rw [hhead]
    simp only [HTTPMessage.fillResponse]
    cases response.body with
    | none => exact holds_responseHead _ _ _
    | some body => exact (holds_responseParts _ _ _ _).left
  rw [Serialized.bytes]
  rcases Nat.lt_or_ge s.size.toNat (headBlock first response.headers).length with hlt | hle
  · refine Or.inl ⟨_, hlt, ?_⟩
    have hread := (hhold.take s.size.toNat).read
    rwa [List.length_take, Nat.min_eq_left hlt.le] at hread
  · exact Or.inr ⟨_, hhold.read_eq_append hle⟩

/-- A response goes out whole: it is serialised, the sum of its parts is no negative `int`, its
body is not copied with a negative length, and no `send` fails before the last byte. -/
structure WriteEnv.SendsWhole (env : WriteEnv) (response : HTTPResponse) : Prop where
  memory : env.serialize.Succeeds
  size : 0 ≤ response.offered
  body : ¬ response.Overcopies
  complete : ¬ CutShort env.script response.offered.toNat

/-- `send_http_response` returns 0 exactly if the response goes out whole. -/
theorem sendHttpResponse_whole_iff {env : WriteEnv} {response : HTTPResponse}
    (hsmall : (headersText response.headers).length < 2 ^ 31) :
    (∃ s, serializeHttpResponse env.serialize response = .returned s ∧
        sendHttpResponse env.serialize response env.script = some (0, s.bytes)) ↔
      env.SendsWhole response := by
  constructor
  · rintro ⟨s, hs, hsent⟩
    obtain ⟨hmem, -, hsize, hover, hs'⟩ := serializeHttpResponse_eq_returned_iff.mp hs
    have hlength : s.bytes.length = response.offered.toNat := by
      rw [hs', Serialized.bytes, Block.length_read]
    refine ⟨hmem, hsize, hover, fun hcut => ?_⟩
    rw [← hlength, ← sendall_fails_iff] at hcut
    simp only [sendHttpResponse, hs, if_pos hcut, Option.some.injEq, Prod.mk.injEq] at hsent
    exact absurd hsent.1 (by decide)
  · rintro ⟨hmem, hsize, hover, hcomplete⟩
    have hs := serializeHttpResponse_eq_returned_iff.mpr ⟨hmem, hsmall, hsize, hover, rfl⟩
    refine ⟨_, hs, ?_⟩
    generalize hser : Serialized.mk response.offered _ = s at hs
    have hlength : s.bytes.length = response.offered.toNat := by
      rw [← hser, Serialized.bytes, Block.length_read]
    rw [← hlength, ← sendall_fails_iff] at hcomplete
    simp only [sendHttpResponse, hs, if_neg hcomplete, (sendall_whole (not_lt.mp hcomplete)).2]

/-- Every other run of `send_http_response` that returns reports an error. -/
theorem sendHttpResponse_ret {env : WriteEnv} {response : HTTPResponse}
    (hsmall : (headersText response.headers).length < 2 ^ 31)
    (hn : ¬ env.SendsWhole response) {r : Int × List UInt8}
    (h : sendHttpResponse env.serialize response env.script = some r) : r.1 < 0 := by
  rw [← sendHttpResponse_whole_iff hsmall] at hn
  rw [sendHttpResponse] at h
  cases hs : serializeHttpResponse env.serialize response with
  | null =>
    rw [hs] at h
    obtain rfl := Option.some.inj h
    decide
  | fault f =>
    rw [hs] at h
    exact absurd h.symm (Option.some_ne_none _)
  | returned s =>
    simp only [hs, Option.some.injEq] at h
    by_cases hret : (sendall s.bytes env.script).ret < 0
    · rw [← h, if_pos hret]
      exact (by decide : (-1 : Int) < 0)
    · refine absurd ⟨s, hs, ?_⟩ hn
      simp only [sendHttpResponse, hs, if_neg hret, (sendall_whole (not_lt.mp hret)).2]

section Wire

variable {first : List UInt8} {headers : List Header}

/-- Where the head is cut off there is no blank line. -/
theorem splitHead_take (hfirst : IsLine first) (hw : ∀ x ∈ headers, x.WellFormed) {n : Nat}
    (hn : n < (headBlock first headers).length) :
    splitHead ((headBlock first headers).take n) = none := by
  have hstrstr := strstr_headBlock_append hfirst hw []
  rw [List.append_nil] at hstrstr
  have hfour := four_le_length_headBlock hfirst headers
  have hnone := strstr_take_of_lt doubleEndLine_ne_nil hstrstr
    (n := n) (by rw [length_doubleEndLine]; omega)
  rw [splitHead, hnone]
  rfl

theorem splitHead_append (hfirst : IsLine first) (hw : ∀ x ∈ headers, x.WellFormed)
    (rest : List UInt8) :
    splitHead (headBlock first headers ++ rest) = some (headBlock first headers, rest) := by
  have hfour := four_le_length_headBlock hfirst headers
  rw [splitHead, strstr_headBlock_append hfirst hw, Option.map_some, Nat.sub_add_cancel hfour,
    List.take_left, List.drop_left]

theorem headerIn_headBlock (hfirst : IsLine first) (hcolon : 58 ∉ first)
    (hw : ∀ x ∈ headers, x.WellFormed) (key : List UInt8) :
    headerIn (headBlock first headers) key = findHeaderValue headers key := by
  rw [headerIn, headersOfText_headBlock hfirst hcolon hw]

end Wire

/-- A response with a well-formed head that announces a close, or has no headers at all: on a
connection that stays open its end is not known. -/
structure Unended (response : HTTPResponse) : Prop where
  line : ∃ first, response.line.text = first ++ lineEnding ∧ IsLine first ∧ 58 ∉ first
  wellFormed : ∀ x ∈ response.headers, x.WellFormed
  small : (headersText response.headers).length < 2 ^ 31
  headers : response.headers = [] ∨
    findHeaderValue response.headers (bytes "Connection") = some (bytes "close")

theorem Unended.not_endKnown {response : HTTPResponse} (h : Unended response)
    {mem : SerializeMemory} {s : Serialized}
    (hs : serializeHttpResponse mem response = .returned s) :
    ¬ EndKnown s.bytes False := by
  obtain ⟨first, hline, hfirst, hcolon⟩ := h.line
  rintro ⟨hlength, hclose⟩
  have hlength := hlength.resolve_right id
  rcases serializeHttpResponse_prefix hline hs with ⟨n, hn, hbytes⟩ | ⟨rest, hbytes⟩
  · -- a head that is cut off carries no header
    obtain ⟨head, body, value, hsplit, -⟩ := hlength
    rw [hbytes, splitHead_take hfirst h.wellFormed hn] at hsplit
    exact Option.some_ne_none _ hsplit.symm
  · have hsplit : splitHead s.bytes = some (headBlock first response.headers, rest) := by
      rw [hbytes, splitHead_append hfirst h.wellFormed]
    have hfind := headerIn_headBlock hfirst hcolon h.wellFormed
    rcases h.headers with hnone | hannounced
    · obtain ⟨head, body, value, hsplit', hvalue, -⟩ := hlength
      obtain ⟨rfl, -⟩ := Prod.mk.inj (Option.some.inj (hsplit.symm.trans hsplit'))
      rw [hfind, hnone] at hvalue
      exact Option.some_ne_none value hvalue.symm
    · exact hclose ⟨_, rest, hsplit, (hfind _).trans hannounced⟩

/-! ## Which response is sent -/

/-- The answers with which the content of an open file of `size` bytes is sent. -/
structure WriteEnv.SendsFile (env : WriteEnv) (size : Nat) : Prop where
  prepared : env.Prepared
  fileContent : env.fileContent = true
  whole : size ≤ (contentRead env.reads).length
  complete : env.HeadersComplete

/-- The answers with which the listing is sent. -/
structure WriteEnv.SendsListing (env : WriteEnv) (first second : List DirEntry) : Prop where
  listed : env.Listed first second
  sizeStr : env.sizeStr = true
  usable : env.HeadersUsable
  complete : env.HeadersComplete

/-- The response that a request for the URI gets to `send_http_response`, with these answers. -/
inductive WriteEnv.Responds (env : WriteEnv) (uri : List UInt8) : HTTPResponse → Prop
  | badRequest : env.BadRequest uri → env.response = true →
      env.Responds uri (statusResponse 400 http400Phrase)
  | notFound : env.NamesFile uri → env.fileSize uri = none → env.Missing uri →
      env.response = true → env.Responds uri (statusResponse 404 http404Phrase)
  | file {extension : List UInt8} {size : Nat} : env.NamesFile uri →
      strrchr 46 (resourcesFolder ++ uri) = some extension → env.fileSize uri = some size →
      env.SendsFile size → env.Responds uri (env.fileResponse extension size)
  | listing {first second : List DirEntry} : uri = [47] → env.SendsListing first second →
      env.Responds uri (env.listingResponse first second)

/-- No effect sends. -/
def NoSends (effects : List Effect) : Prop := ∀ fd wire, .send fd wire ∉ effects

/-- A run that sends this response, or one that sends nothing. -/
def SendsOnly (env : WriteEnv) (data : ClientHttpData) (run : WriteRun) (p : HTTPResponse → Prop) :
    Prop :=
  (∃ r effects blocks, (∀ r', p r' ↔ r' = r) ∧ NoSends effects ∧
    run = sendResponse env data r effects blocks) ∨ (∀ r, ¬ p r) ∧ NoSends run.effects

theorem SendsOnly.congr {env : WriteEnv} {data : ClientHttpData} {run : WriteRun}
    {p q : HTTPResponse → Prop} (h : SendsOnly env data run p) (hpq : ∀ r, p r ↔ q r) :
    SendsOnly env data run q := by
  have heq : p = q := funext fun r => propext (hpq r)
  rwa [← heq]

section Sends

variable {env : WriteEnv} {data : ClientHttpData} {effects : List Effect} {run : WriteRun}

theorem noSends_append {effects' : List Effect} (h : NoSends effects) (h' : NoSends effects') :
    NoSends (effects ++ effects') := by
  intro fd wire hmem
  exact (List.mem_append.mp hmem).elim (h fd wire) (h' fd wire)

theorem StatusExit.sendsOnly {statusCode : Int} {reasonPhrase : List UInt8}
    (h : StatusExit env data statusCode reasonPhrase effects run) (hsends : NoSends effects) :
    SendsOnly env data run fun r =>
      env.response = true ∧ r = statusResponse statusCode reasonPhrase := by
  cases h with
  | noResponse blocks hn => exact Or.inr ⟨fun r hr => hn hr.1, hsends⟩
  | sent blocks hresponse =>
    exact Or.inl ⟨_, effects, blocks, fun r => and_iff_right hresponse, hsends, rfl⟩

theorem FileExit.sendsOnly {extension : List UInt8} {fd : Int} {size : Nat}
    (h : FileExit env data effects extension fd size run) (hsends : NoSends effects) :
    SendsOnly env data run fun r =>
      env.SendsFile size ∧ r = env.fileResponse extension size := by
  have hclosed : NoSends (effects ++ [.close fd, .unlock .lockFile]) :=
    noSends_append hsends (by simp [NoSends])
  cases h with
  | noSizeStr blocks hsize =>
    refine Or.inr ⟨fun r hr => ?_, noSends_append hsends (by simp [NoSends])⟩
    exact Bool.false_ne_true (hsize.symm.trans hr.1.prepared.sizeStr)
  | notPrepared blocks hn => exact Or.inr ⟨fun r hr => hn hr.1.prepared, hsends⟩
  | rejected blocks hprepared hfails _ =>
    refine Or.inr ⟨fun r hr => ?_, hclosed⟩
    exact (hfails hr.1.fileContent).1.not_ge hr.1.whole
  | notFreeable blocks hprepared hfails _ =>
    refine Or.inr ⟨fun r hr => ?_, hclosed⟩
    exact (hfails hr.1.fileContent).1.not_ge hr.1.whole
  | spins blocks hprepared hcontent hlt hmem =>
    exact Or.inr ⟨fun r hr => hlt.not_ge hr.1.whole, hsends⟩
  | notReadable blocks hprepared hcontent hle hn =>
    exact Or.inr ⟨fun r hr => hn hr.1.complete, hclosed⟩
  | sent blocks hprepared hcontent hle hcomplete =>
    refine Or.inl ⟨_, _, blocks, fun r => and_iff_right ?_, hclosed, rfl⟩
    exact ⟨hprepared, hcontent, hle, hcomplete⟩

theorem ListingExit.sendsOnly (h : ListingExit env data effects run)
    (hsends : NoSends effects) :
    SendsOnly env data run fun r =>
      ∃ first second, env.SendsListing first second ∧ r = env.listingResponse first second := by
  have hunlocked : NoSends (effects ++ [.unlock .lockFile]) :=
    noSends_append hsends (by simp [NoSends])
  cases h with
  | noFolder hfolder =>
    refine Or.inr ⟨?_, hsends⟩
    rintro r ⟨first, second, hr, -⟩
    exact Option.some_ne_none _ (hr.listed.opendir.symm.trans hfolder)
  | noResponse hfolder hn =>
    refine Or.inr ⟨?_, hsends⟩
    rintro r ⟨first, second, hr, -⟩
    exact hn hr.listed.response
  | wraps hwraps =>
    refine Or.inr ⟨?_, hsends⟩
    rintro r ⟨first, second, hr, -⟩
    exact hr.listed.not_wraps _ _ hwraps
  | noBody hfolder hresponse hn =>
    refine Or.inr ⟨?_, hunlocked⟩
    rintro r ⟨first, second, hr, -⟩
    obtain ⟨rfl, -⟩ := Prod.mk.inj (Option.some.inj (hfolder.symm.trans hr.listed.opendir))
    exact hn ⟨hr.listed.body, (by decide : (-1 : Int) ≤ 0).trans hr.listed.size⟩
  | noSizeStr response blocks hlisted hsize =>
    refine Or.inr ⟨?_, hunlocked⟩
    rintro r ⟨first, second, hr, -⟩
    exact Bool.false_ne_true (hsize.symm.trans hr.sizeStr)
  | notReadable blocks hlisted hsize hn =>
    refine Or.inr ⟨?_, hunlocked⟩
    rintro r ⟨first, second, hr, -⟩
    exact hn ⟨hr.usable, hr.complete⟩
  | sent blocks hlisted hsize husable hcomplete =>
    refine Or.inl ⟨_, _, blocks, fun r => ⟨?_, ?_⟩, hunlocked, rfl⟩
    · rintro ⟨first, second, hr, rfl⟩
      obtain ⟨rfl, rfl⟩ :=
        Prod.mk.inj (Option.some.inj (hlisted.opendir.symm.trans hr.listed.opendir))
      rfl
    · rintro rfl
      exact ⟨_, _, ⟨hlisted, hsize, husable, hcomplete⟩, rfl⟩

end Sends

/-- Every run of a request sends the response that its answers ask for, or nothing. -/
theorem UriExit.sendsOnly {env : WriteEnv} {data : ClientHttpData} {uri : List UInt8}
    {run : WriteRun} (h : UriExit env data uri run) :
    SendsOnly env data run (env.Responds uri) := by
  have hopened : NoSends (acquired ++ [.lock .lockFile, .openFile (resourcesFolder ++ uri)]) := by
    simp [NoSends, acquired]
  cases h with
  | badRequest hbad hexit =>
    -- a URI that is no path to a file asks for no other response
    apply (hexit.sendsOnly (by simp [NoSends, acquired])).congr
    intro r
    constructor
    · rintro ⟨hresponse, rfl⟩
      exact .badRequest hbad hresponse
    · rintro (⟨-, hresponse⟩ | ⟨hnames, -⟩ | ⟨hnames, -⟩ | ⟨hslash, -⟩)
      · exact ⟨hresponse, rfl⟩
      · exact absurd hnames (not_namesFile_of_badRequest hbad)
      · exact absurd hnames (not_namesFile_of_badRequest hbad)
      · exact absurd hslash (ne_slash_of_badRequest hbad)
  | noPath hhead hlong hpath =>
    have hnames : ¬ env.NamesFile uri := fun hn => Bool.false_ne_true (hpath.symm.trans hn.2.1)
    -- nothing is sent, and none of the four responses is asked for
    refine Or.inr ⟨?_, by simp [NoSends, acquired]⟩
    rintro r (⟨hn | ⟨-, htrue, -⟩, -⟩ | ⟨hn, -⟩ | ⟨hn, -⟩ | ⟨rfl, -⟩)
    · exact hn hhead
    · exact Bool.false_ne_true (hpath.symm.trans htrue)
    · exact hnames hn
    · exact hnames hn
    · exact Nat.lt_irrefl 1 hlong
  | file hnames hlast hsize hexit =>
    -- the extension and the size are those that were found
    apply (hexit.sendsOnly hopened).congr
    intro r
    constructor
    · rintro ⟨hsends, rfl⟩
      exact .file hnames hlast hsize hsends
    · rintro (⟨hbad, -⟩ | ⟨-, hnone, -⟩ | ⟨-, hlast', hsize', hsends⟩ | ⟨hslash, -⟩)
      · exact absurd hnames (not_namesFile_of_badRequest hbad)
      · exact absurd (hsize.symm.trans hnone) (Option.some_ne_none _)
      · obtain rfl := Option.some.inj (hlast.symm.trans hlast')
        obtain rfl := Option.some.inj (hsize.symm.trans hsize')
        exact ⟨hsends, rfl⟩
      · exact absurd hslash (ne_slash_of_namesFile hnames)
  | notFound hnames hsize hmissing hexit =>
    -- the file is missing, so it has no size
    apply (hexit.sendsOnly (noSends_append hopened (by simp [NoSends]))).congr
    intro r
    constructor
    · rintro ⟨hresponse, rfl⟩
      exact .notFound hnames hsize hmissing hresponse
    · rintro (⟨hbad, -⟩ | ⟨-, -, -, hresponse⟩ | ⟨-, -, hsome, -⟩ | ⟨hslash, -⟩)
      · exact absurd hnames (not_namesFile_of_badRequest hbad)
      · exact ⟨hresponse, rfl⟩
      · exact absurd (hsome.symm.trans hsize) (Option.some_ne_none _)
      · exact absurd hslash (ne_slash_of_namesFile hnames)
  | ofTwoMinds blocks hnames hsize hn =>
    -- a file that is neither opened nor missing gets no response
    refine Or.inr ⟨?_, hopened⟩
    rintro r (⟨hbad, -⟩ | ⟨-, -, hmissing, -⟩ | ⟨-, -, hsome, -⟩ | ⟨hslash, -⟩)
    · exact not_namesFile_of_badRequest hbad hnames
    · exact hn hmissing
    · exact Option.some_ne_none _ (hsome.symm.trans hsize)
    · exact ne_slash_of_namesFile hnames hslash
  | listing hslash hexit =>
    -- the slash is no file
    apply (hexit.sendsOnly (by simp [NoSends, acquired])).congr
    intro r
    constructor
    · rintro ⟨first, second, hsends, rfl⟩
      exact .listing hslash hsends
    · rintro (⟨hbad, -⟩ | ⟨hnames, -⟩ | ⟨hnames, -⟩ | ⟨-, hsends⟩)
      · exact absurd hslash (ne_slash_of_badRequest hbad)
      · exact absurd hslash (ne_slash_of_namesFile hnames)
      · exact absurd hslash (ne_slash_of_namesFile hnames)
      · exact ⟨_, _, hsends, rfl⟩

/-! ## The end of the response -/

section Known

variable {env : WriteEnv} {data : ClientHttpData}

theorem okLine_text :
    ∃ first, ResponseLine.text ⟨defaultHttpVersion, 200, http200Phrase⟩ = first ++ lineEnding ∧
      IsLine first ∧ 58 ∉ first :=
  ⟨okLine, by decide +kernel, okLine_isLine, by decide⟩

/-- No response that the handler sends lets the client tell its end while the connection is
open. -/
theorem WriteEnv.Responds.unended {uri : List UInt8} {response : HTTPResponse}
    (h : env.Responds uri response) (hstat : ∀ size, env.fstat = some size → size < 2 ^ 63) :
    Unended response := by
  have hnil : (headersText []).length < 2 ^ 31 := by decide
  cases h with
  | badRequest _ _ =>
    refine ⟨⟨bytes "HTTP/1.1 400 Bad Request", by decide +kernel, ?_, by decide⟩, ?_, hnil,
      Or.inl rfl⟩
    · exact ⟨by decide, by decide, by decide, by decide⟩
    · exact fun x hx => absurd hx List.not_mem_nil
  | notFound _ _ _ _ =>
    refine ⟨⟨bytes "HTTP/1.1 404 Not Found", by decide +kernel, ?_, by decide⟩, ?_, hnil,
      Or.inl rfl⟩
    · exact ⟨by decide, by decide, by decide, by decide⟩
    · exact fun x hx => absurd hx List.not_mem_nil
  | @file extension size _ _ hsize hsends =>
    have hbounds := headersSent_bounds env extension (fileSize_lt hstat hsize)
    exact ⟨okLine_text, hbounds.1, hbounds.2.trans_lt (by decide),
      Or.inr (findHeaderValue_headersSent hsends.complete)⟩
  | @listing first second _ hsends =>
    have hbounds := listingResponse_bounds env first second
    exact ⟨okLine_text, hbounds.1, hbounds.2.trans_lt (by decide),
      Or.inr (findHeaderValue_headersSent hsends.complete)⟩

/-- For a response without a known end: it is known when the run does not send all of it. -/
theorem sendResponse_endKnown_iff {l : ListeningSockets} {s : LoopState} {i : Nat}
    (h : s.Writable l i) {response : HTTPResponse} (hunended : Unended response)
    (hfd : data.clientSockfd = i) {effects : List Effect} (hsends : NoSends effects)
    (blocks : List Block) :
    (∀ wire, .send i wire ∈ (sendResponse env data response effects blocks).effects →
      EndKnown wire (Closes l s i (sendResponse env data response effects blocks).outcome)) ↔
      ¬ env.SendsWhole response := by
  have hcloses := h.closes_iff (sendResponse env data response effects blocks).outcome
  by_cases hwhole : env.SendsWhole response
  · refine iff_of_false (fun hknown => ?_) (not_not_intro hwhole)
    -- all bytes of the serialised response are on the wire, and the connection stays open
    obtain ⟨ser, hs, hsent⟩ := (sendHttpResponse_whole_iff hunended.small).mpr hwhole
    simp only [sendResponse, hsent, lt_irrefl, if_false] at hknown hcloses
    have hopen : ¬ Closes l s i (.returned threadResultSuccess
        { data with request := none, response := none }) := by
      rw [hcloses]
      rintro ⟨value, data', hvalue, hor⟩
      rw [Handled.returned.injEq] at hvalue
      rw [← hvalue.1] at hor
      exact absurd hor (by decide)
    have hend := hknown ser.bytes (by simp [hfd])
    exact hunended.not_endKnown hs ⟨hend.determinable.imp_right hopen, fun hc =>
      hopen (hend.closes hc)⟩
  · refine iff_of_true (fun wire hwire => ?_) hwhole
    cases hsent : sendHttpResponse env.serialize response env.script with
    | none =>
      -- the run ends in front of the first byte
      simp only [sendResponse, hsent] at hwire
      exact absurd hwire (hsends i wire)
    | some r =>
      -- the result is an error, and the connection is closed
      have hret := sendHttpResponse_ret hunended.small hwhole hsent
      have hclosed : Closes l s i (sendResponse env data response effects blocks).outcome := by
        rw [hcloses]
        simp only [sendResponse, hsent, if_pos hret]
        exact ⟨_, _, rfl, Or.inl rfl⟩
      exact ⟨Or.inr hclosed, fun _ => hclosed⟩

end Known

/-- The end of a response is known to the client, and a close that is announced comes, exactly
if no response goes out whole: the answers of the system ask for none, or it is not serialised,
or a `send` fails before the last byte. -/
theorem response_end_known_iff {l : ListeningSockets} {s : LoopState} {i : Nat}
    (h : s.Writable l i) {env : WriteEnv}
    (hstat : ∀ size, env.fstat = some size → size < 2 ^ 63) {data : ClientHttpData}
    (hfd : data.clientSockfd = i) :
    (∀ wire, .send i wire ∈ (handleClientHttpWrite env (some data)).effects →
      EndKnown wire (Closes l s i (handleClientHttpWrite env (some data)).outcome)) ↔
      ∀ request response, env.threadResult = true → data.request = some request →
        env.Responds request.line.uri response → ¬ env.SendsWhole response := by
  have hexit := handleClientHttpWrite_exit env data
  generalize handleClientHttpWrite env (some data) = run at hexit ⊢
  have hacquired : NoSends acquired := by simp [NoSends, acquired]
  cases hexit with
  | noResult hresult =>
    apply iff_of_true
    · exact fun wire hmem => absurd hmem (hacquired i wire)
    · exact fun _ _ htrue => absurd (hresult.symm.trans htrue) Bool.false_ne_true
  | noRequest hresult hnone =>
    apply iff_of_true
    · exact fun wire hmem => absurd hmem (hacquired i wire)
    · exact fun _ _ _ hsome => absurd (hsome.symm.trans hnone) (Option.some_ne_none _)
  | @request request _ hresult hrequest hexit =>
    -- the request is the one in the record
    have huri : (∀ request' response, env.threadResult = true → data.request = some request' →
        env.Responds request'.line.uri response → ¬ env.SendsWhole response) ↔
        ∀ response, env.Responds request.line.uri response → ¬ env.SendsWhole response := by
      constructor
      · exact fun hall response => hall request response hresult hrequest
      · rintro hall request' response - hrequest'
        obtain rfl := Option.some.inj (hrequest.symm.trans hrequest')
        exact hall response
    rw [huri]
    rcases hexit.sendsOnly with ⟨r, effects, blocks, hresponds, hsends, rfl⟩ | ⟨hnone, hsends⟩
    · have hunended := ((hresponds r).mpr rfl).unended hstat
      rw [sendResponse_endKnown_iff h hunended hfd hsends]
      constructor
      · rintro hret response hr
        rw [(hresponds response).mp hr]
        exact hret
      · exact fun hall => hall r ((hresponds r).mpr rfl)
    · apply iff_of_true
      · exact fun wire hmem => absurd hmem (hsends i wire)
      · exact fun response hr => absurd hr (hnone response)

/-! ### A client that waits -/

/-- An HTTP client connects, and its descriptor is the next one to be visited, for writing. -/
def oneWaiting : List Event :=
  .select 1 {5} ∅ ∅ ::
    List.replicate 6 (.visit ⟨some 6, 4000, true, .refused⟩) ++
    .leave :: .select 1 ∅ {6} ∅ ::
    List.replicate 6 (.visit ⟨none, 0, false, .refused⟩)

theorem writable_oneWaiting : ∃ s, LoopState.Writable firstSockets s 6 := by
  have hstate : (run (loopStep firstSockets) (.initial firstSockets) oneWaiting).map
      (fun s => (s.phase, decide (s.goesOn 6), s.tables.entries .http 6, s.readFds,
        s.writeFds)) = some (.scanning 6, true, some ⟨6, 0⟩, ∅, {6}) := by
    decide +kernel
  obtain ⟨s, hs, hstate⟩ := Option.map_eq_some_iff.mp hstate
  simp only [Prod.mk.injEq, decide_eq_true_eq] at hstate
  obtain ⟨hphase, hon, hclient, hread, hwrite⟩ := hstate
  exact ⟨s, ⟨oneWaiting, hs⟩, hphase, hon, ⟨_, hclient⟩, by simp [hread], by simp [hwrite]⟩

/-- The client of that connection has asked for `/a.txt`. -/
def askedForFile : ClientHttpData :=
  ⟨6, some ⟨⟨bytes "GET", bytes "/a.txt", bytes "HTTP/1.1"⟩, [], none, 0⟩, none⟩

/-- The file is missing, and the response cannot be sent: the connection is closed. -/
theorem response_end_known_unsent : ∃ s, LoopState.Writable firstSockets s 6 ∧
    ∀ wire, .send 6 wire ∈ (handleClientHttpWrite
        { WriteEnv.ideal (-1) [] with script := [.failed] } (some askedForFile)).effects →
      EndKnown wire (Closes firstSockets s 6 (handleClientHttpWrite
        { WriteEnv.ideal (-1) [] with script := [.failed] } (some askedForFile)).outcome) := by
  obtain ⟨s, hs⟩ := writable_oneWaiting
  refine ⟨s, hs, (response_end_known_iff hs ?_ rfl).mpr ?_⟩
  · intro size hsize
    rw [← Option.some.inj hsize]
    decide
  · intro request response _ hrequest hresponds
    obtain rfl := Option.some.inj hrequest
    have hnames : WriteEnv.NamesFile { WriteEnv.ideal (-1) [] with script := [.failed] }
        (bytes "/a.txt") := ⟨by decide, rfl, by decide⟩
    cases hresponds with
    | badRequest hbad _ => exact absurd hnames (not_namesFile_of_badRequest hbad)
    | notFound _ _ _ _ => exact fun hwhole => hwhole.complete ⟨[], [], rfl, by decide +kernel⟩
    | file _ _ hsize _ =>
      rw [show WriteEnv.fileSize { WriteEnv.ideal (-1) [] with script := [.failed] }
        (bytes "/a.txt") = none from rfl] at hsize
      exact absurd hsize.symm (Option.some_ne_none _)
    | listing hslash _ => exact absurd hslash (ne_slash_of_namesFile hnames)

/-- Every call succeeds. A file of two bytes goes out with `Connection: close`, and the
connection stays open; so it does for a file that is missing, with no length announced. -/
theorem response_end_unknown : ∃ s, LoopState.Writable firstSockets s 6 ∧
    (¬ ∀ wire, .send 6 wire ∈ (handleClientHttpWrite (.ideal 5 (bytes "hi"))
        (some askedForFile)).effects →
      EndKnown wire (Closes firstSockets s 6 (handleClientHttpWrite (.ideal 5 (bytes "hi"))
        (some askedForFile)).outcome)) ∧
    ¬ ∀ wire, .send 6 wire ∈ (handleClientHttpWrite (.ideal (-1) [])
        (some askedForFile)).effects →
      EndKnown wire (Closes firstSockets s 6 (handleClientHttpWrite (.ideal (-1) [])
        (some askedForFile)).outcome) := by
  obtain ⟨s, hs⟩ := writable_oneWaiting
  -- both runs report success
  have hopen : ∀ outcome, outcome = .returned threadResultSuccess ⟨6, none, none⟩ →
      ¬ Closes firstSockets s 6 outcome := by
    rintro outcome rfl hcloses
    obtain ⟨value, data, hvalue, hor⟩ := (hs.closes_iff _).mp hcloses
    rw [Handled.returned.injEq] at hvalue
    rw [← hvalue.1] at hor
    exact absurd hor (by decide)
  refine ⟨s, hs, fun hknown => ?_, fun hknown => ?_⟩
  · have hend := hknown (headBlock okLine (responseHeaders (bytes "text/plain") 2) ++
      (bytes "hi" ++ [0])) (by decide +kernel)
    have hclose : AnnouncesClose (headBlock okLine (responseHeaders (bytes "text/plain") 2) ++
        (bytes "hi" ++ [0])) :=
      ⟨headBlock okLine (responseHeaders (bytes "text/plain") 2), bytes "hi" ++ [0],
        by decide +kernel, by decide +kernel⟩
    exact hopen _ (by decide +kernel) (hend.closes hclose)
  · have hend := hknown (bytes "HTTP/1.1 404 Not Found\r\n\r\n" ++ [0]) (by decide +kernel)
    rcases hend.determinable with ⟨head, body, value, hsplit, hvalue, -⟩ | hcloses
    · have hhead : splitHead (bytes "HTTP/1.1 404 Not Found\r\n\r\n" ++ [0]) =
          some (bytes "HTTP/1.1 404 Not Found\r\n\r\n", [0]) := by decide +kernel
      obtain ⟨rfl, -⟩ := Prod.mk.inj (Option.some.inj (hhead.symm.trans hsplit))
      have hnone : headerIn (bytes "HTTP/1.1 404 Not Found\r\n\r\n")
          (bytes "Content-Length") = none := by decide +kernel
      exact Option.some_ne_none value (hvalue.symm.trans hnone)
    · exact hopen _ (by decide +kernel) hcloses

end SelectServer
