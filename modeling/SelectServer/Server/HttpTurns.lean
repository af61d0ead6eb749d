import SelectServer.Server.SimpleHandlers
import SelectServer.Server.WriteExits
import SelectServer.Shared.Pipeline

/-!
# Turns of an HTTP connection

`handle_client_http_read` receives a request into the record of its client and
`handle_client_http_write` answers the one that is there. Select decides which of them a
pass of `handle_connections` runs, with reads first.

A write that does not end the connection has answered its request by exactly one response,
except for a file that is opened as descriptor 0 or that `fstat` is of two minds about
(`handleClientHttpWrite_settles`). Each request is answered before the next one is read
exactly if no read finds one waiting (`requests_answered`).
-/

namespace SelectServer

open CLib Systems

/-! ## The read handler -/

/-- A run of the read handler: its result and what is left of the stream. -/
structure HttpRead where
  outcome : Handled
  socket : ByteSource UInt8

/-- `handle_client_http_read`. A request that is still in the record is replaced. -/
def handleClientHttpRead (threadResult : Bool) (mem : ReceiveMemory)
    (arg : Option ClientHttpData) (socket : ByteSource UInt8) : HttpRead :=
  match arg with
  | none => ⟨.null, socket⟩
  | some data =>
    if threadResult then
      let r := receiveHttpRequest mem socket
      match r.outcome with
      | .fault _ => ⟨.fault, r.socket⟩
      | .null => ⟨.returned threadResultError { data with request := none }, r.socket⟩
      | .returned message =>
        -- line, headers and body are logged
        match message.message with
        | none => ⟨.fault, r.socket⟩
        | some request =>
          ⟨.returned threadResultSuccess { data with request := some request }, r.socket⟩
    else ⟨.null, socket⟩

/-! ## What the write handler sends -/

/-- The bytes of an effect that are sent. -/
def Effect.sent? : Effect → Option (List UInt8)
  | .send _ data => some data
  | _ => none

/-- What a run of the write handler sends. -/
def WriteRun.sends (r : WriteRun) : List (List UInt8) := r.effects.filterMap Effect.sent?

/-- A run that reports success has sent one response and freed its request; any other run
ends the connection, or does not end. -/
def WriteRun.Settles (r : WriteRun) : Prop :=
  match r.outcome with
  | .returned value data =>
    value = threadResultError ∨
      value = threadResultSuccess ∧ data.request = none ∧ ∃ b, r.sends = [b]
  | _ => True

/-- The file of a URI is opened, and counts neither as opened nor as missing: its descriptor
is 0, or the first `fstat` fails and the second one does not. -/
def WriteEnv.OfTwoMinds (env : WriteEnv) (uri : List UInt8) : Prop :=
  let fd := env.openFile (resourcesFolder ++ uri)
  env.fullPath = true ∧ (strrchr 46 (resourcesFolder ++ uri)).isSome ∧
    0 ≤ fd ∧ (fd = 0 ∨ env.fstat = none) ∧ env.fstatAgain = true

instance (env : WriteEnv) (uri : List UInt8) : Decidable (env.OfTwoMinds uri) :=
  inferInstanceAs (Decidable (_ ∧ _))

section Settles

variable {env : WriteEnv} {data : ClientHttpData} {effects : List Effect} {blocks : List Block}

theorem sendResponse_settles (response : HTTPResponse)
    (hsends : effects.filterMap Effect.sent? = []) :
    (sendResponse env data response effects blocks).Settles := by
  simp only [sendResponse]
  cases sendHttpResponse env.serialize response env.script with
  | none => trivial
  | some r =>
    simp only [WriteRun.Settles, WriteRun.sends]
    by_cases hret : r.1 < 0
    · exact Or.inl (if_pos hret)
    · refine Or.inr ⟨if_neg hret, trivial, r.2, ?_⟩
      rw [List.filterMap_append, hsends]
      rfl

variable {run : WriteRun}

theorem StatusExit.settles {statusCode : Int} {reasonPhrase : List UInt8}
    (h : StatusExit env data statusCode reasonPhrase effects run)
    (hsends : effects.filterMap Effect.sent? = []) : run.Settles := by
  cases h with
  | noResponse blocks _ => trivial
  | sent blocks _ => exact sendResponse_settles _ hsends

theorem FileExit.settles {extension : List UInt8} {fd : Int} {size : Nat}
    (h : FileExit env data effects extension fd size run)
    (hsends : effects.filterMap Effect.sent? = []) : run.Settles := by
  have hclosed :
      (effects ++ [Effect.close fd, Effect.unlock .lockFile]).filterMap Effect.sent? = [] := by
    rw [List.filterMap_append, hsends]
    rfl
  cases h with
  | noSizeStr blocks _ => exact Or.inl rfl
  | rejected blocks _ _ _ => exact Or.inl rfl
  | sent blocks _ _ _ _ => exact sendResponse_settles _ hclosed
  | _ => trivial

theorem ListingExit.settles (h : ListingExit env data effects run)
    (hsends : effects.filterMap Effect.sent? = []) : run.Settles := by
  have hunlocked : (effects ++ [Effect.unlock .lockFile]).filterMap Effect.sent? = [] := by
    rw [List.filterMap_append, hsends]
    rfl
  cases h with
  | noFolder _ => exact Or.inl rfl
  | noBody _ _ _ => exact Or.inl rfl
  | noSizeStr response blocks _ _ => exact Or.inl rfl
  | sent blocks _ _ _ _ => exact sendResponse_settles _ hunlocked
  | _ => trivial

/-- What is neither opened nor missing is of two minds. -/
theorem ofTwoMinds_of_not_missing {uri : List UInt8} (hnames : env.NamesFile uri)
    (hsize : env.fileSize uri = none) (hn : ¬ env.Missing uri) : env.OfTwoMinds uri := by
  obtain ⟨-, hpath, hdot⟩ := hnames
  rw [WriteEnv.Missing, not_or, not_lt, Bool.not_eq_false] at hn
  obtain ⟨hfd, hagain⟩ := hn
  have hsome : (strrchr 46 (resourcesFolder ++ uri)).isSome := by
    rw [Option.isSome_iff_ne_none, ne_eq, strrchr_fullPath_eq_none_iff]
    exact not_not.mpr hdot
  refine ⟨hpath, hsome, hfd, ?_, hagain⟩
  rcases hfd.eq_or_lt with heq | hlt
  · exact Or.inl heq.symm
  · rw [WriteEnv.fileSize, if_pos hlt] at hsize
    exact Or.inr hsize

theorem UriExit.settles {uri : List UInt8} (h : UriExit env data uri run)
    (hminds : ¬ env.OfTwoMinds uri) : run.Settles := by
  cases h with
  | badRequest _ hexit => exact hexit.settles rfl
  | noPath _ _ _ => exact Or.inl rfl
  | file _ _ _ hexit => exact hexit.settles rfl
  | notFound _ _ _ hexit => exact hexit.settles rfl
  | ofTwoMinds blocks hnames hsize hn =>
    exact absurd (ofTwoMinds_of_not_missing hnames hsize hn) hminds
  | listing _ hexit => exact hexit.settles rfl

/-- A run of the write handler with a request. -/
theorem handleClientHttpWrite_settles {request : HTTPRequest}
    (hrequest : data.request = some request) (hminds : ¬ env.OfTwoMinds request.line.uri) :
    (handleClientHttpWrite env (some data)).Settles := by
  have hexit := handleClientHttpWrite_exit env data
  generalize handleClientHttpWrite env (some data) = run at hexit ⊢
  cases hexit with
  | noResult _ => trivial
  | noRequest _ hnone => exact absurd (hrequest.symm.trans hnone) (Option.some_ne_none _)
  | request _ hrequest' hexit =>
    obtain rfl := Option.some.inj (hrequest.symm.trans hrequest')
    exact hexit.settles hminds

/-- A run without a request leaves everything as it is. -/
theorem handleClientHttpWrite_empty (env : WriteEnv) (hrequest : data.request = none) :
    (handleClientHttpWrite env (some data)).outcome = .null ∨
      (handleClientHttpWrite env (some data)).outcome = .returned threadResultEmptyRequest data ∧
        (handleClientHttpWrite env (some data)).sends = [] := by
  simp only [handleClientHttpWrite, hrequest]
  split
  · exact Or.inr ⟨rfl, rfl⟩
  · exact Or.inl rfl

end Settles

/-! ## A connection -/

/-- An HTTP connection: the record of the client, its stream, whether `handle_connections`
still has it, and the requests that were read with the responses that were sent. -/
structure HttpConnection where
  data : ClientHttpData
  socket : ByteSource UInt8
  isOpen : Bool
  log : List (Turn HTTPRequest (List UInt8))
  deriving DecidableEq, Repr

/-- A connection that was just accepted. -/
def HttpConnection.accepted (sockfd : Int) (socket : ByteSource UInt8) : HttpConnection :=
  ⟨⟨sockfd, none, none⟩, socket, true, []⟩

/-- A pass of the loop of `handle_connections` over the connection; in the last one the task
is refused or the descriptor has an exception. -/
inductive HttpPass
  | read (threadResult : Bool) (mem : ReceiveMemory)
  | write (env : WriteEnv)
  | dropped

/-- What `handle_connections` makes of the result of a handler. An error ends the connection,
NULL the loop; a handler that faults or does not return has no pass after it. -/
def HttpConnection.finish (s : HttpConnection) (outcome : Handled)
    (events : List (Turn HTTPRequest (List UInt8))) : HttpConnection :=
  match outcome with
  | .returned value data =>
    if value = threadResultError ∨ value = threadResultClosed then
      { s with data := data, isOpen := false }
    else { s with data := data, log := s.log ++ events }
  | _ => { s with isOpen := false }

/-- The request in the record that a handler leaves. -/
def Handled.request : Handled → Option HTTPRequest
  | .returned _ data => data.request
  | _ => none

/-- One pass over an open connection. -/
def httpPass (s : HttpConnection) : HttpPass → Option HttpConnection
  | .read threadResult mem =>
    if s.isOpen then
      let r := handleClientHttpRead threadResult mem (some s.data) s.socket
      some ({ s with socket := r.socket }.finish r.outcome
        (r.outcome.request.toList.map .read))
    else none
  | .write env =>
    if s.isOpen then
      let r := handleClientHttpWrite env (some s.data)
      some (s.finish r.outcome (r.sends.map .sent))
    else none
  | .dropped => if s.isOpen then some { s with isOpen := false } else none

/-! ## What a pass does -/

/-- The bytes are what the write handler sends for the request, in some environment. -/
def IsResponseTo (request : HTTPRequest) (sent : List UInt8) : Prop :=
  ∃ env data, data.request = some request ∧
    sent ∈ (handleClientHttpWrite env (some data)).sends

variable {s s' : HttpConnection}

theorem HttpConnection.finish_error (s : HttpConnection) (data : ClientHttpData)
    (events : List (Turn HTTPRequest (List UInt8))) :
    s.finish (.returned threadResultError data) events =
      { s with data := data, isOpen := false } := by
  rw [HttpConnection.finish, if_pos (Or.inl rfl)]

theorem HttpConnection.finish_success (s : HttpConnection) (data : ClientHttpData)
    (events : List (Turn HTTPRequest (List UInt8))) :
    s.finish (.returned threadResultSuccess data) events =
      { s with data := data, log := s.log ++ events } := by
  rw [HttpConnection.finish, if_neg (by decide)]

theorem handleClientHttpRead_cases (threadResult : Bool) (mem : ReceiveMemory)
    (data : ClientHttpData) (socket : ByteSource UInt8) :
    let outcome := (handleClientHttpRead threadResult mem (some data) socket).outcome
    outcome = .null ∨ outcome = .fault ∨
      outcome = .returned threadResultError { data with request := none } ∨
      ∃ request, outcome = .returned threadResultSuccess { data with request := some request } := by
  simp only [handleClientHttpRead]
  split
  · split
    · exact Or.inr (Or.inl rfl)
    · exact Or.inr (Or.inr (Or.inl rfl))
    · split
      · exact Or.inr (Or.inl rfl)
      · exact Or.inr (Or.inr (Or.inr ⟨_, rfl⟩))
  · exact Or.inl rfl

/-- A read finds no request waiting, and a write with one is not of two minds about its
file. -/
def RequestInTurn (s : HttpConnection) : HttpPass → Prop
  | .read _ _ => s.data.request = none
  | .write env => ∀ request ∈ s.data.request, ¬ env.OfTwoMinds request.line.uri
  | .dropped => True

instance (s : HttpConnection) : DecidablePred (RequestInTurn s)
  | .read _ _ => inferInstanceAs (Decidable (s.data.request = none))
  | .write env => inferInstanceAs
      (Decidable (∀ request ∈ s.data.request, ¬ env.OfTwoMinds request.line.uri))
  | .dropped => isTrue trivial

/-- A pass ends the connection, or it reads a request, or it answers the one in the record,
or it finds none to answer. -/
inductive HttpPassed (s : HttpConnection) : HttpPass → HttpConnection → Prop
  | ended (pass : HttpPass) (data : ClientHttpData) (socket : ByteSource UInt8) :
    HttpPassed s pass { s with data, socket, isOpen := false }
  | received (threadResult : Bool) (mem : ReceiveMemory) (request : HTTPRequest)
      (socket : ByteSource UInt8) :
    HttpPassed s (.read threadResult mem)
      { s with
        data := { s.data with request := some request }, socket
        log := s.log ++ [.read request] }
  | answered (env : WriteEnv) (data : ClientHttpData) (request : HTTPRequest)
      (sent : List UInt8) (hrequest : s.data.request = some request) (hfreed : data.request = none)
      (hresponse : IsResponseTo request sent) :
    HttpPassed s (.write env) { s with data, log := s.log ++ [.sent sent] }
  | idle (env : WriteEnv) (hrequest : s.data.request = none) : HttpPassed s (.write env) s

theorem passed_of_httpPass {pass : HttpPass} (hcond : RequestInTurn s pass)
    (h : httpPass s pass = some s') : HttpPassed s pass s' := by
  cases pass with
  | read threadResult mem =>
    simp only [httpPass, Option.ite_none_right_eq_some, Option.some.injEq] at h
    obtain ⟨-, rfl⟩ := h
    rcases handleClientHttpRead_cases threadResult mem s.data s.socket with
      hnull | hfault | herror | ⟨request, hsuccess⟩
    · rw [hnull]
      exact .ended _ s.data _
    · rw [hfault]
      exact .ended _ s.data _
    · rw [herror, HttpConnection.finish_error]
      exact .ended _ _ _
    · rw [hsuccess, HttpConnection.finish_success]
      exact .received threadResult mem request _
  | write env =>
    simp only [httpPass, Option.ite_none_right_eq_some, Option.some.injEq] at h
    obtain ⟨-, rfl⟩ := h
    cases hrequest : s.data.request with
    | none =>
      rcases handleClientHttpWrite_empty env hrequest with hnull | ⟨hempty, hsends⟩
      · rw [hnull]
        exact .ended _ s.data s.socket
      · have hidle : s.finish (.returned threadResultEmptyRequest s.data) [] = s := by
          rw [HttpConnection.finish, if_neg (by decide), List.append_nil]
        rw [hempty, hsends, List.map_nil, hidle]
        exact .idle env hrequest
    | some request =>
      -- the request is answered, or the connection ends
      have hsettles := handleClientHttpWrite_settles hrequest (hcond request hrequest)
      cases houtcome : (handleClientHttpWrite env (some s.data)).outcome with
      | null => exact .ended _ s.data s.socket
      | fault => exact .ended _ s.data s.socket
      | spins => exact .ended _ s.data s.socket
      | returned value data =>
        rw [WriteRun.Settles, houtcome] at hsettles
        rcases hsettles with rfl | ⟨rfl, hfreed, sent, hsends⟩
        · rw [HttpConnection.finish_error]
          exact .ended _ data s.socket
        · rw [HttpConnection.finish_success, hsends]
          apply HttpPassed.answered env data request sent hrequest hfreed
          exact ⟨env, s.data, hrequest, by rw [hsends]; exact List.mem_singleton_self sent⟩
  | dropped =>
    simp only [httpPass, Option.ite_none_right_eq_some, Option.some.injEq] at h
    obtain ⟨-, rfl⟩ := h
    exact .ended _ s.data s.socket

theorem isOpen_of_httpPass {pass : HttpPass} (h : httpPass s pass = some s') :
    s.isOpen = true := by
  cases pass with
  | read => exact (Option.ite_none_right_eq_some.mp h).1
  | write => exact (Option.ite_none_right_eq_some.mp h).1
  | dropped => exact (Option.ite_none_right_eq_some.mp h).1

/-! ## Runs -/

/-- The log is in turn, and what it leaves to be answered is the request in the record. -/
structure TracksRequests (s : HttpConnection) : Prop where
  inTurn : InTurn (fun _ => true) (fun _ => true) IsResponseTo True none s.log
  pending : s.isOpen = true →
    pending (fun _ => true) (fun _ => true) s.log = s.data.request

theorem httpPass_inv {pass : HttpPass} (ht : TracksRequests s) (hcond : RequestInTurn s pass)
    (h : httpPass s pass = some s') : TracksRequests s' := by
  have hpending := ht.pending (isOpen_of_httpPass h)
  cases passed_of_httpPass hcond h with
  | ended => exact ⟨ht.inTurn, fun hopen => absurd hopen Bool.false_ne_true⟩
  | received threadResult mem request socket =>
    refine ⟨?_, fun _ => ?_⟩
    · apply ht.inTurn.concat_read
      intro _
      exact hpending.trans hcond
    · rw [pending_read]
      exact if_pos rfl
  | answered env data request sent hrequest hfreed hresponse =>
    refine ⟨?_, fun _ => ?_⟩
    · apply ht.inTurn.concat_sent
      intro _
      exact ⟨request, hpending.trans hrequest, hresponse⟩
    · rw [pending_sent, if_pos rfl, hfreed]
  | idle => exact ht

/-- What a client and its requests can expect: each of those read is answered by exactly one
response before the next one is read, no response is sent to anything else, and a request
that is not answered yet is still in the record. -/
structure AnswersRequests (s : HttpConnection) : Prop where
  answered : AnsweredOnce (fun _ => true) (fun _ => true) IsResponseTo s.log
  solicited : Solicited (fun _ => true) (fun _ => true) IsResponseTo s.log
  kept : s.isOpen = true → pending (fun _ => true) (fun _ => true) s.log = s.data.request

/-- In every run in which no read finds a request waiting, and no write is of two minds about
its file, each request that was read is answered exactly once before the next one is read,
unless the connection ends. -/
theorem requests_answered (sockfd : Int) (socket : ByteSource UInt8) (passes : List HttpPass)
    (s : HttpConnection)
    (hmeets : Meets httpPass RequestInTurn (.accepted sockfd socket) passes)
    (hrun : run httpPass (.accepted sockfd socket) passes = some s) : AnswersRequests s := by
  have hinit : TracksRequests (.accepted sockfd socket) := ⟨trivial, fun _ => rfl⟩
  have ht := run_invariant_of_meets (fun _ _ _ => httpPass_inv) hinit hmeets hrun
  exact ⟨answeredOnce_of_inTurn ht.inTurn, solicited_of_inTurn ht.inTurn, ht.pending⟩

/-- Two requests, each in a segment of its own. -/
def twoRequests : ByteSource UInt8 := ⟨[bareRequest.wire, bareRequest.wire], .closed⟩

/-- Two requests, each with its response. -/
def requestTurns : List HttpPass :=
  [.read true .ideal, .write (.ideal 5 []), .read true .ideal, .write (.ideal 5 [])]

theorem requests_answered_turns : ∃ s,
    run httpPass (.accepted 4 twoRequests) requestTurns = some s ∧ AnswersRequests s := by
  have hmeets : Meets httpPass RequestInTurn (.accepted 4 twoRequests) requestTurns := by
    decide +kernel
  have hsome : (run httpPass (.accepted 4 twoRequests) requestTurns).isSome = true := by
    decide +kernel
  obtain ⟨s, hs⟩ := Option.isSome_iff_exists.mp hsome
  exact ⟨s, hs, requests_answered 4 twoRequests requestTurns s hmeets hs⟩

/-- The response to a request for the listing of an empty folder, with the unwritten byte
that its size counts. -/
def emptyListing : List UInt8 :=
  bytes "HTTP/1.1 200 OK\r\nContent-Type: text/plain\r\nContent-Length: 0\r\n" ++
    bytes "Connection: close\r\n\r\n" ++ [0]

/-- The second request is read while the first one waits, and one response is sent. -/
theorem requests_overwritten : ∃ s,
    run httpPass (.accepted 4 twoRequests)
        [.read true .ideal, .read true .ideal, .write (.ideal 5 []), .write (.ideal 5 [])] =
      some s ∧
      s.log = [.read bareRequest, .read bareRequest, .sent emptyListing] ∧
      ¬ AnswersRequests s := by
  have hlog : (run httpPass (.accepted 4 twoRequests)
      [.read true .ideal, .read true .ideal, .write (.ideal 5 []), .write (.ideal 5 [])]).map
        HttpConnection.log =
      some [.read bareRequest, .read bareRequest, .sent emptyListing] := by decide +kernel
  obtain ⟨s, hs, hlog⟩ := Option.map_eq_some_iff.mp hlog
  refine ⟨s, hs, hlog, fun h => ?_⟩
  have hcount := (h.answered [] _ [] _ _ hlog rfl (by simp)).1
  simp at hcount

end SelectServer
