import SelectServer.Server.Sessions

/-!
# What the clients of the server get

The whole server is its sessions (`server_refines_sessions`), so what holds of a connection or
of the heartbeats on their own holds on the server, for all clients at once and for every
interleaving of their passes.

In every run, nothing is sent over a connection but the answer to what was read last over that
same connection, and over a simple one the greeting, which nobody asks for
(`server_sends_solicited`). In a run in which no handler reads over something
that is still to be answered, everything that is read is answered exactly once
(`server_answers_clients`).
-/

namespace SelectServer

open CLib Systems

/-! ## Responses without a condition -/

variable {env : WriteEnv} {data : ClientHttpData} {run' : WriteRun}

/-- A run that does not settle has freed its request without a response. -/
theorem UriExit.settles_or {uri : List UInt8} (h : UriExit env data uri run') :
    run'.Settles ∨
      run'.sends = [] ∧ run'.outcome =
        .returned threadResultSuccess { data with request := none, response := none } := by
  cases h with
  | badRequest _ hexit => exact Or.inl (hexit.settles rfl)
  | noPath _ _ _ => exact Or.inl (Or.inl rfl)
  | file _ _ _ hexit => exact Or.inl (hexit.settles rfl)
  | notFound _ _ _ hexit => exact Or.inl (hexit.settles rfl)
  | ofTwoMinds blocks hnames hsize hn => exact Or.inr ⟨rfl, rfl⟩
  | listing _ hexit => exact Or.inl (hexit.settles rfl)

/-- A response is only sent to the request in the record, which is then freed. -/
theorem handleClientHttpWrite_sends {request : HTTPRequest} {value : Int}
    {data' : ClientHttpData} (hrequest : data.request = some request)
    (h : (handleClientHttpWrite env (some data)).outcome = .returned value data') :
    value = threadResultError ∨ value = threadResultSuccess ∧ data'.request = none ∧
      ((handleClientHttpWrite env (some data)).sends = [] ∨
        ∃ b, (handleClientHttpWrite env (some data)).sends = [b]) := by
  have hexit := handleClientHttpWrite_exit env data
  generalize handleClientHttpWrite env (some data) = r at hexit h ⊢
  cases hexit with
  | noResult _ => cases h
  | noRequest _ hnone => exact absurd (hrequest.symm.trans hnone) (Option.some_ne_none _)
  | request _ hrequest' hexit =>
    rcases hexit.settles_or with hsettles | ⟨hsends, houtcome⟩
    · rw [WriteRun.Settles, h] at hsettles
      rcases hsettles with herror | ⟨hsuccess, hfreed, b, hb⟩
      · exact Or.inl herror
      · exact Or.inr ⟨hsuccess, hfreed, Or.inr ⟨b, hb⟩⟩
    · obtain ⟨rfl, rfl⟩ := Handled.returned.inj (h.symm.trans houtcome)
      exact Or.inr ⟨rfl, rfl, Or.inl hsends⟩

/-- The log is in turn, and the request in the record is still to be answered. -/
structure HoldsRequests (s : HttpConnection) : Prop where
  inTurn : InTurn (fun _ => true) (fun _ => true) IsResponseTo False none s.log
  pending : s.isOpen = true → ∀ request, s.data.request = some request →
    pending (fun _ => true) (fun _ => true) s.log = some request

theorem HoldsRequests.ended {s : HttpConnection} (h : HoldsRequests s) (data : ClientHttpData)
    (socket : ByteSource UInt8) : HoldsRequests { s with data, socket, isOpen := false } :=
  ⟨h.inTurn, fun hopen => absurd hopen Bool.false_ne_true⟩

theorem HoldsRequests.step {s s' : HttpConnection} {pass : HttpPass} (h : HoldsRequests s)
    (hstep : httpPass s pass = some s') : HoldsRequests s' := by
  cases pass with
  | read threadResult mem =>
    simp only [httpPass, Option.ite_none_right_eq_some, Option.some.injEq] at hstep
    obtain ⟨-, rfl⟩ := hstep
    rcases handleClientHttpRead_cases threadResult mem s.data s.socket with
      hnull | hfault | herror | ⟨request, hsuccess⟩
    · rw [hnull]
      exact h.ended _ _
    · rw [hfault]
      exact h.ended _ _
    · rw [herror, HttpConnection.finish_error]
      exact h.ended _ _
    · rw [hsuccess, HttpConnection.finish_success]
      -- the request read last is the one in the record
      refine ⟨h.inTurn.concat_read False.elim, fun _ request' hrequest' => ?_⟩
      obtain rfl := Option.some.inj hrequest'
      exact (pending_read s.log request).trans (if_pos rfl)
  | write env =>
    simp only [httpPass, Option.ite_none_right_eq_some, Option.some.injEq] at hstep
    obtain ⟨hopen, rfl⟩ := hstep
    cases hrequest : s.data.request with
    | none =>
      rcases handleClientHttpWrite_empty env hrequest with hnull | ⟨hempty, hsends⟩
      · rw [hnull]
        exact h.ended _ _
      · rw [hempty, hsends, HttpConnection.finish, if_neg (by decide), List.map_nil,
          List.append_nil]
        exact h
    | some request =>
      -- a write with a request: it is answered, or freed without an answer
      cases houtcome : (handleClientHttpWrite env (some s.data)).outcome with
      | null => exact h.ended _ _
      | fault => exact h.ended _ _
      | spins => exact h.ended _ _
      | returned value data =>
        rcases handleClientHttpWrite_sends hrequest houtcome with
          rfl | ⟨rfl, hfreed, hsends | ⟨b, hsends⟩⟩
        · rw [HttpConnection.finish_error]
          exact h.ended _ _
        · rw [HttpConnection.finish_success, hsends, List.map_nil, List.append_nil]
          refine ⟨h.inTurn, fun _ request' hrequest' => ?_⟩
          exact absurd (hfreed.symm.trans hrequest') (by simp)
        · rw [HttpConnection.finish_success, hsends]
          refine ⟨?_, fun _ request' hrequest' => ?_⟩
          · apply h.inTurn.concat_sent
            intro _
            -- the answer fits the request that is pending
            refine ⟨request, h.pending hopen request hrequest, env, s.data, hrequest, ?_⟩
            rw [hsends]
            exact List.mem_singleton_self b
          · exact absurd (hfreed.symm.trans hrequest') (by simp)
  | dropped =>
    simp only [httpPass, Option.ite_none_right_eq_some, Option.some.injEq] at hstep
    obtain ⟨-, rfl⟩ := hstep
    exact h.ended _ _

/-! ## Sessions with an invariant -/

variable {l : ListeningSockets} {s : Server} {cond : ClientConnection → ClientPass → Prop}
  {hcond : HeartbeatServer → HeartbeatPass → Prop} {t : Slots Nat clientPass cond}
  {u : Session heartbeatPass hcond}

/-- A session starts with a connection that was just accepted. -/
theorem Server.Refines.init_eq (h : s.Refines l t u) {n : Nat} {session : Session clientPass cond}
    (hn : t.sessions[n]? = some session) :
    ∃ a, s.arrivals[n]? = some a ∧ session.init = a.connection := by
  have hinit : (s.arrivals.map Arrival.connection)[n]? = some session.init := by
    rw [← h.arrivals, List.getElem?_map, hn]
    rfl
  rw [List.getElem?_map, Option.map_eq_some_iff] at hinit
  obtain ⟨a, ha, heq⟩ := hinit
  exact ⟨a, ha, heq.symm⟩

/-- What every pass under the condition preserves, and every new connection has, holds of the
connection under each number. -/
theorem Server.Refines.session_invariant (h : s.Refines l t u) {P : ClientConnection → Prop}
    (hinit : ∀ a : Arrival, P a.connection)
    (hstep : ∀ c pass c', P c → cond c pass → clientPass c pass = some c' → P c') {n : Nat}
    {session : Session clientPass cond} (hn : t.sessions[n]? = some session) :
    P session.state := by
  obtain ⟨a, -, ha⟩ := h.init_eq hn
  exact session.invariant hstep (ha ▸ hinit a)

/-- What is logged under a number is what a connection with the invariant read and sent, or
there is no connection with the number. -/
theorem Server.Refines.log_invariant (h : s.Refines l t u) {P : ClientConnection → Prop}
    (hinit : ∀ a : Arrival, P a.connection)
    (hstep : ∀ c pass c', P c → cond c pass → clientPass c pass = some c' → P c') (n : Nat) :
    (s.simpleLog n = [] ∧ s.httpLog n = []) ∨ ∃ c, P c ∧ c.LoggedIn s n := by
  cases hn : t.sessions[n]? with
  | none => exact Or.inl (h.fresh n (List.getElem?_eq_none_iff.mp hn))
  | some session =>
    exact Or.inr ⟨session.state, h.session_invariant hinit hstep hn, h.log n session hn⟩

/-- The connection that a descriptor stands for has the invariant, while the loop goes on. -/
theorem Server.Refines.view_invariant (h : s.Refines l t u) {P : ClientConnection → Prop}
    (hinit : ∀ a : Arrival, P a.connection)
    (hstep : ∀ c pass c', P c → cond c pass → clientPass c pass = some c' → P c') {fd : Nat}
    {c : Connection} (hopen : s.loop.tables.opened fd = some c)
    (hlive : s.loop.phase ≠ .finished) : P (s.view fd c true) := by
  obtain ⟨session, isOpen, hsession, hstate, hopened⟩ := h.state fd c hopen
  obtain rfl := hopened hlive
  rw [← hstate]
  exact h.session_invariant hinit hstep hsession

/-! ## Nothing but the greeting is sent unasked -/

/-- What the handlers keep of a connection in every run: the log is in turn, and what the
record holds is to be answered. -/
def ClientConnection.Holds : ClientConnection → Prop
  | .simple c => TracksPings (fun a => containsPing (cstr a)) False c ∧ SendsReplies c
  | .http c => HoldsRequests c

theorem Arrival.holds (a : Arrival) : a.connection.Holds := by
  obtain ⟨p, fd, stream⟩ := a
  cases p with
  | tcp => exact ⟨tracksPings_accepted _ False _ _, fun b hb => by cases hb⟩
  | http => exact ⟨trivial, fun _ request hrequest => by cases hrequest⟩

theorem ClientConnection.Holds.step {c c' : ClientConnection} {pass : ClientPass} (h : c.Holds)
    (hstep : clientPass c pass = some c') : c'.Holds := by
  cases c with
  | simple c =>
    cases pass with
    | simple pass =>
      obtain ⟨d, hd, rfl⟩ := Option.map_eq_some_iff.mp hstep
      refine ⟨simplePass_inv h.1 ?_ hd, h.2.step hd⟩
      cases pass with
      | read => exact ⟨False.elim, rfl⟩
      | write => trivial
    | http pass => cases hstep
  | http c =>
    cases pass with
    | simple pass => cases hstep
    | http pass =>
      obtain ⟨d, hd, rfl⟩ := Option.map_eq_some_iff.mp hstep
      exact HoldsRequests.step h hd

/-- What the server sends answers what it read: a `PONG` the last frame of the same connection,
a response the last request of the same connection, an `ACK` the last datagram in which the
handler sees a `HEARTBEAT`; and nothing is answered twice. Only the greeting is sent over a
simple connection unasked. -/
structure Server.SendsSolicited (s : Server) : Prop where
  replies : ∀ n b, .sent b ∈ s.simpleLog n → b = stringFrame pong ∨ b = stringFrame greeting
  pongs : ∀ n, Solicited (fun a => containsPing (cstr a)) isPong (fun _ _ => True) (s.simpleLog n)
  responses : ∀ n, Solicited (fun _ => true) (fun _ => true) IsResponseTo (s.httpLog n)
  acks : Solicited seesHeartbeat Ack.sent Addressed s.heartbeat.log

theorem solicited_nil {α β : Type*} (asks : α → Bool) (answers : β → Bool)
    (fits : α → β → Prop) : Solicited asks answers fits [] :=
  solicited_of_inTurn (show InTurn asks answers fits False none [] from trivial)

/-- In every run of the server, nothing is sent over a connection but the answer to what was
read last over that connection, and the greeting. -/
theorem server_sends_solicited (l : ListeningSockets) {events : List ServerEvent} {s : Server}
    (hselects : ∀ event ∈ events, ServerSelects l event)
    (hrun : run (serverStep l) (.initial l) events = some s) : s.SendsSolicited := by
  have hmeets : Meets (serverStep l) (TasksMeet l (fun _ _ => True) (fun _ _ => True))
      (.initial l) events :=
    meets_of_forall_mem fun s event hevent => tasksMeet_of_selects (hselects event hevent) s
  obtain ⟨-, t, u, h⟩ := serverRun_inv l hmeets hrun
  have hlogs := h.log_invariant Arrival.holds fun c pass c' hc _ hstep => hc.step hstep
  refine ⟨fun n b hb => ?_, fun n => ?_, fun n => ?_, ?_⟩
  · rcases hlogs n with ⟨hlog, -⟩ | ⟨c | c, hc, hlog⟩
    · rw [hlog] at hb
      cases hb
    · rw [hlog.1] at hb
      exact hc.2 b hb
    · rw [hlog.2] at hb
      cases hb
  · rcases hlogs n with ⟨hlog, -⟩ | ⟨c | c, hc, hlog⟩
    · rw [hlog]
      exact solicited_nil _ _ _
    · rw [hlog.1]
      exact solicited_of_inTurn hc.1.inTurn
    · rw [hlog.2]
      exact solicited_nil _ _ _
  · rcases hlogs n with ⟨-, hlog⟩ | ⟨c | c, hc, hlog⟩
    · rw [hlog]
      exact solicited_nil _ _ _
    · rw [hlog.2]
      exact solicited_nil _ _ _
    · rw [hlog.1]
      exact solicited_of_inTurn hc.inTurn
  · obtain ⟨hinit, hstate⟩ := h.heartbeat
    rw [← hstate]
    exact acks_solicited (hinit ▸ u.run_eq)

theorem server_sends_solicited_twoClients :
    ∃ s, run (serverStep firstSockets) (.initial firstSockets) twoClients = some s ∧
      s.simpleLog 0 = [.read ping, .sent (stringFrame pong)] ∧
      s.httpLog 1 = [.read bareRequest, .sent emptyListing] ∧ s.SendsSolicited := by
  have hlogs : (run (serverStep firstSockets) (.initial firstSockets) twoClients).map
      (fun s => (s.simpleLog 0, s.httpLog 1)) = some ([.read ping, .sent (stringFrame pong)],
        [.read bareRequest, .sent emptyListing]) := by decide +kernel
  obtain ⟨s, hs, hlogs⟩ := Option.map_eq_some_iff.mp hlogs
  obtain ⟨hsimple, hhttp⟩ := Prod.mk.inj hlogs
  refine ⟨s, hs, hsimple, hhttp, server_sends_solicited firstSockets ?_ hs⟩
  simp [twoClients, passOver, ServerSelects, SelectsListening, firstSockets]

/-! ## Everything is answered once -/

/-- The conditions of the handlers of each protocol: a read finds nothing that is still to be
answered. -/
def ClientInTurn : ClientConnection → ClientPass → Prop
  | .simple c, .simple pass => PingAnswered c pass
  | .http c, .http pass => RequestInTurn c pass
  | _, _ => True

instance : ∀ (c : ClientConnection) (pass : ClientPass), Decidable (ClientInTurn c pass)
  | .simple c, .simple pass => inferInstanceAs (Decidable (PingAnswered c pass))
  | .http c, .http pass => inferInstanceAs (Decidable (RequestInTurn c pass))
  | .simple _, .http _ => isTrue trivial
  | .http _, .simple _ => isTrue trivial

/-- What the handlers keep of a connection in turn. -/
def ClientConnection.Tracks : ClientConnection → Prop
  | .simple c => TracksPings containsPing True c
  | .http c => TracksRequests c

theorem Arrival.tracks (a : Arrival) : a.connection.Tracks := by
  obtain ⟨p, fd, stream⟩ := a
  cases p with
  | tcp => exact tracksPings_accepted _ True _ _
  | http => exact ⟨trivial, fun _ => rfl⟩

theorem ClientConnection.Tracks.step {c c' : ClientConnection} {pass : ClientPass} (h : c.Tracks)
    (hcond : ClientInTurn c pass) (hstep : clientPass c pass = some c') : c'.Tracks := by
  cases c with
  | simple c =>
    cases pass with
    | simple pass =>
      obtain ⟨d, hd, rfl⟩ := Option.map_eq_some_iff.mp hstep
      refine simplePass_inv h ?_ hd
      cases pass with
      | read =>
        refine ⟨fun _ => hcond.1, ?_⟩
        rw [Bool.eq_iff_iff]
        exact ⟨hcond.2, containsPing_of_cstr⟩
      | write => trivial
    | http pass => cases hstep
  | http c =>
    cases pass with
    | simple pass => cases hstep
    | http pass =>
      obtain ⟨d, hd, rfl⟩ := Option.map_eq_some_iff.mp hstep
      exact httpPass_inv h hcond hd

/-- The heartbeats in turn. -/
theorem heartbeats_answered_of_run {sockfd : Int} {passes : List HeartbeatPass}
    {b : HeartbeatServer} (hmeets : Meets heartbeatPass HeartbeatInTurn (.initial sockfd) passes)
    (hrun : run heartbeatPass (.initial sockfd) passes = some b) :
    AnsweredOnce asksHeartbeat (fun _ => true) Addressed b.log := by
  obtain ⟨-, hlog⟩ := log_meets (hmeets.mono fun _ _ h => h.2) hrun
  have ht : TracksHeartbeats (fun _ => true) True b :=
    run_invariant_of_meets
      (fun _ _ _ ht hcond h => tracksHeartbeats_pass (fun _ _ => rfl) ht (fun _ => hcond) h)
      (tracksHeartbeats_initial _ _ sockfd) (hmeets.mono fun _ _ h => h.1) hrun
  apply (answeredOnce_of_inTurn ht.inTurn).mono
  intro a ha hasks
  cases a with
  | none => exact absurd hasks Bool.false_ne_true
  | some r => exact (hlog r ha).2 hasks

/-- Each `PING`, each request and each heartbeat is answered exactly once before the next one
of its connection is read, and what is not answered yet is still in the record of its client. -/
structure Server.AnswersClients (s : Server) : Prop where
  pings : ∀ n, AnsweredOnce containsPing isPong (fun _ _ => True) (s.simpleLog n)
  requests : ∀ n, AnsweredOnce (fun _ => true) (fun _ => true) IsResponseTo (s.httpLog n)
  heartbeats : AnsweredOnce asksHeartbeat (fun _ => true) Addressed s.heartbeat.log
  keptPing : ∀ fd n, s.loop.tables.opened fd = some ⟨.tcp, n⟩ → s.loop.phase ≠ .finished →
    (pending containsPing isPong (s.simpleLog n)).isSome = pingPending (s.clients fd).packet
  keptRequest : ∀ fd n, s.loop.tables.opened fd = some ⟨.http, n⟩ → s.loop.phase ≠ .finished →
    pending (fun _ => true) (fun _ => true) (s.httpLog n) = (s.httpClients fd).request

theorem answeredOnce_nil {α β : Type*} (asks : α → Bool) (answers : β → Bool)
    (fits : α → β → Prop) : AnsweredOnce asks answers fits [] :=
  answeredOnce_of_inTurn (show InTurn asks answers fits True none [] from trivial)

/-- In a run in which no handler reads over what is still to be answered, the server answers
everything exactly once, and over the connection where it was read. -/
theorem server_answers_clients (l : ListeningSockets) {events : List ServerEvent} {s : Server}
    (hmeets : Meets (serverStep l) (TasksMeet l ClientInTurn HeartbeatInTurn) (.initial l) events)
    (hrun : run (serverStep l) (.initial l) events = some s) : s.AnswersClients := by
  obtain ⟨-, t, u, h⟩ := serverRun_inv l hmeets hrun
  have hstep : ∀ c pass c', ClientConnection.Tracks c → ClientInTurn c pass →
      clientPass c pass = some c' → c'.Tracks := fun c pass c' hc hcond => hc.step hcond
  have hlogs := h.log_invariant Arrival.tracks hstep
  refine ⟨fun n => ?_, fun n => ?_, ?_, fun fd n hopen hlive => ?_, fun fd n hopen hlive => ?_⟩
  · rcases hlogs n with ⟨hlog, -⟩ | ⟨c | c, hc, hlog⟩
    · rw [hlog]
      exact answeredOnce_nil _ _ _
    · rw [hlog.1]
      exact answeredOnce_of_inTurn hc.inTurn
    · rw [hlog.2]
      exact answeredOnce_nil _ _ _
  · rcases hlogs n with ⟨-, hlog⟩ | ⟨c | c, hc, hlog⟩
    · rw [hlog]
      exact answeredOnce_nil _ _ _
    · rw [hlog.2]
      exact answeredOnce_nil _ _ _
    · rw [hlog.1]
      exact answeredOnce_of_inTurn hc.inTurn
  · obtain ⟨hinit, hstate⟩ := h.heartbeat
    rw [← hstate]
    exact heartbeats_answered_of_run (hinit ▸ u.meets) (hinit ▸ u.run_eq)
  · exact TracksPings.pending (h.view_invariant Arrival.tracks hstep hopen hlive) rfl
  · exact TracksRequests.pending (h.view_invariant Arrival.tracks hstep hopen hlive) rfl

theorem server_answers_clients_twoClients :
    ∃ s, run (serverStep firstSockets) (.initial firstSockets) twoClients = some s ∧
      s.AnswersClients := by
  have hmeets : Meets (serverStep firstSockets)
      (TasksMeet firstSockets ClientInTurn HeartbeatInTurn) (.initial firstSockets)
      twoClients := by decide +kernel
  have hsome : (run (serverStep firstSockets) (.initial firstSockets) twoClients).isSome =
      true := by decide +kernel
  obtain ⟨s, hs⟩ := Option.isSome_iff_exists.mp hsome
  exact ⟨s, hs, server_answers_clients firstSockets hmeets hs⟩

end SelectServer
