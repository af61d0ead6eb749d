import SelectServer.Server.SimpleHandlers

/-!
# The test client of `client/client.c`

`handle_connection` receives a packet, sends `PING` and receives another packet. It is
modelled by the places at which it waits, so that its steps can be interleaved with the
passes of the server over the connection; two byte channels connect them.

The server greets in every pass that finds nothing to read, and the client takes what comes
second for its answer: it is the `PONG` exactly if the server has made one pass before the
`PING` (`reply_is_pong_iff`).
-/

namespace SelectServer

open CLib Systems

/-! ## The client -/

/-- Where the client stands in `handle_connection`; `reply` is the packet received last, if
the function got that far. -/
inductive ClientPhase
  | start
  | greeted
  | pinged
  | returned (ret : Int) (reply : Option SimplePacket)
  | fault
  deriving DecidableEq, Repr

/-- The first check of `handle_connection`. -/
def handleConnection (sockfd : Int) : ClientPhase :=
  if sockfd ≤ 0 then .returned (-1) none else .start

/-- A step of the client: where it stands then, what it sends and what is left to read. -/
structure ClientStep where
  phase : ClientPhase
  wire : List UInt8
  socket : ByteSource UInt8
  deriving DecidableEq, Repr

/-- Both receives of `handle_connection`; the packet is freed after it was printed. -/
def receivePacket (memory : PacketMemory) (socket : ByteSource UInt8)
    (next : Option SimplePacket → ClientPhase) : ClientStep :=
  let r := recvSimplePacket memory none socket
  if r.ret = 0 then ⟨.returned 0 none, [], r.socket⟩
  else if r.ret < 0 then ⟨.returned (-1) none, [], r.socket⟩
  else ⟨next r.packet, [], r.socket⟩

/-- The send of `handle_connection`. -/
def sendPing (env : SimpleWriteEnv) (socket : ByteSource UInt8) : ClientStep :=
  match createSimplePacket env.memory (some ping) with
  | none => ⟨.returned (-1) none, [], socket⟩
  | some packet =>
    match sendSimplePacket env.buffer packet env.script with
    | .fault => ⟨.fault, [], socket⟩
    | .returned ret wire _ =>
      if ret < 0 then ⟨.returned (-1) none, wire, socket⟩ else ⟨.pinged, wire, socket⟩

/-- `handle_connection`, from one place at which it waits to the next; `none` once it has
returned. -/
def handleConnectionStep (env : SimpleWriteEnv) (socket : ByteSource UInt8) :
    ClientPhase → Option ClientStep
  | .start => some (receivePacket env.memory socket fun _ => .greeted)
  | .greeted => some (sendPing env socket)
  | .pinged => some (receivePacket env.memory socket fun reply => .returned 0 reply)
  | .returned _ _ => none
  | .fault => none

/-! ## Client and server -/

/-- No call of the step has failed. -/
def ClientPhase.goesOn : ClientPhase → Bool
  | .returned _ reply => reply.isSome
  | .fault => false
  | _ => true

/-- The client has not sent its `PING` yet. -/
def ClientPhase.beforePing : ClientPhase → Bool
  | .start => true
  | .greeted => true
  | _ => false

/-- The client, the record that the server has of it, the bytes on the way in both
directions, and the number of passes the server made before the `PING` was sent. -/
structure TestExchange where
  client : ClientPhase
  server : ClientTcpData
  toServer : List UInt8
  toClient : List UInt8
  earlyPasses : Nat
  deriving DecidableEq, Repr

/-- The connection was accepted and nothing was sent. -/
def TestExchange.initial (sockfd clientSockfd : Int) : TestExchange :=
  ⟨handleConnection sockfd, ⟨clientSockfd, none⟩, [], [], 0⟩

/-- A move of either side; the bytes on their way are received in the pieces `cut`. -/
inductive ExchangeMove
  | client (env : SimpleWriteEnv) (cut : List (List UInt8))
  | server (env : SimpleWriteEnv) (cut : List (List UInt8))
  deriving DecidableEq, Repr

/-- A move in which no call fails. A receive has to wait for the bytes of its packet. A pass
of the server reads when there is something to read, and writes otherwise. -/
def exchangeStep (s : TestExchange) : ExchangeMove → Option TestExchange
  | .client env cut =>
    match handleConnectionStep env ⟨cut, .closed⟩ s.client with
    | none => none
    | some r =>
      if cut.flatten = s.toClient ∧ r.phase.goesOn then
        some { s with
          client := r.phase
          toServer := s.toServer ++ r.wire
          toClient := r.socket.bytes }
      else none
  | .server env cut =>
    let earlyPasses := if s.client.beforePing then s.earlyPasses + 1 else s.earlyPasses
    if s.toServer ≠ [] then
      let r := handleClientSimpleRead env.threadResult env.memory (some s.server) ⟨cut, .closed⟩
      match r.outcome with
      | .returned value data =>
        if cut.flatten = s.toServer ∧ value = threadResultSuccess then
          some { s with server := data, toServer := r.socket.bytes, earlyPasses }
        else none
      | _ => none
    else
      let r := handleClientSimpleWrite env (some s.server)
      match r.outcome with
      | .returned value data =>
        if value = threadResultSuccess then
          some { s with server := data, toClient := s.toClient ++ r.wire, earlyPasses }
        else none
      | _ => none

/-! ## What stands on the channels -/

/-- Strings sent one after the other. -/
def frames (messages : List (List UInt8)) : List UInt8 := messages.flatMap stringFrame

@[simp] theorem frames_nil : frames [] = [] := rfl

@[simp] theorem frames_cons (m : List UInt8) (messages : List (List UInt8)) :
    frames (m :: messages) = stringFrame m ++ frames messages := List.flatMap_cons

@[simp] theorem frames_append (a b : List (List UInt8)) : frames (a ++ b) = frames a ++ frames b :=
  List.flatMap_append

theorem frames_replicate_succ (n : Nat) : frames (List.replicate (n + 1) greeting) =
    frames (List.replicate n greeting) ++ stringFrame greeting := by
  rw [List.replicate_succ', frames_append, frames_cons, frames_nil, List.append_nil]

theorem ping_fits : FitsFrame ping := ⟨by decide, by decide, by decide⟩

/-- A receive that succeeds takes the first of the strings on the channel. -/
theorem recvSimplePacket_frames {memory : PacketMemory} {messages : List (List UInt8)}
    {socket : ByteSource UInt8} (slot : Option SimplePacket)
    (hfits : ∀ m ∈ messages, FitsFrame m) (hs : socket.bytes = frames messages)
    (hclosed : socket.ending = .closed) (hret : 0 < (recvSimplePacket memory slot socket).ret) :
    ∃ m rest, messages = m :: rest ∧
      (recvSimplePacket memory slot socket).packet = some (stringPacket m) ∧
      (recvSimplePacket memory slot socket).socket.bytes = frames rest := by
  cases messages with
  | nil =>
    rw [frames_nil] at hs
    rw [recvSimplePacket_short memory slot hclosed (by rw [hs]; decide), if_pos hs] at hret
    exact absurd hret (lt_irrefl 0)
  | cons m rest =>
    rw [frames_cons] at hs
    by_cases hmem : memory.Succeeds
    · obtain ⟨socket', hrecv, hbytes, -⟩ :=
        recvSimplePacket_string (hfits m List.mem_cons_self) slot hmem hs
      exact ⟨m, rest, rfl, by rw [hrecv], by rw [hrecv, hbytes]⟩
    · have hlong : 4 ≤ socket.bytes.length := by
        rw [hs, stringFrame, List.append_assoc, List.length_append, length_bigEndian]
        omega
      rw [recvSimplePacket_rejected slot hlong (Or.inr hmem)] at hret
      norm_num at hret

/-- A receive of the client that succeeds takes the first of the strings on the channel. -/
theorem receivePacket_frames {memory : PacketMemory} {messages : List (List UInt8)}
    {socket : ByteSource UInt8} {next : Option SimplePacket → ClientPhase}
    (hfits : ∀ m ∈ messages, FitsFrame m) (hs : socket.bytes = frames messages)
    (hclosed : socket.ending = .closed)
    (hgoes : (receivePacket memory socket next).phase.goesOn = true) :
    ∃ m rest, messages = m :: rest ∧
      (receivePacket memory socket next).phase = next (some (stringPacket m)) ∧
      (receivePacket memory socket next).wire = [] ∧
      (receivePacket memory socket next).socket.bytes = frames rest := by
  rcases lt_trichotomy (recvSimplePacket memory none socket).ret 0 with hlt | heq | hgt
  · simp [receivePacket, hlt, hlt.ne, ClientPhase.goesOn] at hgoes
  · simp [receivePacket, heq, ClientPhase.goesOn] at hgoes
  · obtain ⟨m, rest, rfl, hpacket, hbytes⟩ :=
      recvSimplePacket_frames none hfits hs hclosed hgt
    refine ⟨m, rest, rfl, ?_⟩
    simp [receivePacket, hgt.ne', hgt.le.not_gt, hpacket, hbytes]

theorem sendPing_goesOn {env : SimpleWriteEnv} {socket : ByteSource UInt8}
    (hgoes : (sendPing env socket).phase.goesOn = true) :
    sendPing env socket = ⟨.pinged, stringFrame ping, socket⟩ := by
  obtain ⟨ret, wire, script', hsend, hwire⟩ :=
    sendSimplePacket_string ping_fits env.buffer env.script
  revert hgoes
  rw [sendPing, createSimplePacket_of_fits ping_fits]
  by_cases hmem : (env.memory.packet && env.memory.data) = true
  · rw [if_pos hmem]
    simp only [hsend]
    by_cases hret : ret < 0
    · simp [hret, ClientPhase.goesOn]
    · simp [hret, hwire (not_lt.mp hret)]
  · simp [hmem, ClientPhase.goesOn]

/-! ## What a move does -/

variable {s s' : TestExchange} {env : SimpleWriteEnv} {cut : List (List UInt8)}

/-- A move of the client that waits for a packet. -/
theorem client_receives {next : Option SimplePacket → ClientPhase}
    {messages : List (List UInt8)} (hfits : ∀ m ∈ messages, FitsFrame m)
    (hphase : handleConnectionStep env ⟨cut, .closed⟩ s.client =
      some (receivePacket env.memory ⟨cut, .closed⟩ next))
    (hchannel : s.toClient = frames messages)
    (h : exchangeStep s (.client env cut) = some s') :
    ∃ m rest, messages = m :: rest ∧ s' =
      { s with client := next (some (stringPacket m)), toClient := frames rest } := by
  simp only [exchangeStep, hphase, Option.ite_none_right_eq_some, Option.some.injEq] at h
  obtain ⟨⟨hcut, hgoes⟩, rfl⟩ := h
  have hs : (ByteSource.mk cut .closed).bytes = frames messages := hcut.trans hchannel
  obtain ⟨m, rest, hmessages, hnext, hwire, hbytes⟩ := receivePacket_frames hfits hs rfl hgoes
  refine ⟨m, rest, hmessages, ?_⟩
  rw [hnext, hwire, hbytes, List.append_nil]

/-- A move of the client that sends its `PING`. -/
theorem client_sends (hphase : s.client = .greeted)
    (h : exchangeStep s (.client env cut) = some s') :
    s' = { s with client := .pinged, toServer := s.toServer ++ stringFrame ping } := by
  simp only [exchangeStep, hphase, handleConnectionStep, Option.ite_none_right_eq_some,
    Option.some.injEq] at h
  obtain ⟨⟨hcut, hgoes⟩, rfl⟩ := h
  rw [sendPing_goesOn hgoes, ← hcut]
  rfl

/-- A pass of the server with something to read. -/
theorem server_reads (hchannel : s.toServer = stringFrame ping)
    (hphase : s.client.beforePing = false)
    (h : exchangeStep s (.server env cut) = some s') :
    s' = { s with
      server := { s.server with packet := some (stringPacket ping) }
      toServer := [] } := by
  have hne : s.toServer ≠ [] := by
    rw [hchannel]
    decide
  simp only [exchangeStep, if_pos hne, hphase, Bool.false_eq_true, if_false] at h
  cases houtcome : (handleClientSimpleRead env.threadResult env.memory (some s.server)
      ⟨cut, .closed⟩).outcome with
  | null => simp [houtcome] at h
  | fault => simp [houtcome] at h
  | returned value data =>
    simp only [houtcome, Option.ite_none_right_eq_some, Option.some.injEq] at h
    obtain ⟨⟨hcut, rfl⟩, rfl⟩ := h
    obtain ⟨hret, rfl, hsocket⟩ := handleClientSimpleRead_success houtcome
    -- what is on the way is the one frame of the `PING`
    have hs : (ByteSource.mk cut .closed).bytes = frames [ping] := by
      rw [frames_cons, frames_nil, List.append_nil, ← hchannel]
      exact hcut
    have hfits : ∀ m ∈ [ping], FitsFrame m := by
      intro m hm
      rw [List.mem_singleton.mp hm]
      exact ping_fits
    obtain ⟨m, rest, hmessages, hpacket, hbytes⟩ :=
      recvSimplePacket_frames s.server.packet hfits hs rfl hret
    obtain ⟨rfl, rfl⟩ := List.cons.inj hmessages
    rw [hsocket, hbytes, hpacket, frames_nil]

/-- A pass of the server with nothing to read. -/
theorem server_writes (hchannel : s.toServer = [])
    (h : exchangeStep s (.server env cut) = some s') :
    s' = { s with
      server := { s.server with packet := some (stringPacket (reply s.server)) }
      toClient := s.toClient ++ stringFrame (reply s.server)
      earlyPasses := if s.client.beforePing then s.earlyPasses + 1 else s.earlyPasses } := by
  simp only [exchangeStep, hchannel, ne_eq, not_true_eq_false, if_false] at h
  rcases handleClientSimpleWrite_cases env s.server with hnull | herror | hsuccess
  · simp [hnull] at h
  · simp [herror, threadResultError, threadResultSuccess] at h
  · rw [hsuccess] at h
    simp only [if_true, Option.some.injEq] at h
    rw [← h, hchannel]

theorem server_keeps_client (h : exchangeStep s (.server env cut) = some s') :
    s'.client = s.client ∧
      (s.client.beforePing = false → s'.earlyPasses = s.earlyPasses) := by
  by_cases hread : s.toServer ≠ []
  · simp only [exchangeStep, if_pos hread] at h
    cases houtcome : (handleClientSimpleRead env.threadResult env.memory (some s.server)
        ⟨cut, .closed⟩).outcome with
    | null => simp [houtcome] at h
    | fault => simp [houtcome] at h
    | returned value data =>
      simp only [houtcome, Option.ite_none_right_eq_some, Option.some.injEq] at h
      obtain ⟨-, rfl⟩ := h
      exact ⟨rfl, fun hphase => by simp only [hphase, Bool.false_eq_true, if_false]⟩
  · obtain rfl := server_writes (not_not.mp hread) h
    exact ⟨rfl, fun hphase => by simp only [hphase, Bool.false_eq_true, if_false]⟩

/-! ## Runs -/

/-- The course of the exchange. The server greets until it has read the `PING`, so one
greeting less than its early passes stands in front of the answer. -/
inductive Expected (s : TestExchange) : Prop
  | refused (ret : Int) (hclient : s.client = .returned ret none)
  | start (hclient : s.client = .start) (hserver : pingPending s.server.packet = false)
      (htoServer : s.toServer = [])
      (htoClient : s.toClient = frames (List.replicate s.earlyPasses greeting))
  | greeted (n : Nat) (hclient : s.client = .greeted) (hpasses : s.earlyPasses = n + 1)
      (hserver : pingPending s.server.packet = false) (htoServer : s.toServer = [])
      (htoClient : s.toClient = frames (List.replicate n greeting))
  | pingSent (n : Nat) (hclient : s.client = .pinged) (hpasses : s.earlyPasses = n + 1)
      (hserver : pingPending s.server.packet = false) (htoServer : s.toServer = stringFrame ping)
      (htoClient : s.toClient = frames (List.replicate n greeting))
  | pingRead (n : Nat) (hclient : s.client = .pinged) (hpasses : s.earlyPasses = n + 1)
      (hserver : pingPending s.server.packet = true) (htoServer : s.toServer = [])
      (htoClient : s.toClient = frames (List.replicate n greeting))
  | answered (n k : Nat) (hclient : s.client = .pinged) (hpasses : s.earlyPasses = n + 1)
      (hserver : pingPending s.server.packet = false) (htoServer : s.toServer = [])
      (htoClient : s.toClient =
        frames (List.replicate n greeting ++ pong :: List.replicate k greeting))
  | finished (ret : Int)
      (hclient : s.client = .returned ret
        (some (stringPacket (if s.earlyPasses = 1 then pong else greeting))))

theorem expected_initial (sockfd clientSockfd : Int) :
    Expected (TestExchange.initial sockfd clientSockfd) := by
  by_cases h : sockfd ≤ 0
  · exact .refused (-1) (if_pos h)
  · exact .start (if_neg h) rfl rfl rfl

theorem fits_of_mem_replicate {n : Nat} : ∀ m ∈ List.replicate n greeting, FitsFrame m := by
  intro m hm
  rw [List.eq_of_mem_replicate hm]
  exact greeting_fits

/-- The client has no moves after it has returned. -/
theorem not_returned_of_client (hstep : exchangeStep s (.client env cut) = some s')
    {ret : Int} {packet : Option SimplePacket} : s.client ≠ .returned ret packet := by
  intro hclient
  simp [exchangeStep, hclient, handleConnectionStep] at hstep

/-- The packet the client takes for the answer is the first one on its channel. -/
theorem expected_reply {messages : List (List UInt8)} (hfits : ∀ m ∈ messages, FitsFrame m)
    (hclient : s.client = .pinged) (hchannel : s.toClient = frames messages)
    (hfirst : ∀ m rest, messages = m :: rest → m = if s.earlyPasses = 1 then pong else greeting)
    (hstep : exchangeStep s (.client env cut) = some s') : Expected s' := by
  have hphase : handleConnectionStep env ⟨cut, .closed⟩ s.client =
      some (receivePacket env.memory ⟨cut, .closed⟩ fun reply => .returned 0 reply) := by
    rw [hclient, handleConnectionStep]
  obtain ⟨m, rest, hmessages, rfl⟩ := client_receives hfits hphase hchannel hstep
  apply Expected.finished 0
  rw [hfirst m rest hmessages]

theorem first_greeting {n : Nat} {m : List UInt8} {rest : List (List UInt8)}
    (h : List.replicate n greeting = m :: rest) :
    m = if n + 1 = 1 then pong else greeting := by
  cases n with
  | zero => simp at h
  | succ n =>
    obtain ⟨rfl, -⟩ := List.cons.inj h
    exact (if_neg (by omega)).symm

theorem expected_client (h : Expected s) (hstep : exchangeStep s (.client env cut) = some s') :
    Expected s' := by
  cases h with
  | refused ret hclient => exact absurd hclient (not_returned_of_client hstep)
  | finished ret hclient => exact absurd hclient (not_returned_of_client hstep)
  | start hclient hserver htoServer htoClient =>
    have hphase : handleConnectionStep env ⟨cut, .closed⟩ s.client =
        some (receivePacket env.memory ⟨cut, .closed⟩ fun _ => .greeted) := by
      rw [hclient, handleConnectionStep]
    obtain ⟨m, rest, hmessages, rfl⟩ :=
      client_receives fits_of_mem_replicate hphase htoClient hstep
    -- the greeting that is received was sent by an early pass
    cases hpasses : s.earlyPasses with
    | zero => simp [hpasses] at hmessages
    | succ n =>
      rw [hpasses, List.replicate_succ] at hmessages
      obtain ⟨-, rfl⟩ := List.cons.inj hmessages
      exact .greeted n rfl rfl hserver htoServer rfl
  | greeted n hclient hpasses hserver htoServer htoClient =>
    obtain rfl := client_sends hclient hstep
    refine .pingSent n rfl hpasses hserver ?_ htoClient
    rw [htoServer, List.nil_append]
  | pingSent n hclient hpasses hserver htoServer htoClient =>
    -- what comes before the answer is a second greeting
    apply expected_reply fits_of_mem_replicate hclient htoClient _ hstep
    rw [hpasses]
    exact fun _ _ => first_greeting
  | pingRead n hclient hpasses hserver htoServer htoClient =>
    apply expected_reply fits_of_mem_replicate hclient htoClient _ hstep
    rw [hpasses]
    exact fun _ _ => first_greeting
  | answered n k hclient hpasses hserver htoServer htoClient =>
    -- the first message is a greeting, or the `PONG` where there was one greeting
    apply expected_reply _ hclient htoClient _ hstep
    · intro m hm
      rcases List.mem_append.mp hm with hm | hm
      · exact fits_of_mem_replicate m hm
      · rcases List.mem_cons.mp hm with rfl | hm
        · exact pong_fits
        · exact fits_of_mem_replicate m hm
    · intro m rest hmessages
      rw [hpasses]
      cases n with
      | zero =>
        obtain ⟨rfl, -⟩ := List.cons.inj hmessages
        rfl
      | succ n =>
        obtain ⟨rfl, -⟩ := List.cons.inj hmessages
        exact (if_neg (by omega)).symm

theorem expected_server (h : Expected s) (hstep : exchangeStep s (.server env cut) = some s') :
    Expected s' := by
  cases h with
  | refused ret hclient =>
    apply Expected.refused ret
    rw [(server_keeps_client hstep).1, hclient]
  | finished ret hclient =>
    obtain ⟨hkeeps, hpasses⟩ := server_keeps_client hstep
    rw [hclient] at hkeeps hpasses
    apply Expected.finished ret
    rw [hkeeps, hpasses rfl]
  | start hclient hserver htoServer htoClient =>
    -- nothing has been read yet: a greeting
    have hreply : reply s.server = greeting := by simp [reply, hserver]
    obtain rfl := server_writes htoServer hstep
    refine .start hclient (pingPending_reply s.server) htoServer ?_
    simp only [hclient, ClientPhase.beforePing, if_true, htoClient, hreply,
      frames_replicate_succ]
  | greeted n hclient hpasses hserver htoServer htoClient =>
    have hreply : reply s.server = greeting := by simp [reply, hserver]
    obtain rfl := server_writes htoServer hstep
    refine .greeted (n + 1) hclient ?_ (pingPending_reply s.server) htoServer ?_
    · simp only [hclient, ClientPhase.beforePing, if_true, hpasses]
    · simp only [htoClient, hreply, frames_replicate_succ]
  | pingSent n hclient hpasses hserver htoServer htoClient =>
    have hphase : s.client.beforePing = false := by
      rw [hclient]
      rfl
    -- the `PING` is in the stream, and this pass reads it
    obtain rfl := server_reads htoServer hphase hstep
    refine .pingRead n hclient hpasses ?_ rfl htoClient
    show pingPending (some (stringPacket ping)) = true
    rw [pingPending_stringPacket ping_fits]
    decide
  | pingRead n hclient hpasses hserver htoServer htoClient =>
    -- this pass answers
    have hreply : reply s.server = pong := by simp [reply, hserver]
    obtain rfl := server_writes htoServer hstep
    refine .answered n 0 hclient ?_ (pingPending_reply s.server) htoServer ?_
    · simp only [hclient, ClientPhase.beforePing, Bool.false_eq_true, if_false, hpasses]
    · simp only [htoClient, hreply, List.replicate_zero, frames_append, frames_cons,
        frames_nil, List.append_nil]
  | answered n k hclient hpasses hserver htoServer htoClient =>
    -- the `PING` is gone from the record: a greeting again
    have hreply : reply s.server = greeting := by simp [reply, hserver]
    obtain rfl := server_writes htoServer hstep
    refine .answered n (k + 1) hclient ?_ (pingPending_reply s.server) htoServer ?_
    · simp only [hclient, ClientPhase.beforePing, Bool.false_eq_true, if_false, hpasses]
    · simp only [htoClient, hreply, frames_replicate_succ, frames_append, frames_cons,
        List.append_assoc]

/-- What the client takes for the answer to its `PING` is the `PONG` exactly in the runs in
which the server has made one pass before the `PING` was sent. -/
theorem reply_is_pong_iff (sockfd clientSockfd : Int) (moves : List ExchangeMove)
    (s : TestExchange) (hrun : run exchangeStep (.initial sockfd clientSockfd) moves = some s)
    (ret : Int) (packet : SimplePacket) (hdone : s.client = .returned ret (some packet)) :
    cstr packet.data = pong ↔ s.earlyPasses = 1 := by
  have hstep : ∀ s move s', Expected s → exchangeStep s move = some s' → Expected s' := by
    intro s move s' h hstep
    cases move with
    | client env cut => exact expected_client h hstep
    | server env cut => exact expected_server h hstep
  have h := run_invariant hstep (expected_initial sockfd clientSockfd) hrun
  cases h with
  | finished ret' hclient =>
    rw [hclient] at hdone
    injection hdone with _ hpacket
    obtain rfl := Option.some.inj hpacket
    by_cases hpasses : s.earlyPasses = 1
    · rw [if_pos hpasses, stringPacket, cstr_append_nul, cstr_eq_self pong_fits.no_nul]
      exact iff_of_true rfl hpasses
    · rw [if_neg hpasses, stringPacket, cstr_append_nul, cstr_eq_self greeting_fits.no_nul]
      exact iff_of_false (by decide) hpasses
  | refused ret' hclient => simp [hclient] at hdone
  | start hclient => simp [hclient] at hdone
  | greeted n hclient => simp [hclient] at hdone
  | pingSent n hclient => simp [hclient] at hdone
  | pingRead n hclient => simp [hclient] at hdone
  | answered n k hclient => simp [hclient] at hdone

/-- One pass of the server, all moves of the client, with two passes in between. -/
def pongMoves : List ExchangeMove :=
  [.server .ideal [], .client .ideal [stringFrame greeting], .client .ideal [],
    .server .ideal [stringFrame ping], .server .ideal [], .client .ideal [stringFrame pong]]

theorem reply_is_pong_iff_pongMoves : ∃ s packet,
    run exchangeStep (.initial 3 4) pongMoves = some s ∧
      s.client = .returned 0 (some packet) ∧ cstr packet.data = pong := by
  have hfacts : (run exchangeStep (.initial 3 4) pongMoves).map
      (fun s => (s.client, s.earlyPasses)) =
        some (.returned 0 (some (stringPacket pong)), 1) := by decide +kernel
  obtain ⟨s, hs, hfacts⟩ := Option.map_eq_some_iff.mp hfacts
  obtain ⟨hclient, hpasses⟩ := Prod.mk.inj hfacts
  exact ⟨s, _, hs, hclient, (reply_is_pong_iff 3 4 pongMoves s hs 0 _ hclient).mpr hpasses⟩

/-- Two passes of the server before the `PING`. -/
def greetingMoves : List ExchangeMove :=
  [.server .ideal [], .server .ideal [],
    .client .ideal [stringFrame greeting, stringFrame greeting],
    .client .ideal [stringFrame greeting], .client .ideal [stringFrame greeting]]

/-- The client takes the second greeting for the answer. -/
theorem reply_is_greeting : ∃ s packet,
    run exchangeStep (.initial 3 4) greetingMoves = some s ∧
      s.client = .returned 0 (some packet) ∧ cstr packet.data = greeting ∧
      cstr packet.data ≠ pong := by
  have hclient : (run exchangeStep (.initial 3 4) greetingMoves).map TestExchange.client =
      some (.returned 0 (some (stringPacket greeting))) := by decide +kernel
  obtain ⟨s, hs, hclient⟩ := Option.map_eq_some_iff.mp hclient
  exact ⟨s, _, hs, hclient, by decide, by decide⟩

end SelectServer
