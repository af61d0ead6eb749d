import SelectServer.Server.Heartbeat

/-!
# The heartbeat client of `heartbeat_client/heartbeat_client.c`

`setup_heartbeat_client` stores the address of the server in the record that
`handle_connection` sends from. The same record receives: `recvfrom` stores the source of
whatever arrives where the address of the server was, and the next `HEARTBEAT` goes there.

Each round of the loop sends a packet and waits for an answer. `heartbeats_to_server_iff` says
of every run when all packets went to the server.
-/

namespace SelectServer

open CLib Systems

/-! ## The client -/

/-- `HEARTBEAT_MAX_RETRIES`. -/
def heartbeatMaxRetries : Nat := 3

/-- The record that `setup_heartbeat_client` returns, when its calls succeed. -/
def setupHeartbeatClient (sockfd : Int) (server : Vector UInt8 8) : HeartbeatData :=
  { createHeartbeatData sockfd with addr := sockaddr server, addrlen := sockaddrSize }

/-- The answers of the system to a round of the loop: those to the two `malloc` calls (the block
for the answer with what it happens to contain), `time`, `sendto` and `recvfrom`, which fails
when its time is up. -/
structure HeartbeatRound where
  packet : Bool
  now : Nat
  sendto : Bool
  recvPacket : Option (Vector UInt8 heartbeatPacketSize)
  answer : RecvFrom

/-- `handle_connection` between two rounds; `result` is the value it has returned, and `log`
its `sendto` calls. -/
structure HeartbeatClient where
  data : HeartbeatData
  retries : Nat
  result : Option Int
  log : List Ack
  deriving DecidableEq

/-- `handle_connection` up to its loop; `timeout` tells whether `set_heartbeat_timeout`
succeeds. -/
def HeartbeatClient.start (timeout : Bool) (data : HeartbeatData) : HeartbeatClient :=
  ⟨data, 0, if timeout then none else some (-1), []⟩

/-- `strcmp(packet->message, "ACK") == 0`: the comparison ends at the first difference. -/
def isAck (packet : List UInt8) : Bool := (bytes "ACK" ++ [0]).isPrefixOf packet

/-- The part of a round behind the `sendto`: wait for an answer and count the retries. -/
def HeartbeatClient.receive (c : HeartbeatClient) (r : HeartbeatRound) : HeartbeatClient :=
  match r.recvPacket with
  | none => { c with result := some (-1) }
  | some block =>
    let got := recvHeartbeatPacket r.answer block.toList c.data.addr c.data.addrlen
    let data := { c.data with addr := got.addr, addrlen := got.addrlen, packet := some got.packet }
    if 0 < got.ret ∧ isAck got.packet then
      { c with data := { data with packet := none }, retries := 0 }
    else if heartbeatMaxRetries ≤ c.retries + 1 then
      { c with data := data, retries := c.retries + 1, result := some (-1) }
    else { c with data := data, retries := c.retries + 1 }

/-- A round of the loop of `handle_connection`. -/
def heartbeatRound (c : HeartbeatClient) (r : HeartbeatRound) : Option HeartbeatClient :=
  if c.result.isNone then
    match createHeartbeatPacket r.packet r.now (bytes "HEARTBEAT") with
    | none => some { c with data := { c.data with packet := none }, result := some (-1) }
    | some packet =>
      let sent := sendHeartbeatPacket r.sendto packet c.data.addr c.data.addrlen
      let c := { c with data := { c.data with packet := none }, log := c.log ++ [sent.2] }
      if sent.1 < 0 then some { c with result := some (-1) }
      else some (c.receive r)
  else none

/-! ## Where the packets go -/

/-- The record holds the address of a peer. -/
structure Addressing (data : HeartbeatData) (peer : Vector UInt8 8) : Prop where
  addr : data.addr = sockaddr peer
  addrlen : data.addrlen = sockaddrSize

theorem addressing_setup (sockfd : Int) (server : Vector UInt8 8) :
    Addressing (setupHeartbeatClient sockfd server) server := ⟨rfl, rfl⟩

/-- The peer that a record addresses after a receive. -/
def RecvFrom.sourceOr (peer : Vector UInt8 8) : RecvFrom → Vector UInt8 8
  | .failed => peer
  | .datagram _ source => source

/-- Nothing came, or it came from the server. -/
def FromServer (server : Vector UInt8 8) : RecvFrom → Prop
  | .failed => True
  | .datagram _ source => source = server

instance (server : Vector UInt8 8) : DecidablePred (FromServer server)
  | .failed => isTrue trivial
  | .datagram _ source => inferInstanceAs (Decidable (source = server))

theorem fromServer_iff {server : Vector UInt8 8} {answer : RecvFrom} :
    FromServer server answer ↔ answer.sourceOr server = server := by
  cases answer with
  | failed => exact iff_of_true trivial rfl
  | datagram data source => exact Iff.rfl

theorem sockaddr_injective {p q : Vector UInt8 8} (h : sockaddr p = sockaddr q) : p = q :=
  Vector.toList_inj.mp (List.append_cancel_right h)

variable {c c' : HeartbeatClient} {peer : Vector UInt8 8} {r : HeartbeatRound}

/-- A receive leaves the address of the source, whatever arrived. -/
theorem Addressing.receive (h : Addressing c.data peer) :
    (c.receive r).log = c.log ∧ ((c.receive r).result.isSome ∨
      Addressing (c.receive r).data (r.answer.sourceOr peer)) := by
  unfold HeartbeatClient.receive
  cases r.recvPacket with
  | none => exact ⟨rfl, Or.inl rfl⟩
  | some block =>
    have hgot : Addressing { c.data with
        addr := (recvHeartbeatPacket r.answer block.toList c.data.addr c.data.addrlen).addr
        addrlen := (recvHeartbeatPacket r.answer block.toList c.data.addr c.data.addrlen).addrlen }
        (r.answer.sourceOr peer) := by
      cases r.answer with
      | failed => exact h
      | datagram data source =>
        refine ⟨?_, rfl⟩
        show (sockaddr source).take c.data.addrlen ++ c.data.addr.drop c.data.addrlen =
          sockaddr source
        rw [h.addr, h.addrlen, ← length_sockaddr source, List.take_length,
          length_sockaddr source, ← length_sockaddr peer, List.drop_length, List.append_nil]
    simp only
    split
    · exact ⟨rfl, Or.inr ⟨hgot.addr, hgot.addrlen⟩⟩
    · split
      · exact ⟨rfl, Or.inl rfl⟩
      · exact ⟨rfl, Or.inr ⟨hgot.addr, hgot.addrlen⟩⟩

/-- A round without memory for its packet ends the loop. Any other one sends to the peer that
the record addresses, and ends the loop or addresses the source of the answer. -/
theorem heartbeatRound_cases (h : Addressing c.data peer) (hround : heartbeatRound c r = some c') :
    (r.packet = false ∧ c'.log = c.log ∧ c'.result.isSome) ∨
      (r.packet = true ∧ ∃ packet, c'.log = c.log ++ [⟨packet, sockaddr peer, r.sendto⟩] ∧
        (c'.result.isSome ∨ Addressing c'.data (r.answer.sourceOr peer))) := by
  simp only [heartbeatRound, Option.ite_none_right_eq_some] at hround
  obtain ⟨-, hround⟩ := hround
  cases halloc : r.packet with
  | false =>
    simp only [createHeartbeatPacket, halloc, Bool.false_eq_true, if_false,
      Option.some.injEq] at hround
    obtain rfl := hround
    exact Or.inl ⟨rfl, rfl, rfl⟩
  | true =>
    have hdest : c.data.addr.take c.data.addrlen = sockaddr peer := by
      rw [h.addr, h.addrlen, ← length_sockaddr peer, List.take_length]
    obtain ⟨packet, hpacket⟩ : ∃ packet,
        createHeartbeatPacket r.packet r.now (bytes "HEARTBEAT") = some packet :=
      ⟨_, by rw [createHeartbeatPacket, if_pos halloc]⟩
    simp only [hpacket, sendHeartbeatPacket, hdest] at hround
    refine Or.inr ⟨rfl, packet, ?_⟩
    by_cases hfailed : (if r.sendto = true then (packet.length : Int) else -1) < 0
    · rw [if_pos hfailed, Option.some.injEq] at hround
      obtain rfl := hround
      exact ⟨rfl, Or.inl rfl⟩
    · rw [if_neg hfailed, Option.some.injEq] at hround
      obtain rfl := hround
      exact Addressing.receive (r := r) (c := ⟨{ c.data with packet := none },
        c.retries, c.result, c.log ++ [⟨packet, sockaddr peer, r.sendto⟩]⟩) ⟨h.addr, h.addrlen⟩

/-- Once the loop has ended there is no further round. -/
theorem run_of_result (hresult : c.result.isSome) {rounds : List HeartbeatRound}
    (hrun : run heartbeatRound c rounds = some c') : rounds = [] ∧ c' = c := by
  cases rounds with
  | nil => exact ⟨rfl, (Option.some.inj hrun).symm⟩
  | cons r rounds =>
    obtain ⟨c₁, hround, -⟩ := run_cons_eq_some.mp hrun
    simp only [heartbeatRound, Option.ite_none_right_eq_some, Option.isNone_iff_eq_none] at hround
    rw [hround.1] at hresult
    cases hresult

/-- The packets of a run go to one peer exactly if the first one does, and every datagram that
is received before the last round with a packet comes from it. -/
theorem run_dests (server : Vector UInt8 8) {rounds : List HeartbeatRound}
    (h : Addressing c.data peer) (hrun : run heartbeatRound c rounds = some c') :
    ∃ sends, c'.log = c.log ++ sends ∧ ((∀ a ∈ sends, a.dest = sockaddr server) ↔
      (rounds.takeWhile (·.packet) ≠ [] → peer = server) ∧
        ∀ r ∈ (rounds.takeWhile (·.packet)).dropLast, FromServer server r.answer) := by
  induction rounds generalizing c peer with
  | nil =>
    obtain rfl := Option.some.inj hrun
    exact ⟨[], by simp, by simp⟩
  | cons r rounds ih =>
    obtain ⟨c₁, hround, hrun⟩ := run_cons_eq_some.mp hrun
    rcases heartbeatRound_cases h hround with ⟨halloc, hlog, hresult⟩ |
      ⟨halloc, packet, hlog, hafter⟩
    · obtain ⟨-, rfl⟩ := run_of_result hresult hrun
      exact ⟨[], by simp [hlog], by simp [halloc]⟩
    · -- what is sent after this round goes to the source of its answer
      obtain ⟨sends, hsends, hiff⟩ : ∃ sends, c'.log = c₁.log ++ sends ∧
          ((∀ a ∈ sends, a.dest = sockaddr server) ↔
            (rounds.takeWhile (·.packet) ≠ [] → r.answer.sourceOr peer = server) ∧
              ∀ r ∈ (rounds.takeWhile (·.packet)).dropLast, FromServer server r.answer) := by
        rcases hafter with hresult | haddr
        · obtain ⟨rfl, rfl⟩ := run_of_result hresult hrun
          exact ⟨[], by simp, by simp⟩
        · exact ih haddr hrun
      refine ⟨⟨packet, sockaddr peer, r.sendto⟩ :: sends, by simp [hsends, hlog], ?_⟩
      rw [List.forall_mem_cons, hiff, List.takeWhile_cons_of_pos halloc]
      have hdest : sockaddr peer = sockaddr server ↔ peer = server :=
        ⟨sockaddr_injective, congrArg sockaddr⟩
      cases rounds.takeWhile (·.packet) with
      | nil => simp [hdest]
      | cons r₁ rest =>
        simp only [hdest, ne_eq, reduceCtorEq, not_false_eq_true, forall_const,
          List.dropLast_cons_cons, List.forall_mem_cons, fromServer_iff]
        constructor
        · rintro ⟨rfl, hsource, hrest⟩
          exact ⟨rfl, hsource, hrest⟩
        · rintro ⟨rfl, hsource, hrest⟩
          exact ⟨rfl, hsource, hrest⟩

/-- All packets of a run went to the configured server exactly if every datagram that was
received before the last round with a packet came from the server. -/
theorem heartbeats_to_server_iff (sockfd : Int) (server : Vector UInt8 8) (timeout : Bool)
    (rounds : List HeartbeatRound) (hrun : run heartbeatRound
      (.start timeout (setupHeartbeatClient sockfd server)) rounds = some c) :
    (∀ a ∈ c.log, a.dest = sockaddr server) ↔
      ∀ r ∈ (rounds.takeWhile (·.packet)).dropLast, FromServer server r.answer := by
  obtain ⟨sends, hlog, hiff⟩ := run_dests server (addressing_setup sockfd server) hrun
  obtain rfl : c.log = sends := hlog
  rw [hiff]
  exact and_iff_right fun _ => rfl

/-- A round in which everything succeeds and `ACK` comes from the given port. -/
def ackRound (port : UInt8) : HeartbeatRound where
  packet := true
  now := 0
  sendto := true
  recvPacket := some (Vector.replicate heartbeatPacketSize 0)
  answer := .datagram (bytes "ACK") (localPeer port)

theorem heartbeats_to_server_ackRound : ∃ c, run heartbeatRound
    (.start true (setupHeartbeatClient 3 (localPeer 1))) [ackRound 1, ackRound 1] = some c ∧
      c.log.length = 2 ∧ ∀ a ∈ c.log, a.dest = sockaddr (localPeer 1) := by
  have hlength : (run heartbeatRound (.start true (setupHeartbeatClient 3 (localPeer 1)))
      [ackRound 1, ackRound 1]).map (·.log.length) = some 2 := by decide +kernel
  obtain ⟨c, hc, htwo⟩ := Option.map_eq_some_iff.mp hlength
  exact ⟨c, hc, htwo, (heartbeats_to_server_iff 3 (localPeer 1) true _ hc).mpr (by decide)⟩

/-- An `ACK` from another port takes the place of the server. -/
theorem heartbeats_redirected : ∃ c, run heartbeatRound
    (.start true (setupHeartbeatClient 3 (localPeer 1))) [ackRound 2, ackRound 1] = some c ∧
      ¬ ∀ a ∈ c.log, a.dest = sockaddr (localPeer 1) := by
  have hlog : (run heartbeatRound (.start true (setupHeartbeatClient 3 (localPeer 1)))
      [ackRound 2, ackRound 1]).map (fun c => c.log.map Ack.dest) =
        some [sockaddr (localPeer 1), sockaddr (localPeer 2)] := by decide +kernel
  obtain ⟨c, hc, hdests⟩ := Option.map_eq_some_iff.mp hlog
  refine ⟨c, hc, fun hall => ?_⟩
  have hmem : sockaddr (localPeer 2) ∈ c.log.map Ack.dest := by simp [hdests]
  obtain ⟨a, ha, hdest⟩ := List.mem_map.mp hmem
  rw [hall a ha] at hdest
  exact absurd (sockaddr_injective hdest) (by decide)

end SelectServer
