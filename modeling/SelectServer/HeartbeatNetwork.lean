import SelectServer.HeartbeatDecisions
import SelectServer.Systems.Datagrams

/-!
# Heartbeat clients and the server over a network

Any number of heartbeat clients and the server, which exchange datagrams over a network that
may lose, duplicate and reorder them, and to which nobody else sends. A round of a client has
two halves, up to its `sendto` and from its `recvfrom` on, and whatever happens at the other
parties may happen in between.

In every run each client sends to the server alone, and every `ACK` goes to a client that has
sent a `HEARTBEAT` before and has one of its own (`heartbeat_network_safe`). A client gives up
only when a call of its own fails or nothing arrives in its last three rounds
(`heartbeat_client_ends`), and as long as the server runs, a client that waits can get its
answer (`heartbeat_client_answered`).
-/

namespace SelectServer

open CLib Systems

/-! ## A client in the network -/

/-- The answers to the calls of a round in front of `recvfrom`. -/
structure SendCalls where
  packet : Bool
  now : Nat
  sendto : Bool
  deriving DecidableEq

/-- The two halves of a round. -/
inductive HeartbeatMove
  | send (calls : SendCalls)
  | receive (recvPacket : Option (Vector UInt8 heartbeatPacketSize)) (answer : RecvFrom)

/-- A client, the calls of the round that it is in the middle of, and the rounds that it has
made. -/
structure NetworkClient where
  client : HeartbeatClient
  half : Option SendCalls
  rounds : List HeartbeatRound

/-- The round of both halves. -/
def SendCalls.round (calls : SendCalls)
    (recvPacket : Option (Vector UInt8 heartbeatPacketSize)) (answer : RecvFrom) :
    HeartbeatRound :=
  ⟨calls.packet, calls.now, calls.sendto, recvPacket, answer⟩

/-- The part of a round up to its `sendto`. -/
def HeartbeatClient.sendHalf (c : HeartbeatClient) (calls : SendCalls) : HeartbeatClient :=
  match createHeartbeatPacket calls.packet calls.now (bytes "HEARTBEAT") with
  | none => { c with data := { c.data with packet := none }, result := some (-1) }
  | some packet =>
    let sent := sendHeartbeatPacket calls.sendto packet c.data.addr c.data.addrlen
    let c := { c with data := { c.data with packet := none }, log := c.log ++ [sent.2] }
    if sent.1 < 0 then { c with result := some (-1) } else c

/-- The datagram that is sent by the first half of a round. -/
def HeartbeatClient.sends (self : Vector UInt8 8) (c : HeartbeatClient) (calls : SendCalls) :
    List (Datagram (List UInt8) (List UInt8)) :=
  match createHeartbeatPacket calls.packet calls.now (bytes "HEARTBEAT") with
  | none => []
  | some packet =>
    if calls.sendto then [⟨sockaddr self, c.data.addr.take c.data.addrlen, packet⟩] else []

/-- A step of the client with the address `self`. -/
def clientMove (self : Vector UInt8 8) (t : NetworkClient) :
    HeartbeatMove → Option (NetworkClient × List (Datagram (List UInt8) (List UInt8)))
  | .send calls =>
    if t.half.isNone ∧ t.client.result.isNone then
      let c := t.client.sendHalf calls
      some (if c.result.isSome then
          { t with client := c, rounds := t.rounds ++ [calls.round none .failed] }
        else { t with client := c, half := some calls }, t.client.sends self calls)
    else none
  | .receive recvPacket answer =>
    t.half.map fun calls =>
      let r := calls.round recvPacket answer
      ({ client := t.client.receive r, half := none, rounds := t.rounds ++ [r] }, [])

/-- The datagram that is received at an address. -/
def RecvFrom.datagramTo (self : Vector UInt8 8) :
    RecvFrom → Option (Datagram (List UInt8) (List UInt8))
  | .failed => none
  | .datagram data source => some ⟨sockaddr source, sockaddr self, data⟩

/-- The datagrams that the server sends in a pass. -/
def HeartbeatPass.sends (self : Vector UInt8 8) (s : HeartbeatServer) :
    HeartbeatPass → List (Datagram (List UInt8) (List UInt8))
  | .read _ _ => []
  | .write env sendto =>
    ((handleClientHeartbeatWrite env sendto (some s.data)).ack.toList.filter (·.sent)).map
      fun ack => ⟨sockaddr self, ack.dest, ack.packet⟩

/-- The addresses of the server and of its clients. -/
structure HeartbeatAddresses (κ : Type*) where
  server : Vector UInt8 8
  client : κ → Vector UInt8 8
  client_ne : ∀ k, client k ≠ server

/-- The parties of the network. -/
def HeartbeatAddresses.parties {κ : Type*} (a : HeartbeatAddresses κ) :
    Parties κ HeartbeatServer NetworkClient HeartbeatPass HeartbeatMove (List UInt8)
      (List UInt8) where
  serverStep s pass := (heartbeatPass s pass).map fun s' => (s', pass.sends a.server s)
  serverInput
    | .read _ answer => answer.datagramTo a.server
    | .write _ _ => none
  clientStep k := clientMove (a.client k)
  clientInput k
    | .send _ => none
    | .receive _ answer => answer.datagramTo (a.client k)

/-- All parties in front of their loops; each client with its socket, and with the answer to
its `set_heartbeat_timeout`. -/
def HeartbeatAddresses.initial {κ : Type*} (a : HeartbeatAddresses κ) (sockfd : Int)
    (socket : κ → Int) (timeout : κ → Bool) :
    Exchange κ HeartbeatServer NetworkClient (List UInt8) (List UInt8) where
  server := .initial sockfd
  clients k := ⟨.start (timeout k) (setupHeartbeatClient (socket k) a.server), none, []⟩
  sent := []

/-! ## The halves of a round -/

section Halves

variable {c : HeartbeatClient} {calls : SendCalls}

/-- A round is its two halves. -/
theorem heartbeatRound_eq (c : HeartbeatClient) (calls : SendCalls)
    (recvPacket : Option (Vector UInt8 heartbeatPacketSize)) (answer : RecvFrom) :
    heartbeatRound c (calls.round recvPacket answer) =
      if c.result.isNone then
        some (if (c.sendHalf calls).result.isSome then c.sendHalf calls
          else (c.sendHalf calls).receive (calls.round recvPacket answer))
      else none := by
  by_cases hresult : c.result.isNone = true
  · rw [heartbeatRound, if_pos hresult, if_pos hresult]
    simp only [SendCalls.round, HeartbeatClient.sendHalf]
    cases createHeartbeatPacket calls.packet calls.now (bytes "HEARTBEAT") with
    | none => rfl
    | some packet =>
      simp only
      have hnone : c.result = none := Option.isNone_iff_eq_none.mp hresult
      by_cases hfailed : (sendHeartbeatPacket calls.sendto packet c.data.addr
          c.data.addrlen).1 < 0
      · simp [hfailed]
      · simp [hfailed, hnone]
  · rw [heartbeatRound, if_neg hresult, if_neg hresult]

end Halves

/-! ## Messages -/

/-- The datagram is a packet of this protocol with the message. -/
def Carries (message : List UInt8) (data : List UInt8) : Prop :=
  ∃ now, createHeartbeatPacket true now message = some data

section Messages

variable {message data : List UInt8}

/-- A packet is the message with a terminator behind it, and fills its datagram. -/
theorem Carries.shape (h : Carries message data) (hlt : message.length < heartbeatBufSize) :
    (∃ rest, data = message ++ 0 :: rest) ∧ data.length = heartbeatPacketSize := by
  obtain ⟨now, hdata⟩ := h
  obtain rfl := Option.some.inj hdata
  obtain ⟨k, hk⟩ := Nat.exists_eq_add_of_lt hlt
  have hpad : heartbeatBufSize - message.length = k + 1 := by omega
  refine ⟨⟨List.replicate k 0 ++ timestampBytes now, ?_⟩, ?_⟩
  · rw [hpad, List.replicate_succ]
    simp
  · simp only [List.length_append, List.length_replicate, length_timestampBytes]
    unfold heartbeatBufSize at *
    unfold heartbeatPacketSize
    omega

theorem Carries.received (h : Carries message data) (hlt : message.length < heartbeatBufSize)
    (source : Vector UInt8 8) (now : Nat) : (Received.mk data source now).packet = data := by
  have hlength := (h.shape hlt).2
  have hempty : (List.replicate heartbeatBufSize 0 ++ timestampBytes now).length =
      heartbeatPacketSize := by
    rw [List.length_append, List.length_replicate, length_timestampBytes]
    rfl
  rw [Received.packet, ← hlength, List.take_length, List.drop_of_length_le, List.append_nil]
  rw [hempty, hlength]

/-- The server sees a `HEARTBEAT` for what it is. -/
theorem Carries.visible (h : Carries (bytes "HEARTBEAT") data) (source : Vector UInt8 8)
    (now : Nat) :
    (Received.mk data source now).Terminated ∧ (Received.mk data source now).visible = true ∧
      containsHeartbeat data = true := by
  have hlt : (bytes "HEARTBEAT").length < heartbeatBufSize := by decide
  obtain ⟨rest, hdata⟩ := (h.shape hlt).1
  have hcontains : containsHeartbeat (bytes "HEARTBEAT") = true := by decide
  rw [Received.Terminated, Received.visible, h.received hlt, hdata, cstr_append_nul]
  refine ⟨by simp, by decide, ?_⟩
  exact strstr_isSome_of_infix (by decide) (List.prefix_append _ _).isInfix hcontains

/-- A client takes an `ACK` for what it is, whatever its memory contains. -/
theorem Carries.acked (h : Carries (bytes "ACK") data) {r : HeartbeatRound}
    (hblock : r.recvPacket.isSome = true) {source : Vector UInt8 8}
    (hanswer : r.answer = .datagram data source) : r.acked = true := by
  obtain ⟨block, hblock⟩ := Option.isSome_iff_exists.mp hblock
  obtain ⟨⟨rest, hdata⟩, hlength⟩ := h.shape (by decide)
  have htake : data.take heartbeatPacketSize = data := by rw [← hlength, List.take_length]
  have hprefix : bytes "ACK" ++ [0] <+: data ++ block.toList.drop data.length := by
    rw [hdata, List.append_cons]
    exact ((List.prefix_append _ rest).trans (List.prefix_append _ _))
  have hpos : 0 < data.length := by
    rw [hlength]
    decide
  rw [HeartbeatRound.acked, hblock, hanswer]
  simp only
  rw [htake, isAck, List.isPrefixOf_iff_prefix.mpr hprefix, decide_eq_true hpos]
  rfl

end Messages

/-! ## What the parties can rely on -/

section Network

variable {κ : Type*} (a : HeartbeatAddresses κ)

/-- What may be sent: a `HEARTBEAT` from a client to the server, and an `ACK` from the server to
a client that has sent something before. -/
def HeartbeatAddresses.Justified (before : List (Datagram (List UInt8) (List UInt8)))
    (d : Datagram (List UInt8) (List UInt8)) : Prop :=
  (∃ k, d.src = sockaddr (a.client k) ∧ d.dst = sockaddr a.server ∧
    Carries (bytes "HEARTBEAT") d.data) ∨
  (d.src = sockaddr a.server ∧ Carries (bytes "ACK") d.data ∧
    ∃ k, d.dst = sockaddr (a.client k) ∧ ∃ q ∈ before, q.src = sockaddr (a.client k))

/-- Everything that the server has read is a `HEARTBEAT` that a client has sent, and what it has
still to acknowledge goes back to one that has. -/
structure HeartbeatAddresses.ServerKnows (sent : List (Datagram (List UInt8) (List UInt8)))
    (s : HeartbeatServer) : Prop where
  inv : HeartbeatInv s
  reads : ∀ r, .read (some r) ∈ s.log → ∃ k, r.source = a.client k ∧
    Carries (bytes "HEARTBEAT") r.datagram ∧
    ⟨sockaddr r.source, sockaddr a.server, r.datagram⟩ ∈ sent
  pending : heartbeatPending s.data = true → ∃ k,
    (∃ q ∈ sent, q.src = sockaddr (a.client k)) ∧ s.data.dest = sockaddr (a.client k)

/-- A client is in its rounds, or in the middle of the next one; it sends to the server, and
what it receives is an `ACK`. -/
structure HeartbeatAddresses.ClientKnows (start : κ → HeartbeatClient) (k : κ)
    (sent : List (Datagram (List UInt8) (List UInt8))) (t : NetworkClient) : Prop where
  addressing : t.client.result = none → Addressing t.client.data a.server
  log : ∀ x ∈ t.client.log, x.dest = sockaddr a.server
  between : t.half = none → run heartbeatRound (start k) t.rounds = some t.client
  waiting : ∀ calls, t.half = some calls → ∃ c,
    run heartbeatRound (start k) t.rounds = some c ∧ c.result = none ∧
      t.client = c.sendHalf calls ∧ t.client.result = none ∧
      ∃ d ∈ sent, d.src = sockaddr (a.client k)
  acked : ∀ r ∈ t.rounds, r.recvPacket.isSome = true → r.answer ≠ .failed → r.acked = true

/-- The contract of the parties. -/
def HeartbeatAddresses.contract (start : κ → HeartbeatClient) :
    Contract κ HeartbeatServer NetworkClient (List UInt8) (List UInt8) where
  justified := a.Justified
  server := a.ServerKnows
  client := a.ClientKnows start
  justified_mono := by
    rintro before more d (hheartbeat | ⟨hsrc, hack, k, hdst, q, hq, hfrom⟩)
    · exact Or.inl hheartbeat
    · exact Or.inr ⟨hsrc, hack, k, hdst, q, List.mem_append_left more hq, hfrom⟩
  server_mono := by
    rintro sent more s ⟨hinv, hreads, hpending⟩
    refine ⟨hinv, fun r hr => ?_, fun h => ?_⟩
    · obtain ⟨k, hk, hcarries, hmem⟩ := hreads r hr
      exact ⟨k, hk, hcarries, List.mem_append_left more hmem⟩
    · obtain ⟨k, ⟨q, hq, hfrom⟩, hdest⟩ := hpending h
      exact ⟨k, ⟨q, List.mem_append_left more hq, hfrom⟩, hdest⟩
  client_mono := by
    rintro k sent more t ⟨haddr, hlog, hbetween, hwaiting, hacked⟩
    refine ⟨haddr, hlog, hbetween, fun calls hcalls => ?_, hacked⟩
    obtain ⟨c, hrun, hresult, hc, hnone, d, hd, hfrom⟩ := hwaiting calls hcalls
    exact ⟨c, hrun, hresult, hc, hnone, d, List.mem_append_left more hd, hfrom⟩

variable {a} {sent : List (Datagram (List UInt8) (List UInt8))}

/-- What arrives at the server is a `HEARTBEAT` of a client. -/
theorem heartbeat_of_arrival (hcaused : Caused a.Justified sent) {data : List UInt8}
    {source : Vector UInt8 8} (hmem : ⟨sockaddr source, sockaddr a.server, data⟩ ∈ sent) :
    ∃ k, source = a.client k ∧ Carries (bytes "HEARTBEAT") data := by
  obtain ⟨before, -, hjustified⟩ := hcaused.of_mem hmem
  rcases hjustified with ⟨k, hsrc, -, hcarries⟩ | ⟨-, -, k, hdst, -⟩
  · exact ⟨k, sockaddr_injective hsrc, hcarries⟩
  · exact absurd (sockaddr_injective hdst).symm (a.client_ne k)

/-- What a client has sent is a `HEARTBEAT` for the server. -/
theorem heartbeat_of_sender (hcaused : Caused a.Justified sent)
    {d : Datagram (List UInt8) (List UInt8)} (hd : d ∈ sent) {k : κ}
    (hsrc : d.src = sockaddr (a.client k)) :
    d.dst = sockaddr a.server ∧ Carries (bytes "HEARTBEAT") d.data := by
  obtain ⟨before, -, ⟨k', -, hdst, hcarries⟩ | ⟨hsrc', -⟩⟩ := hcaused.of_mem hd
  · exact ⟨hdst, hcarries⟩
  · exact absurd (sockaddr_injective (hsrc.symm.trans hsrc')) (a.client_ne k)

/-- What arrives at a client is an `ACK` of the server. -/
theorem ack_of_arrival (hcaused : Caused a.Justified sent) {data : List UInt8}
    {source : Vector UInt8 8} {k : κ}
    (hmem : ⟨sockaddr source, sockaddr (a.client k), data⟩ ∈ sent) :
    source = a.server ∧ Carries (bytes "ACK") data := by
  obtain ⟨before, -, hjustified⟩ := hcaused.of_mem hmem
  rcases hjustified with ⟨-, -, hdst, -⟩ | ⟨hsrc, hcarries, -⟩
  · exact absurd (sockaddr_injective hdst) (a.client_ne k)
  · exact ⟨sockaddr_injective hsrc, hcarries⟩

/-- The write handler sends an `ACK` to where the packet came from, and only for a packet with
`HEARTBEAT`. -/
theorem handleClientHeartbeatWrite_ack {env : HeartbeatEnv} {sendto : Bool}
    {data : HeartbeatData} {ack : Ack}
    (h : (handleClientHeartbeatWrite env sendto (some data)).ack = some ack) :
    heartbeatPending data = true ∧ ack.dest = data.dest ∧ Carries (bytes "ACK") ack.packet := by
  unfold handleClientHeartbeatWrite at h
  simp only at h
  split at h
  case isFalse => cases h
  case isTrue =>
    cases hpacket : data.packet with
    | none =>
      rw [hpacket] at h
      cases h
    | some packet =>
      rw [hpacket] at h
      simp only at h
      split at h
      case isTrue => cases h
      case isFalse =>
        split at h
        case isFalse => cases h
        case isTrue hsees =>
          cases halloc : createHeartbeatPacket env.packet env.now (bytes "ACK") with
          | none =>
            rw [halloc] at h
            cases h
          | some message =>
            rw [halloc] at h
            obtain rfl := Option.some.inj h
            refine ⟨by simp only [heartbeatPending, hpacket, hsees], rfl, env.now, ?_⟩
            rw [createHeartbeatPacket] at halloc ⊢
            exact (Option.ite_none_right_eq_some.mp halloc).2

/-- What a pass of the server sends. -/
theorem mem_sends {s : HeartbeatServer} {pass : HeartbeatPass}
    {d : Datagram (List UInt8) (List UInt8)} (hd : d ∈ pass.sends a.server s) :
    heartbeatPending s.data = true ∧ d.src = sockaddr a.server ∧ d.dst = s.data.dest ∧
      Carries (bytes "ACK") d.data := by
  cases pass with
  | read => cases hd
  | write env sendto =>
    obtain ⟨ack, hack, rfl⟩ := List.mem_map.mp hd
    obtain ⟨hpending, hdest, hcarries⟩ := handleClientHeartbeatWrite_ack
      (Option.mem_toList.mp (List.mem_of_mem_filter hack))
    exact ⟨hpending, rfl, hdest, hcarries⟩

theorem HeartbeatAddresses.ServerKnows.sends {s : HeartbeatServer} (h : a.ServerKnows sent s)
    {pass : HeartbeatPass} : ∀ d ∈ pass.sends a.server s, a.Justified sent d := by
  intro d hd
  obtain ⟨hpending, hsrc, hdst, hcarries⟩ := mem_sends hd
  obtain ⟨k, hfrom, hdest⟩ := h.pending hpending
  exact Or.inr ⟨hsrc, hcarries, k, hdst.trans hdest, hfrom⟩

theorem answer_of_read {env : HeartbeatEnv} {answer : RecvFrom} {r : Received}
    (h : readOf env answer = some r) : answer = .datagram r.datagram r.source := by
  cases answer with
  | failed => cases h
  | datagram data source =>
    obtain rfl := Option.some.inj (Option.ite_none_right_eq_some.mp h).2
    rfl

/-- A pass of the server. -/
theorem HeartbeatAddresses.ServerKnows.pass (hcaused : Caused a.Justified sent)
    {s s' : HeartbeatServer} (h : a.ServerKnows sent s) {pass : HeartbeatPass}
    (hinput : ∀ d ∈ a.parties.serverInput pass, d ∈ sent) (hpass : heartbeatPass s pass = some s') :
    a.ServerKnows sent s' := by
  have hinv := heartbeatPass_inv h.inv hpass
  cases h.inv.passed hpass with
  | stopped => exact ⟨hinv, h.reads, h.pending⟩
  | cleared =>
    refine ⟨hinv, fun r hr => h.reads r (by simpa using hr), ?_⟩
    simp [heartbeatPending]
  | received env answer r packet hthread hsome =>
    obtain rfl := answer_of_read hsome
    have hmem := hinput _ rfl
    obtain ⟨k, hk, hcarries⟩ := heartbeat_of_arrival hcaused hmem
    refine ⟨hinv, fun r' hr' => ?_, fun _ => ⟨k, ⟨_, hmem, by rw [hk]⟩, ?_⟩⟩
    · rcases List.mem_append.mp hr' with hr' | hr'
      · exact h.reads r' hr'
      · obtain rfl : r' = r := by simpa using hr'
        exact ⟨k, hk, hcarries, hmem⟩
    · rw [HeartbeatData.dest, ← hk]
      exact List.take_of_length_le (length_sockaddr r.source).le
  | overrun env answer r hthread hsome hterminated =>
    obtain rfl := answer_of_read hsome
    obtain ⟨k, -, hcarries⟩ := heartbeat_of_arrival hcaused (hinput _ rfl)
    exact absurd (hcarries.visible r.source r.now).1 hterminated
  | idle => exact ⟨hinv, h.reads, h.pending⟩
  | dropped =>
    exact ⟨hinv, h.reads, by simp [heartbeatPending]⟩
  | acked =>
    refine ⟨hinv, fun r hr => h.reads r (by simpa using hr), ?_⟩
    simp [heartbeatPending]

/-- The first half of a round, of a client that addresses a peer. -/
theorem sendHalf_spec {c : HeartbeatClient} {peer : Vector UInt8 8} (h : Addressing c.data peer)
    (self : Vector UInt8 8) (calls : SendCalls) :
    (∀ d ∈ c.sends self calls, d.src = sockaddr self ∧ d.dst = sockaddr peer ∧
        Carries (bytes "HEARTBEAT") d.data) ∧
      Addressing (c.sendHalf calls).data peer ∧
      (∀ x ∈ (c.sendHalf calls).log, x ∈ c.log ∨ x.dest = sockaddr peer) ∧
      ((c.sendHalf calls).result = none → ∃ d ∈ c.sends self calls, d.src = sockaddr self) := by
  have hdest : c.data.addr.take c.data.addrlen = sockaddr peer := by
    rw [h.addr, h.addrlen, ← length_sockaddr peer, List.take_length]
  cases halloc : createHeartbeatPacket calls.packet calls.now (bytes "HEARTBEAT") with
  | none =>
    simp only [HeartbeatClient.sends, HeartbeatClient.sendHalf, halloc]
    exact ⟨by simp, ⟨h.addr, h.addrlen⟩, fun x hx => Or.inl hx, by simp⟩
  | some packet =>
    have hcarries : Carries (bytes "HEARTBEAT") packet := by
      refine ⟨calls.now, ?_⟩
      rw [createHeartbeatPacket] at halloc ⊢
      exact (Option.ite_none_right_eq_some.mp halloc).2
    simp only [HeartbeatClient.sends, HeartbeatClient.sendHalf, halloc, sendHeartbeatPacket,
      hdest]
    have hlog : ∀ x ∈ c.log ++ [⟨packet, sockaddr peer, calls.sendto⟩],
        x ∈ c.log ∨ x.dest = sockaddr peer := by
      intro x hx
      rcases List.mem_append.mp hx with hx | hx
      · exact Or.inl hx
      · obtain rfl := List.mem_singleton.mp hx
        exact Or.inr rfl
    generalize calls.sendto = sendto at hlog ⊢
    cases sendto with
    | true =>
      have hlength : ¬ ((packet.length : Int) < 0) := by omega
      simp only [if_true, if_neg hlength]
      refine ⟨?_, ⟨h.addr, h.addrlen⟩, hlog, fun _ => ⟨_, List.mem_singleton_self _, rfl⟩⟩
      intro d hd
      obtain rfl := List.mem_singleton.mp hd
      exact ⟨rfl, rfl, hcarries⟩
    | false =>
      simp only [Bool.false_eq_true, if_false, if_pos (show (-1 : Int) < 0 by decide)]
      exact ⟨by simp, ⟨h.addr, h.addrlen⟩, hlog, by simp⟩

/-- The first half of a round in the network. -/
theorem HeartbeatAddresses.ClientKnows.send {start : κ → HeartbeatClient} {k : κ}
    {t t' : NetworkClient} (h : a.ClientKnows start k sent t) {calls : SendCalls}
    {out : List (Datagram (List UInt8) (List UInt8))}
    (hmove : clientMove (a.client k) t (.send calls) = some (t', out)) :
    a.ClientKnows start k (sent ++ out) t' ∧ ∀ d ∈ out, a.Justified sent d := by
  simp only [clientMove, Option.ite_none_right_eq_some, Option.isNone_iff_eq_none,
    Option.some.injEq, Prod.mk.injEq] at hmove
  obtain ⟨⟨hhalf, hresult⟩, rfl, rfl⟩ := hmove
  obtain ⟨hsends, haddr, hlog, hsent⟩ := sendHalf_spec (h.addressing hresult) (a.client k) calls
  have hrun := h.between hhalf
  have hdests : ∀ x ∈ (t.client.sendHalf calls).log, x.dest = sockaddr a.server := by
    intro x hx
    rcases hlog x hx with hx | hx
    · exact h.log x hx
    · exact hx
  refine ⟨?_, fun d hd => Or.inl ⟨k, hsends d hd⟩⟩
  cases hended : (t.client.sendHalf calls).result with
  | none =>
    refine ⟨fun _ => haddr, hdests, by simp, ?_, h.acked⟩
    rintro calls' ⟨⟩
    obtain ⟨d, hd, hsrc⟩ := hsent hended
    exact ⟨t.client, hrun, hresult, rfl, hended, d, List.mem_append_right sent hd, hsrc⟩
  | some result =>
    have hround : heartbeatRound t.client (calls.round none .failed) =
        some (t.client.sendHalf calls) := by
      rw [heartbeatRound_eq, hresult, hended]
      rfl
    refine ⟨fun _ => haddr, hdests, fun _ => ?_, ?_, ?_⟩
    · simp only [Option.isSome_some, if_true]
      rw [run_append, hrun]
      simp [run, hround]
    · intro calls' hcalls'
      simp [hhalf] at hcalls'
    · intro r hr hblock
      simp only [Option.isSome_some, if_true] at hr
      rcases List.mem_append.mp hr with hr | hr
      · exact h.acked r hr hblock
      · obtain rfl := List.mem_singleton.mp hr
        cases hblock

/-- The second half. -/
theorem HeartbeatAddresses.ClientKnows.receive {start : κ → HeartbeatClient} {k : κ}
    {t t' : NetworkClient} (hcaused : Caused a.Justified sent) (h : a.ClientKnows start k sent t)
    {recvPacket : Option (Vector UInt8 heartbeatPacketSize)} {answer : RecvFrom}
    {out : List (Datagram (List UInt8) (List UInt8))}
    (hinput : ∀ d ∈ answer.datagramTo (a.client k), d ∈ sent)
    (hmove : clientMove (a.client k) t (.receive recvPacket answer) = some (t', out)) :
    a.ClientKnows start k (sent ++ out) t' ∧ ∀ d ∈ out, a.Justified sent d := by
  obtain ⟨calls, hhalf, heq⟩ := Option.map_eq_some_iff.mp hmove
  obtain ⟨rfl, rfl⟩ := Prod.mk.inj heq
  obtain ⟨c, hrun, hresult, hclient, hnone, -⟩ := h.waiting calls hhalf
  have harrived : answer.sourceOr a.server = a.server ∧
      (recvPacket.isSome = true → answer ≠ .failed →
        (calls.round recvPacket answer).acked = true) := by
    cases answer with
    | failed => exact ⟨rfl, fun _ hne => absurd rfl hne⟩
    | datagram data source =>
      obtain ⟨hsource, hcarries⟩ := ack_of_arrival hcaused (hinput _ rfl)
      exact ⟨hsource, fun hblock _ => hcarries.acked hblock rfl⟩
  obtain ⟨hlog, haddr⟩ := Addressing.receive (r := calls.round recvPacket answer)
    (h.addressing hnone)
  rw [List.append_nil]
  refine ⟨⟨fun hrunning => ?_, ?_, fun _ => ?_, by simp, ?_⟩, by simp⟩
  · rcases haddr with hended | haddr
    · rw [hrunning] at hended
      cases hended
    · exact harrived.1 ▸ haddr
  · rw [hlog]
    exact h.log
  · have hround : heartbeatRound c (calls.round recvPacket answer) =
        some (t.client.receive (calls.round recvPacket answer)) := by
      rw [heartbeatRound_eq, hresult, ← hclient, hnone]
      rfl
    rw [run_append, hrun]
    simp [run, hround]
  · intro r hr
    rcases List.mem_append.mp hr with hr | hr
    · exact h.acked r hr
    · obtain rfl := List.mem_singleton.mp hr
      exact harrived.2

/-- All parties keep the contract. -/
theorem HeartbeatAddresses.keeps (a : HeartbeatAddresses κ) (start : κ → HeartbeatClient) :
    (a.contract start).Keeps a.parties where
  server := by
    intro sent s pass s' out hcaused h hinput hstep
    obtain ⟨s₁, hpass, heq⟩ := Option.map_eq_some_iff.mp hstep
    obtain ⟨rfl, rfl⟩ := Prod.mk.inj heq
    exact ⟨(a.contract start).server_mono (h.pass hcaused hinput hpass), h.sends⟩
  client := by
    intro k sent t move t' out hcaused h hinput hstep
    cases move with
    | send calls => exact h.send hstep
    | receive recvPacket answer => exact h.receive hcaused hinput hstep

theorem HeartbeatAddresses.initial_holds (a : HeartbeatAddresses κ) (sockfd : Int)
    (socket : κ → Int) (timeout : κ → Bool) :
    (a.contract fun k => .start (timeout k) (setupHeartbeatClient (socket k) a.server)).Holds
      (a.initial sockfd socket timeout) where
  caused := caused_nil _
  server := ⟨heartbeatInv_initial sockfd, by simp [HeartbeatAddresses.initial,
    HeartbeatServer.initial], by simp [HeartbeatAddresses.initial, HeartbeatServer.initial,
    createHeartbeatData, heartbeatPending]⟩
  clients k := {
    addressing := fun _ => addressing_setup (socket k) a.server
    log := fun x hx => absurd hx List.not_mem_nil
    between := fun _ => rfl
    waiting := fun _ h => by cases h
    acked := fun r hr => absurd hr List.not_mem_nil }

variable [DecidableEq κ] {sockfd : Int} {socket : κ → Int} {timeout : κ → Bool}
  {ls : List (ExchangeLabel κ HeartbeatPass HeartbeatMove)}
  {s : Exchange κ HeartbeatServer NetworkClient (List UInt8) (List UInt8)}

/-! ## Safety -/

/-- What every party can expect of the others. -/
structure HeartbeatAddresses.Safe (a : HeartbeatAddresses κ)
    (s : Exchange κ HeartbeatServer NetworkClient (List UInt8) (List UInt8)) : Prop where
  /-- The server meets no datagram that it cannot handle. -/
  defined : s.server.status ≠ .undefined
  /-- A client sends to the server alone. -/
  toServer : ∀ k, ∀ x ∈ (s.clients k).client.log, x.dest = sockaddr a.server
  /-- What a client has sent is a `HEARTBEAT` for the server. -/
  heartbeats : ∀ d ∈ s.sent, ∀ k, d.src = sockaddr (a.client k) →
    d.dst = sockaddr a.server ∧ Carries (bytes "HEARTBEAT") d.data
  /-- What the server has sent is an `ACK` for a client that sent its `HEARTBEAT` before. -/
  acks : ∀ before d after, s.sent = before ++ d :: after → d.src = sockaddr a.server →
    Carries (bytes "ACK") d.data ∧
      ∃ k, d.dst = sockaddr (a.client k) ∧ ∃ q ∈ before, q.src = sockaddr (a.client k)
  /-- Each `ACK` has a `HEARTBEAT` of its own among those that the server has read. -/
  own : AcksMapToHeartbeats s.server.log

/-- However the parties take turns and whatever the network loses, duplicates and reorders, the
heartbeats and their acknowledgements are safe. -/
theorem heartbeat_network_safe (a : HeartbeatAddresses κ)
    (hrun : run a.parties.step (a.initial sockfd socket timeout) ls = some s) : a.Safe s := by
  have h := (a.keeps _).run (a.initial_holds sockfd socket timeout) hrun
  have hserver := Parties.server_run hrun
  have hpasses : (fun t pass => (a.parties.serverStep t pass).map Prod.fst) = heartbeatPass := by
    funext t pass
    simp [HeartbeatAddresses.parties, Function.comp_def]
  rw [hpasses] at hserver
  refine ⟨?_, fun k => (h.clients k).log, ?_, ?_, ?_⟩
  · apply h.server.inv.defined
    intro r hr
    obtain ⟨k, -, hcarries, -⟩ := h.server.reads r hr
    exact (hcarries.visible r.source r.now).1
  · exact fun d hd k hsrc => heartbeat_of_sender h.caused hd hsrc
  · intro before d after hsplit hsrc
    rcases h.caused before d after hsplit with ⟨k, hsrc', -⟩ | ⟨-, hcarries, hk⟩
    · exact absurd (sockaddr_injective (hsrc'.symm.trans hsrc)) (a.client_ne k)
    · exact ⟨hcarries, hk⟩
  · apply Solicited.exists_injection
    apply (acks_solicited hserver).mono
    intro r hr hsees
    cases r with
    | none => exact absurd hsees Bool.false_ne_true
    | some r =>
      obtain ⟨k, -, hcarries, -⟩ := h.server.reads r hr
      exact (hcarries.visible r.source r.now).2.2

/-! ## The end of a client -/

/-- The rounds of a list, and silent ones behind them. -/
def roundAt (rounds : List HeartbeatRound) (i : Nat) : HeartbeatRound := rounds.getD i silentRound

/-- Nothing arrives in the last `HEARTBEAT_MAX_RETRIES` rounds. -/
def GoesSilent (rounds : List HeartbeatRound) : Prop :=
  EndsWindow (fun i => (roundAt rounds i).answer ≠ .failed) heartbeatMaxRetries rounds.length

theorem firstRounds_roundAt (rounds : List HeartbeatRound) {k : Nat} (hk : k ≤ rounds.length) :
    firstRounds (roundAt rounds) k = rounds.take k := by
  apply List.ext_getElem
  · simp [firstRounds, hk]
  · intro i hi hi'
    rw [List.length_take] at hi'
    simp only [firstRounds, List.getElem_map, List.getElem_range, List.getElem_take, roundAt]
    exact List.getD_eq_getElem _ _ (by omega)

theorem roundAt_mem {rounds : List HeartbeatRound} {i : Nat} (hi : i < rounds.length) :
    roundAt rounds i ∈ rounds := by
  rw [roundAt, List.getD_eq_getElem _ _ hi]
  exact List.getElem_mem hi

/-- A client whose calls succeed counts the rounds of its run. -/
theorem counts_of_run {rounds : List HeartbeatRound} {data : HeartbeatData} {c : HeartbeatClient}
    (hsucceeds : ∀ r ∈ rounds, r.Succeeds)
    (hrun : run heartbeatRound (.start true data) rounds = some c) :
    Counts (roundAt rounds) rounds.length c := by
  have hrounds : ∀ i, (roundAt rounds i).Succeeds := by
    intro i
    rcases Nat.lt_or_ge i rounds.length with hi | hi
    · exact hsucceeds _ (roundAt_mem hi)
    · rw [roundAt, List.getD_eq_default _ _ hi]
      exact ⟨rfl, rfl, rfl⟩
  -- a client that has given up makes no further round
  have hbefore : ∀ j < rounds.length, ¬ GivesUpAt (roundAt rounds) j := by
    intro j
    induction j using Nat.strong_induction_on with
    | _ j ih =>
      intro hj hgives
      obtain ⟨c₁, hrun₁, hcounts⟩ := run_counts hrounds data fun i hi => ih i hi (by omega)
      rw [firstRounds_roundAt rounds hj.le] at hrun₁
      have hsplit : rounds = rounds.take j ++ rounds.drop j := (List.take_append_drop j rounds).symm
      rw [hsplit, run_append, hrun₁, Option.bind_some] at hrun
      have hresult : c₁.result.isSome = true := by
        rw [hcounts.result, if_pos hgives]
        rfl
      have hnil := (run_of_result hresult hrun).1
      have hlength := congrArg List.length hnil
      rw [List.length_drop, List.length_nil] at hlength
      omega
  obtain ⟨c₁, hrun₁, hcounts⟩ := run_counts hrounds data hbefore
  rw [firstRounds_roundAt rounds le_rfl, List.take_length, hrun] at hrun₁
  obtain rfl := Option.some.inj hrun₁
  exact hcounts

theorem not_acked_of_failed {r : HeartbeatRound} (h : r.answer = .failed) : r.acked = false := by
  unfold HeartbeatRound.acked
  rw [h]
  cases r.recvPacket <;> rfl

/-- The rounds that a client has made in the network are a run of it, all of it sent to the
server, and when all its calls succeed, it has given up exactly if nothing arrived in its last
three rounds: the server and the other clients cannot make it give up or move it to another
address. -/
theorem heartbeat_client_ends (a : HeartbeatAddresses κ)
    (hrun : run a.parties.step (a.initial sockfd socket timeout) ls = some s) {k : κ}
    (hhalf : (s.clients k).half = none) :
    run heartbeatRound (.start (timeout k) (setupHeartbeatClient (socket k) a.server))
        (s.clients k).rounds = some (s.clients k).client ∧
      (∀ x ∈ (s.clients k).client.log, x.dest = sockaddr a.server) ∧
      (timeout k = true → (∀ r ∈ (s.clients k).rounds, r.Succeeds) →
        ((s.clients k).client.result = some (-1) ↔ GoesSilent (s.clients k).rounds)) := by
  have h := ((a.keeps _).run (a.initial_holds sockfd socket timeout) hrun).clients k
  have hclient := h.between hhalf
  refine ⟨hclient, h.log, fun htimeout hsucceeds => ?_⟩
  rw [htimeout] at hclient
  have hcounts := counts_of_run hsucceeds hclient
  have hwindow : GivesUpAt (roundAt (s.clients k).rounds) (s.clients k).rounds.length ↔
      GoesSilent (s.clients k).rounds := by
    refine and_congr_right fun _ => forall₂_congr fun i hi => imp_congr_right fun _ => ?_
    rw [not_iff_not]
    have hmem := roundAt_mem hi
    constructor
    · intro hacked hfailed
      exact absurd hacked (by simp [not_acked_of_failed hfailed])
    · exact h.acked _ hmem (hsucceeds _ hmem).recvPacket
  rw [hcounts.result, ← hwindow]
  by_cases hgives : GivesUpAt (roundAt (s.clients k).rounds) (s.clients k).rounds.length
  · simp [hgives]
  · simp [hgives]

/-! ## Answers -/

/-- The server reads a `HEARTBEAT`. -/
theorem heartbeatPass_read {t : HeartbeatServer} (hinv : HeartbeatInv t)
    (hstatus : t.status = .running) {env : HeartbeatEnv} (hthread : env.threadResult = true)
    (hpacket : env.packet = true) {data : List UInt8} (hcarries : Carries (bytes "HEARTBEAT") data)
    (source : Vector UInt8 8) :
    heartbeatPass t (.read env (.datagram data source)) =
      some { t with
        data := { t.data with
          addr := sockaddr source, addrlen := sockaddrSize, packet := some data }
        log := t.log ++ [.read (some ⟨data, source, env.now⟩)] } := by
  have hterminated := (hcarries.visible source env.now).1
  have hne : data ≠ [] := by
    rintro rfl
    exact absurd (hcarries.shape (by decide)).2 (by decide)
  simp only [heartbeatPass, hstatus, if_true,
    handleClientHeartbeatRead_datagram hinv.addr hthread hpacket, hne, if_false, hterminated,
    hcarries.received (by decide), HeartbeatServer.finish, readOf, hpacket]

/-- It answers. -/
theorem heartbeatPass_write {t : HeartbeatServer} (hstatus : t.status = .running)
    {env : HeartbeatEnv} (hthread : env.threadResult = true) (hpacket : env.packet = true)
    {data : List UInt8} (hcarries : Carries (bytes "HEARTBEAT") data)
    (hdata : t.data.packet = some data) (self : Vector UInt8 8) :
    ∃ t' ack, heartbeatPass t (.write env true) = some t' ∧ t'.status = .running ∧
      Carries (bytes "ACK") ack ∧
      (HeartbeatPass.write env true).sends self t = [⟨sockaddr self, t.data.dest, ack⟩] := by
  obtain ⟨hterminated, hvisible, -⟩ := hcarries.visible (localPeer 0) 0
  rw [Received.Terminated, hcarries.received (by decide)] at hterminated
  rw [Received.visible, hcarries.received (by decide)] at hvisible
  have halloc : createHeartbeatPacket env.packet env.now (bytes "ACK") =
      createHeartbeatPacket true env.now (bytes "ACK") := by rw [hpacket]
  obtain ⟨ack, hack⟩ : ∃ ack, createHeartbeatPacket true env.now (bytes "ACK") = some ack :=
    ⟨_, rfl⟩
  rw [hack] at halloc
  have houtcome : handleClientHeartbeatWrite env true (some t.data) =
      ⟨.returned threadResultSuccess { t.data with packet := none },
        some ⟨ack, t.data.dest, true⟩⟩ := by
    have hlength : ¬ ((ack.length : Int) < 0) := by omega
    simp only [handleClientHeartbeatWrite, hthread, if_true, hdata, hterminated,
      not_true_eq_false, if_false, hvisible, halloc, sendHeartbeatPacket, hlength,
      HeartbeatData.dest]
  refine ⟨_, ack, if_pos hstatus, ?_, ⟨env.now, hack⟩, ?_⟩
  · rw [houtcome]
    exact hstatus
  · rw [HeartbeatPass.sends, houtcome]
    rfl

/-- A client that waits can get its answer while the server runs: by a read and a write of the
server and its own receive, behind which its counter is back at zero. -/
theorem heartbeat_client_answered (a : HeartbeatAddresses κ)
    (hrun : run a.parties.step (a.initial sockfd socket timeout) ls = some s) {k : κ}
    (hhalf : (s.clients k).half.isSome = true) (hrunning : s.server.status = .running)
    {env : HeartbeatEnv} (hthread : env.threadResult = true) (hpacket : env.packet = true)
    (block : Vector UInt8 heartbeatPacketSize) :
    ∃ data ack s', run a.parties.step s
        [.server (.read env (.datagram data (a.client k))), .server (.write env true),
          .client k (.receive (some block) (.datagram ack a.server))] = some s' ∧
      s'.server.status = .running ∧ (s'.clients k).half = none ∧
      (s'.clients k).client.result = none ∧ (s'.clients k).client.retries = 0 := by
  -- the client has sent its heartbeat, and the network may deliver it
  have h := (a.keeps _).run (a.initial_holds sockfd socket timeout) hrun
  obtain ⟨calls, hcalls⟩ := Option.isSome_iff_exists.mp hhalf
  obtain ⟨-, -, -, -, hnone, d, hd, hsrc⟩ := (h.clients k).waiting calls hcalls
  obtain ⟨hdst, hcarries⟩ := heartbeat_of_sender h.caused hd hsrc
  have hmem : ⟨sockaddr (a.client k), sockaddr a.server, d.data⟩ ∈ s.sent := by
    rw [← hsrc, ← hdst]
    exact hd
  -- the server reads it
  have hread := heartbeatPass_read h.server.inv hrunning hthread hpacket hcarries (a.client k)
  generalize ht : ({ s.server with
    data := { s.server.data with
      addr := sockaddr (a.client k), addrlen := sockaddrSize, packet := some d.data }
    log := s.server.log ++ [.read (some ⟨d.data, a.client k, env.now⟩)] } :
      HeartbeatServer) = t at hread
  have htdata : t.data.packet = some d.data ∧ t.data.dest = sockaddr (a.client k) ∧
      t.status = .running := by
    subst ht
    exact ⟨rfl, List.take_of_length_le (length_sockaddr (a.client k)).le, hrunning⟩
  -- it answers to the address it has read
  obtain ⟨t', ack, hwrite, hstatus, hack, hsends⟩ :=
    heartbeatPass_write htdata.2.2 hthread hpacket hcarries htdata.1 a.server
  rw [htdata.2.1] at hsends
  -- the client takes the answer for an ACK
  have hreceive := HeartbeatClient.receive_counts
    (r := calls.round (some block) (.datagram ack a.server)) rfl hnone
  rw [hack.acked rfl rfl] at hreceive
  -- the three steps, one after the other
  have hdone : run a.parties.step s
      [.server (.read env (.datagram d.data (a.client k))), .server (.write env true),
        .client k (.receive (some block) (.datagram ack a.server))] =
      some ⟨t', Function.update s.clients k
        ⟨(s.clients k).client.receive (calls.round (some block) (.datagram ack a.server)), none,
          (s.clients k).rounds ++ [calls.round (some block) (.datagram ack a.server)]⟩,
        s.sent ++ [⟨sockaddr a.server, sockaddr (a.client k), ack⟩]⟩ := by
    simp [run, Parties.step, HeartbeatAddresses.parties, RecvFrom.datagramTo, hmem, hread,
      HeartbeatPass.sends.eq_1, hwrite, hsends, clientMove, hcalls]
  refine ⟨d.data, ack, _, hdone, hstatus, ?_, ?_, ?_⟩
  · simp
  · simp only [Function.update_self]
    rw [hreceive.2.2, hreceive.2.1]
    rfl
  · simp only [Function.update_self]
    exact hreceive.2.1

end Network

/-! ## Two clients -/

/-- The server on one port of the local host, and two clients on others. -/
def twoHeartbeatClients : HeartbeatAddresses Bool where
  server := localPeer 9
  client k := if k then localPeer 1 else localPeer 2
  client_ne := by decide

/-- The packet with a message. -/
def packetOf (message : List UInt8) : List UInt8 := (createHeartbeatPacket true 1 message).getD []

/-- Both clients send, and the first one gets its answer. -/
def oneAnswered : List (ExchangeLabel Bool HeartbeatPass HeartbeatMove) :=
  [.client true (.send ⟨true, 1, true⟩), .client false (.send ⟨true, 1, true⟩),
    .server (.read (.ideal 1) (.datagram (packetOf (bytes "HEARTBEAT")) (localPeer 1))),
    .server (.write (.ideal 1) true),
    .client true (.receive (some (Vector.replicate heartbeatPacketSize 0))
      (.datagram (packetOf (bytes "ACK")) (localPeer 9)))]

theorem heartbeat_network_safe_oneAnswered : ∃ s,
    run twoHeartbeatClients.parties.step (twoHeartbeatClients.initial 5 (fun _ => 3) fun _ => true)
      oneAnswered = some s ∧ twoHeartbeatClients.Safe s := by
  have hsome : (run twoHeartbeatClients.parties.step
      (twoHeartbeatClients.initial 5 (fun _ => 3) fun _ => true) oneAnswered).isSome = true := by
    decide +kernel
  obtain ⟨s, hs⟩ := Option.isSome_iff_exists.mp hsome
  exact ⟨s, hs, heartbeat_network_safe twoHeartbeatClients hs⟩

/-- A round in which nothing arrives. -/
def silentMoves : List (ExchangeLabel Bool HeartbeatPass HeartbeatMove) :=
  [.client true (.send ⟨true, 0, true⟩),
    .client true (.receive (some (Vector.replicate heartbeatPacketSize 0)) .failed)]

theorem heartbeat_client_ends_silent : ∃ s,
    run twoHeartbeatClients.parties.step (twoHeartbeatClients.initial 5 (fun _ => 3) fun _ => true)
      (silentMoves ++ silentMoves ++ silentMoves) = some s ∧
      (s.clients true).client.result = some (-1) := by
  have hrounds : (run twoHeartbeatClients.parties.step
      (twoHeartbeatClients.initial 5 (fun _ => 3) fun _ => true)
      (silentMoves ++ silentMoves ++ silentMoves)).map
        (fun s => ((s.clients true).half, (s.clients true).rounds.map
          fun r => (r.packet, r.sendto, r.recvPacket.isSome, r.answer))) =
      some (none, List.replicate 3 (true, true, true, RecvFrom.failed)) := by decide +kernel
  obtain ⟨s, hs, heq⟩ := Option.map_eq_some_iff.mp hrounds
  obtain ⟨hhalf, hrounds⟩ := Prod.mk.inj heq
  obtain ⟨r₁, r₂, r₃, hlist⟩ : ∃ r₁ r₂ r₃, (s.clients true).rounds = [r₁, r₂, r₃] := by
    have hlength := congrArg List.length hrounds
    rw [List.length_map, List.length_replicate] at hlength
    exact List.length_eq_three.mp hlength
  rw [hlist] at hrounds
  simp only [List.map_cons, List.map_nil, List.replicate, List.cons.injEq, Prod.mk.injEq,
    and_true] at hrounds
  obtain ⟨⟨hp₁, hs₁, hb₁, ha₁⟩, ⟨hp₂, hs₂, hb₂, ha₂⟩, hp₃, hs₃, hb₃, ha₃⟩ := hrounds
  refine ⟨s, hs, ((heartbeat_client_ends twoHeartbeatClients hs hhalf).2.2 rfl ?_).mpr ?_⟩
  · rw [hlist]
    simp only [List.mem_cons, List.not_mem_nil, or_false]
    rintro r (rfl | rfl | rfl)
    · exact ⟨hp₁, hs₁, hb₁⟩
    · exact ⟨hp₂, hs₂, hb₂⟩
    · exact ⟨hp₃, hs₃, hb₃⟩
  · rw [hlist]
    refine ⟨Nat.le_refl 3, fun i hi _ => ?_⟩
    rw [not_not]
    match i, hi with
    | 0, _ => exact ha₁
    | 1, _ => exact ha₂
    | 2, _ => exact ha₃

theorem heartbeat_client_answered_first : ∃ s s' data ack,
    run twoHeartbeatClients.parties.step (twoHeartbeatClients.initial 5 (fun _ => 3) fun _ => true)
      [.client true (.send ⟨true, 1, true⟩)] = some s ∧
      run twoHeartbeatClients.parties.step s
        [.server (.read (.ideal 1) (.datagram data (localPeer 1))),
          .server (.write (.ideal 1) true), .client true (.receive
            (some (Vector.replicate heartbeatPacketSize 0)) (.datagram ack (localPeer 9)))] =
        some s' ∧ (s'.clients true).client.retries = 0 := by
  have hstate : (run twoHeartbeatClients.parties.step
      (twoHeartbeatClients.initial 5 (fun _ => 3) fun _ => true)
      [.client true (.send ⟨true, 1, true⟩)]).map
        (fun s => ((s.clients true).half.isSome, s.server.status)) =
      some (true, .running) := by decide +kernel
  obtain ⟨s, hs, heq⟩ := Option.map_eq_some_iff.mp hstate
  obtain ⟨hhalf, hrunning⟩ := Prod.mk.inj heq
  obtain ⟨data, ack, s', hs', -, -, -, hretries⟩ := heartbeat_client_answered twoHeartbeatClients
    hs hhalf hrunning (show (HeartbeatEnv.ideal 1).threadResult = true from rfl) rfl
    (Vector.replicate heartbeatPacketSize 0)
  exact ⟨s, s', data, ack, hs, hs', hretries⟩

end SelectServer
