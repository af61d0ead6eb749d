import SelectServer.CLib.BigEndian
import SelectServer.Server.SimpleHandlers

/-!
# The heartbeat handlers of `server/server.c`

All heartbeat clients share one record with one packet and one address.
`handle_client_heartbeat_read` receives a datagram into the packet and its source into the
address; `handle_client_heartbeat_write` sends an `ACK` to the address when the packet
contains `HEARTBEAT`. Select decides which of them a pass runs.

The message of a packet is read as a string, up to its first NUL. A datagram that fills the
1024 bytes of the message runs on into the time stamp behind it, so what the server sees
(`Received.visible`) is not quite what was sent. Of what it sees, every `ACK` has a datagram
of its own (`acks_solicited`); each datagram has its `ACK` before the next one is read
exactly if no read finds one waiting (`heartbeats_acknowledged`).
-/

namespace SelectServer

open CLib Systems

/-! ## Constants -/

/-- `THREAD_RESULT_EMPTY_PACKET`. -/
def threadResultEmptyPacket : Int := -2

/-- `HEARTBEAT_BUF_SIZE`. -/
def heartbeatBufSize : Nat := 1024

/-- `sizeof(Heartbeat_Packet)`: the message and the time stamp. -/
def heartbeatPacketSize : Nat := 1032

/-- `sizeof(struct sockaddr)`. -/
def sockaddrSize : Nat := 16

/-! ## Packets -/

/-- The bytes of a `time_t`. -/
def timestampBytes (now : Nat) : List UInt8 := (bigEndian 8 now).reverse

/-- `create_heartbeat_packet`, as the bytes of the packet; `none` is NULL. -/
def createHeartbeatPacket (alloc : Bool) (now : Nat) (message : List UInt8) :
    Option (List UInt8) :=
  if alloc then
    some (message ++ List.replicate (heartbeatBufSize - message.length) 0 ++ timestampBytes now)
  else none

/-- The address of an IPv4 peer, as the kernel stores it: family, port and host, and eight
bytes of zeros. -/
def sockaddr (source : Vector UInt8 8) : List UInt8 := source.toList ++ List.replicate 8 0

/-- The answer of the kernel to `recvfrom`. -/
inductive RecvFrom
  | failed
  | datagram (data : List UInt8) (source : Vector UInt8 8)
  deriving DecidableEq

/-- What `recv_heartbeat_packet` leaves behind: its result and what its pointers refer to. -/
structure RecvHeartbeat where
  ret : Int
  packet : List UInt8
  addr : List UInt8
  addrlen : Nat

/-- `recv_heartbeat_packet`. What does not fit into the packet is dropped, and so is what
does not fit into the address; `addrlen` becomes the size of the whole address. -/
def recvHeartbeatPacket (answer : RecvFrom) (packet addr : List UInt8) (addrlen : Nat) :
    RecvHeartbeat :=
  match answer with
  | .failed => ⟨-1, packet, addr, addrlen⟩
  | .datagram data source =>
    let received := data.take heartbeatPacketSize
    { ret := received.length
      packet := received ++ packet.drop received.length
      addr := (sockaddr source).take addrlen ++ addr.drop addrlen
      addrlen := sockaddrSize }

/-- A `sendto`: the bytes, where they go, and whether the kernel takes them. -/
structure Ack where
  packet : List UInt8
  dest : List UInt8
  sent : Bool
  deriving DecidableEq

/-- `send_heartbeat_packet`, with the `sendto` it makes. -/
def sendHeartbeatPacket (sendto : Bool) (packet addr : List UInt8) (addrlen : Nat) : Int × Ack :=
  (if sendto then packet.length else -1, ⟨packet, addr.take addrlen, sendto⟩)

/-! ## The handlers -/

/-- `Heartbeat_Data`; `addr` is the block the pointer refers to. -/
structure HeartbeatData where
  sockfd : Int
  addr : List UInt8
  addrlen : Nat
  packet : Option (List UInt8)
  deriving DecidableEq

/-- `create_heartbeat_data`. The length of the address starts as the size of a pointer. -/
def createHeartbeatData (sockfd : Int) : HeartbeatData where
  sockfd := sockfd
  addr := List.replicate sockaddrSize 0
  addrlen := 8
  packet := none

/-- The answers of the system to a handler: its `malloc` calls and `time`. -/
structure HeartbeatEnv where
  threadResult : Bool
  packet : Bool
  now : Nat
  deriving DecidableEq

/-- `handle_client_heartbeat_read`. -/
def handleClientHeartbeatRead (env : HeartbeatEnv) (answer : RecvFrom)
    (arg : Option HeartbeatData) : HandlerResult HeartbeatData :=
  match arg with
  | none => .null
  | some data =>
    if env.threadResult then
      -- the packet held so far is freed
      match createHeartbeatPacket env.packet env.now [] with
      | none => .returned threadResultError { data with packet := none }
      | some packet =>
        let r := recvHeartbeatPacket answer packet data.addr data.addrlen
        let data := { data with addr := r.addr, addrlen := r.addrlen, packet := none }
        if r.ret = 0 then .returned threadResultClosed data
        else if r.ret < 0 then .returned threadResultError data
        -- the message is logged as a string
        else if 0 ∈ r.packet then
          .returned threadResultSuccess { data with packet := some r.packet }
        else .fault
    else .null

/-- The text contains `HEARTBEAT`. -/
def containsHeartbeat (s : List UInt8) : Bool := (strstr (bytes "HEARTBEAT") s).isSome

/-- A run of the write handler: its result and the `sendto` it makes, if any. -/
structure HeartbeatWrite where
  outcome : HandlerResult HeartbeatData
  ack : Option Ack

/-- `handle_client_heartbeat_write`; `sendto` tells whether that call succeeds. -/
def handleClientHeartbeatWrite (env : HeartbeatEnv) (sendto : Bool)
    (arg : Option HeartbeatData) : HeartbeatWrite :=
  match arg with
  | none => ⟨.null, none⟩
  | some data =>
    if env.threadResult then
      match data.packet with
      | none => ⟨.returned threadResultEmptyPacket data, none⟩
      | some packet =>
        if 0 ∉ packet then ⟨.fault, none⟩
        else if containsHeartbeat (cstr packet) then
          match createHeartbeatPacket env.packet env.now (bytes "ACK") with
          | none => ⟨.returned threadResultError { data with packet := none }, none⟩
          | some ack =>
            let r := sendHeartbeatPacket sendto ack data.addr data.addrlen
            ⟨.returned (if r.1 < 0 then threadResultError else threadResultSuccess)
              { data with packet := none }, some r.2⟩
        else ⟨.returned threadResultSuccess data, none⟩
    else ⟨.null, none⟩

/-! ## Passes of the loop -/

/-- A datagram that was read, and the time when it was. -/
structure Received where
  datagram : List UInt8
  source : Vector UInt8 8
  now : Nat
  deriving DecidableEq

/-- The packet with the datagram in it: what it does not cover is the empty message and the
time stamp. -/
def Received.packet (r : Received) : List UInt8 :=
  r.datagram.take heartbeatPacketSize ++
    (List.replicate heartbeatBufSize 0 ++ timestampBytes r.now).drop
      (r.datagram.take heartbeatPacketSize).length

/-- The string in the packet ends. -/
def Received.Terminated (r : Received) : Prop := 0 ∈ r.packet

instance (r : Received) : Decidable r.Terminated := inferInstanceAs (Decidable (0 ∈ r.packet))

/-- What the write handler sees of the datagram contains `HEARTBEAT`. -/
def Received.visible (r : Received) : Bool := containsHeartbeat (cstr r.packet)

/-- Where the loop of `handle_connections` stands. -/
inductive LoopStatus
  | running
  | stopped
  | undefined
  deriving DecidableEq, Repr

/-- The heartbeat side of the server, with the log of what was read (nothing, if the receive
failed or had no memory) and of the `sendto` calls. -/
structure HeartbeatServer where
  data : HeartbeatData
  status : LoopStatus
  log : List (Turn (Option Received) Ack)
  deriving DecidableEq

/-- The server before its first pass. -/
def HeartbeatServer.initial (sockfd : Int) : HeartbeatServer :=
  ⟨createHeartbeatData sockfd, .running, []⟩

/-- A pass of the loop over the UDP socket. -/
inductive HeartbeatPass
  | read (env : HeartbeatEnv) (answer : RecvFrom)
  | write (env : HeartbeatEnv) (sendto : Bool)
  deriving DecidableEq

/-- The answers of the system to the handler of a pass. -/
def HeartbeatPass.env : HeartbeatPass → HeartbeatEnv
  | .read env _ => env
  | .write env _ => env

/-- What the read handler reads. -/
def readOf (env : HeartbeatEnv) : RecvFrom → Option Received
  | .failed => none
  | .datagram data source => if env.packet then some ⟨data, source, env.now⟩ else none

/-- What `handle_connections` makes of the result of a handler: NULL ends the loop, any
`Thread_Result` lets it go on. -/
def HeartbeatServer.finish (s : HeartbeatServer) (outcome : HandlerResult HeartbeatData)
    (events : List (Turn (Option Received) Ack)) : HeartbeatServer :=
  match outcome with
  | .fault => { s with status := .undefined, log := s.log ++ events }
  | .null => { s with status := .stopped }
  | .returned _ data => { s with data := data, log := s.log ++ events }

/-- One pass of the running loop. -/
def heartbeatPass (s : HeartbeatServer) : HeartbeatPass → Option HeartbeatServer
  | .read env answer =>
    if s.status = .running then
      let outcome := handleClientHeartbeatRead env answer (some s.data)
      some (s.finish outcome [.read (readOf env answer)])
    else none
  | .write env sendto =>
    if s.status = .running then
      let r := handleClientHeartbeatWrite env sendto (some s.data)
      some (s.finish r.outcome (r.ack.toList.map .sent))
    else none

/-! ## What a pass does -/

/-- The condition of the write handler: a packet whose string contains `HEARTBEAT`. -/
def heartbeatPending (data : HeartbeatData) : Bool :=
  match data.packet with
  | none => false
  | some packet => containsHeartbeat (cstr packet)

/-- What is missing from an address shorter than its block is zero, as in every address. -/
structure AddrReady (data : HeartbeatData) : Prop where
  addrlen_ge : 8 ≤ data.addrlen
  drop_eq : data.addr.drop data.addrlen = (List.replicate sockaddrSize 0).drop data.addrlen

theorem addrReady_create (sockfd : Int) : AddrReady (createHeartbeatData sockfd) :=
  ⟨le_rfl, rfl⟩

theorem length_sockaddr (source : Vector UInt8 8) : (sockaddr source).length = sockaddrSize := by
  simp [sockaddr, sockaddrSize]

theorem drop_sockaddr (source : Vector UInt8 8) {n : Nat} (h : 8 ≤ n) :
    (sockaddr source).drop n = (List.replicate sockaddrSize 0).drop n := by
  have hlength : source.toList.length = 8 := source.length_toList
  obtain ⟨k, rfl⟩ := Nat.exists_eq_add_of_le h
  have hzeros : (List.replicate sockaddrSize (0 : UInt8)).drop 8 = List.replicate 8 0 := rfl
  rw [← List.drop_drop, ← List.drop_drop, sockaddr, List.drop_left' hlength, hzeros]

/-- A receive leaves the whole address of its datagram. -/
theorem AddrReady.received {data : HeartbeatData} (h : AddrReady data)
    (source : Vector UInt8 8) :
    (sockaddr source).take data.addrlen ++ data.addr.drop data.addrlen = sockaddr source := by
  rw [h.drop_eq, ← drop_sockaddr source h.addrlen_ge, List.take_append_drop]

/-- Where the write handler sends to. -/
def HeartbeatData.dest (data : HeartbeatData) : List UInt8 := data.addr.take data.addrlen

/-- What a pass makes of the server. -/
inductive Passed (s : HeartbeatServer) : HeartbeatPass → HeartbeatServer → Prop
  /-- The handler returned NULL. -/
  | stopped (pass : HeartbeatPass) (hthread : pass.env.threadResult = false) :
    Passed s pass { s with status := .stopped }
  /-- Nothing was received, and the packet is gone. -/
  | cleared (env : HeartbeatEnv) (answer : RecvFrom) (hthread : env.threadResult = true)
      (hnone : readOf env answer = none) :
    Passed s (.read env answer)
      { s with data := { s.data with packet := none }, log := s.log ++ [.read none] }
  /-- A datagram was received; an empty one counts as a close. -/
  | received (env : HeartbeatEnv) (answer : RecvFrom) (r : Received) (packet : Option (List UInt8))
      (hthread : env.threadResult = true) (hsome : readOf env answer = some r)
      (hterminated : r.Terminated)
      (hpacket : packet = some r.packet ∨ packet = none ∧ r.visible = false) :
    Passed s (.read env answer)
      { s with
        data := { s.data with addr := sockaddr r.source, addrlen := sockaddrSize, packet }
        log := s.log ++ [.read (some r)] }
  /-- A datagram was received that leaves no string in the packet. -/
  | overrun (env : HeartbeatEnv) (answer : RecvFrom) (r : Received)
      (hthread : env.threadResult = true) (hsome : readOf env answer = some r)
      (hterminated : ¬ r.Terminated) :
    Passed s (.read env answer)
      { s with status := .undefined, log := s.log ++ [.read (some r)] }
  /-- There is nothing to acknowledge. -/
  | idle (env : HeartbeatEnv) (sendto : Bool) (hpending : heartbeatPending s.data = false) :
    Passed s (.write env sendto) s
  /-- There is no memory for the acknowledgement, and the packet is gone. -/
  | dropped (env : HeartbeatEnv) (sendto : Bool) (hthread : env.threadResult = true)
      (halloc : env.packet = false) (hpending : heartbeatPending s.data = true) :
    Passed s (.write env sendto) { s with data := { s.data with packet := none } }
  /-- The acknowledgement is sent, or its `sendto` fails. -/
  | acked (env : HeartbeatEnv) (sendto : Bool) (packet : List UInt8)
      (hpending : heartbeatPending s.data = true) :
    Passed s (.write env sendto)
      { s with
        data := { s.data with packet := none }
        log := s.log ++ [.sent ⟨packet, s.data.dest, sendto⟩] }

variable {s s' : HeartbeatServer} {pass : HeartbeatPass}

theorem createHeartbeatPacket_empty (now : Nat) : createHeartbeatPacket true now [] =
    some (List.replicate heartbeatBufSize 0 ++ timestampBytes now) := rfl

/-- An empty datagram leaves an empty message. -/
theorem Received.visible_of_nil {r : Received} (h : r.datagram = []) :
    r.Terminated ∧ r.visible = false := by
  have hpacket : r.packet = 0 :: (List.replicate (heartbeatBufSize - 1) 0 ++
      timestampBytes r.now) := by
    rw [Received.packet, h]
    rfl
  refine ⟨?_, ?_⟩
  · rw [Received.Terminated, hpacket]
    exact List.mem_cons_self
  · rw [Received.visible, hpacket, cstr_zero_cons]
    decide

/-- What the read handler does with a datagram. -/
theorem handleClientHeartbeatRead_datagram {data : HeartbeatData} (haddr : AddrReady data)
    {env : HeartbeatEnv} (hthread : env.threadResult = true) (hpacket : env.packet = true)
    (datagram : List UInt8) (source : Vector UInt8 8) :
    let r : Received := ⟨datagram, source, env.now⟩
    handleClientHeartbeatRead env (.datagram datagram source) (some data) =
      (let data := { data with addr := sockaddr source, addrlen := sockaddrSize, packet := none }
        if datagram = [] then .returned threadResultClosed data
        else if r.Terminated then
          .returned threadResultSuccess { data with packet := some r.packet }
        else .fault) := by
  simp only [handleClientHeartbeatRead, hthread, hpacket, if_true, createHeartbeatPacket_empty,
    recvHeartbeatPacket, haddr.received, Received.Terminated, Received.packet]
  by_cases hnil : datagram = []
  · simp [hnil]
  · -- the count is positive
    have hpos : 0 < (datagram.take heartbeatPacketSize).length := by
      rw [List.length_take, heartbeatPacketSize]
      have := List.length_pos_iff.mpr hnil
      omega
    have h1 : ((datagram.take heartbeatPacketSize).length : Int) ≠ 0 := by omega
    have h2 := (Int.natCast_nonneg (datagram.take heartbeatPacketSize).length).not_gt
    rw [if_neg h1, if_neg h2, if_neg hnil]
    rfl

theorem passed_read {env : HeartbeatEnv} {answer : RecvFrom} (haddr : AddrReady s.data)
    (h : heartbeatPass s (.read env answer) = some s') : Passed s (.read env answer) s' := by
  simp only [heartbeatPass, Option.ite_none_right_eq_some, Option.some.injEq] at h
  obtain ⟨-, rfl⟩ := h
  by_cases hthread : env.threadResult = true
  · by_cases hpacket : env.packet = true
    · cases answer with
      | failed =>
        have houtcome : handleClientHeartbeatRead env .failed (some s.data) =
            .returned threadResultError { s.data with packet := none } := by
          simp [handleClientHeartbeatRead, hthread, hpacket, createHeartbeatPacket,
            recvHeartbeatPacket]
        rw [houtcome]
        exact .cleared env .failed hthread rfl
      | datagram datagram source =>
        have hread : readOf env (.datagram datagram source) =
            some ⟨datagram, source, env.now⟩ := if_pos hpacket
        rw [handleClientHeartbeatRead_datagram haddr hthread hpacket, hread]
        simp only
        by_cases hnil : datagram = []
        · obtain ⟨hterm, hvisible⟩ :=
            Received.visible_of_nil (r := ⟨datagram, source, env.now⟩) hnil
          rw [if_pos hnil]
          exact .received env _ _ none hthread hread hterm (Or.inr ⟨rfl, hvisible⟩)
        · rw [if_neg hnil]
          by_cases hterm : (Received.mk datagram source env.now).Terminated
          · rw [if_pos hterm]
            exact .received env _ _ _ hthread hread hterm (Or.inl rfl)
          · rw [if_neg hterm]
            exact .overrun env _ _ hthread hread hterm
    · have houtcome : handleClientHeartbeatRead env answer (some s.data) =
          .returned threadResultError { s.data with packet := none } := by
        simp [handleClientHeartbeatRead, hthread, hpacket, createHeartbeatPacket]
      have hread : readOf env answer = none := by
        cases answer with
        | failed => rfl
        | datagram datagram source => exact if_neg hpacket
      rw [houtcome, hread]
      exact .cleared env answer hthread hread
  · have houtcome : handleClientHeartbeatRead env answer (some s.data) = .null := by
      simp [handleClientHeartbeatRead, hthread]
    rw [houtcome]
    exact .stopped _ (Bool.eq_false_of_not_eq_true hthread)

theorem passed_write {env : HeartbeatEnv} {sendto : Bool}
    (hterm : ∀ packet, s.data.packet = some packet → 0 ∈ packet)
    (h : heartbeatPass s (.write env sendto) = some s') : Passed s (.write env sendto) s' := by
  simp only [heartbeatPass, Option.ite_none_right_eq_some, Option.some.injEq] at h
  obtain ⟨-, rfl⟩ := h
  by_cases hthread : env.threadResult = true
  · cases hslot : s.data.packet with
    | none =>
      have hpending : heartbeatPending s.data = false := by rw [heartbeatPending, hslot]
      have houtcome : handleClientHeartbeatWrite env sendto (some s.data) =
          ⟨.returned threadResultEmptyPacket s.data, none⟩ := by
        simp [handleClientHeartbeatWrite, hthread, hslot]
      rw [houtcome]
      simpa [HeartbeatServer.finish] using Passed.idle (s := s) env sendto hpending
    | some packet =>
      have hpending : heartbeatPending s.data = containsHeartbeat (cstr packet) := by
        rw [heartbeatPending, hslot]
      have hzero := not_not_intro (hterm packet hslot)
      cases hsees : containsHeartbeat (cstr packet) with
      | true =>
        rw [hsees] at hpending
        cases hpacket : env.packet with
        | true =>
          have hack := Passed.acked env sendto ((createHeartbeatPacket true env.now
            (bytes "ACK")).getD []) hpending
          simpa [handleClientHeartbeatWrite, hthread, hslot, hzero, hsees, hpacket,
            createHeartbeatPacket, sendHeartbeatPacket, HeartbeatServer.finish,
            HeartbeatData.dest] using hack
        | false =>
          have hdropped := Passed.dropped env sendto hthread hpacket hpending
          simpa [handleClientHeartbeatWrite, hthread, hslot, hzero, hsees, hpacket,
            createHeartbeatPacket, HeartbeatServer.finish] using hdropped
      | false =>
        rw [hsees] at hpending
        have hidle := Passed.idle env sendto hpending
        simpa [handleClientHeartbeatWrite, hthread, hslot, hzero, hsees,
          HeartbeatServer.finish] using hidle
  · have houtcome : handleClientHeartbeatWrite env sendto (some s.data) = ⟨.null, none⟩ := by
      simp [handleClientHeartbeatWrite, hthread]
    rw [houtcome]
    exact .stopped _ (Bool.eq_false_of_not_eq_true hthread)

/-! ## Invariants of every run -/

/-- The address is ready for a receive and the packet holds a string; and nothing is undefined
unless a datagram has overrun the packet. -/
structure HeartbeatInv (s : HeartbeatServer) : Prop where
  addr : AddrReady s.data
  terminated : ∀ packet, s.data.packet = some packet → 0 ∈ packet
  overrun : s.status = .undefined → ∃ r, .read (some r) ∈ s.log ∧ ¬ r.Terminated

theorem heartbeatInv_initial (sockfd : Int) : HeartbeatInv (.initial sockfd) where
  addr := addrReady_create sockfd
  terminated := by simp [HeartbeatServer.initial, createHeartbeatData]
  overrun := by simp [HeartbeatServer.initial]

theorem HeartbeatInv.passed (hinv : HeartbeatInv s) (h : heartbeatPass s pass = some s') :
    Passed s pass s' := by
  cases pass with
  | read env answer => exact passed_read hinv.addr h
  | write env sendto => exact passed_write hinv.terminated h

theorem status_of_heartbeatPass (h : heartbeatPass s pass = some s') : s.status = .running := by
  cases pass with
  | read => exact (Option.ite_none_right_eq_some.mp h).1
  | write => exact (Option.ite_none_right_eq_some.mp h).1

theorem heartbeatPass_inv (hinv : HeartbeatInv s) (h : heartbeatPass s pass = some s') :
    HeartbeatInv s' := by
  have hrunning := status_of_heartbeatPass h
  cases hinv.passed h with
  | stopped => exact ⟨hinv.addr, hinv.terminated, by simp⟩
  | cleared => exact ⟨⟨hinv.addr.1, hinv.addr.2⟩, by simp, by simp [hrunning]⟩
  | received env answer r packet hthread hsome hterminated hpacket =>
    have hsize : 8 ≤ sockaddrSize := by decide
    refine ⟨⟨hsize, drop_sockaddr r.source hsize⟩, ?_, by simp [hrunning]⟩
    rcases hpacket with rfl | ⟨rfl, -⟩
    · rintro _ ⟨⟩
      exact hterminated
    · simp
  | overrun env answer r hthread hsome hterminated =>
    exact ⟨hinv.addr, hinv.terminated, fun _ => ⟨r, by simp, hterminated⟩⟩
  | idle => exact hinv
  | dropped => exact ⟨⟨hinv.addr.1, hinv.addr.2⟩, by simp, by simp [hrunning]⟩
  | acked => exact ⟨⟨hinv.addr.1, hinv.addr.2⟩, by simp, by simp [hrunning]⟩

/-! ## What is read and what it asks for -/

/-- What the server sees asks for an acknowledgement. -/
def seesHeartbeat : Option Received → Bool
  | none => false
  | some r => r.visible

/-- What was sent asks for an acknowledgement. -/
def asksHeartbeat : Option Received → Bool
  | none => false
  | some r => containsHeartbeat r.datagram

/-- The acknowledgement goes where the datagram came from. -/
def Addressed : Option Received → Ack → Prop
  | none, _ => False
  | some r, ack => ack.dest = sockaddr r.source

/-- The log is in turn; and what it leaves to be acknowledged is what the record holds, with
its address. If `strict`, nothing else is left. -/
structure TracksHeartbeats (answers : Ack → Bool) (strict : Prop) (s : HeartbeatServer) :
    Prop where
  inv : HeartbeatInv s
  inTurn : InTurn seesHeartbeat answers Addressed strict none s.log
  held : s.status = .running → heartbeatPending s.data = true →
    ∃ r, pending seesHeartbeat answers s.log = some (some r) ∧
      s.data.dest = sockaddr r.source
  free : strict → s.status = .running → heartbeatPending s.data = false →
    pending seesHeartbeat answers s.log = none

theorem tracksHeartbeats_initial (answers : Ack → Bool) (strict : Prop) (sockfd : Int) :
    TracksHeartbeats answers strict (.initial sockfd) where
  inv := heartbeatInv_initial sockfd
  inTurn := trivial
  held := by simp [HeartbeatServer.initial, createHeartbeatData, heartbeatPending]
  free := fun _ _ _ => rfl

/-- A read finds nothing waiting, and there is memory for an acknowledgement that is due. -/
def SlotFree (s : HeartbeatServer) : HeartbeatPass → Prop
  | .read env _ => env.threadResult = true → heartbeatPending s.data = false
  | .write env _ =>
    env.threadResult = true → heartbeatPending s.data = true → env.packet = true

instance (s : HeartbeatServer) : DecidablePred (SlotFree s)
  | .read _ _ => inferInstanceAs (Decidable (_ → _))
  | .write _ _ => inferInstanceAs (Decidable (_ → _ → _))

theorem tracksHeartbeats_pass {answers : Ack → Bool} {strict : Prop}
    (hall : strict → ∀ ack, answers ack = true) (ht : TracksHeartbeats answers strict s)
    (hcond : strict → SlotFree s pass) (h : heartbeatPass s pass = some s') :
    TracksHeartbeats answers strict s' := by
  have hinv := heartbeatPass_inv ht.inv h
  have hrunning := status_of_heartbeatPass h
  -- a read is in turn when it finds nothing waiting
  have hread : ∀ a, (strict → heartbeatPending s.data = false) →
      InTurn seesHeartbeat answers Addressed strict none (s.log ++ [.read a]) := by
    intro a hfree
    apply ht.inTurn.concat_read
    intro hstrict
    exact ht.free hstrict hrunning (hfree hstrict)
  cases ht.inv.passed h with
  | stopped pass hthread => exact ⟨hinv, ht.inTurn, by simp, by simp⟩
  | cleared env answer hthread hnone =>
    refine ⟨hinv, hread none fun hstrict => hcond hstrict hthread, ?_, ?_⟩
    · simp [heartbeatPending]
    · intro _ _ _
      rw [pending_read]
      rfl
  | received env answer r packet hthread hsome hterminated hpacket =>
    -- what waits in the record is what is visible of the datagram
    have hslot : heartbeatPending { s.data with
        addr := sockaddr r.source, addrlen := sockaddrSize, packet } = r.visible := by
      rcases hpacket with rfl | ⟨rfl, hvisible⟩
      · rfl
      · rw [hvisible]
        rfl
    refine ⟨hinv, hread (some r) fun hstrict => hcond hstrict hthread, ?_, ?_⟩
    · intro _ hpending
      refine ⟨r, ?_, ?_⟩
      · rw [pending_read]
        exact if_pos (hslot.symm.trans hpending)
      · exact List.take_of_length_le (length_sockaddr r.source).le
    · intro _ _ hpending
      rw [pending_read]
      apply if_neg
      rw [seesHeartbeat, ← hslot, hpending]
      exact Bool.false_ne_true
  | overrun env answer r hthread hsome hterminated =>
    exact ⟨hinv, hread (some r) fun hstrict => hcond hstrict hthread, by simp, by simp⟩
  | idle => exact ht
  | dropped env sendto hthread halloc hpending =>
    refine ⟨hinv, ht.inTurn, by simp [heartbeatPending], ?_⟩
    intro hstrict
    -- there is memory for an acknowledgement that is due
    rw [hcond hstrict hthread hpending] at halloc
    exact absurd halloc (by decide)
  | acked env sendto packet hpending =>
    refine ⟨hinv, ?_, by simp [heartbeatPending], ?_⟩
    · apply ht.inTurn.concat_sent
      intro _
      -- the acknowledgement goes to the source of the datagram in the record
      obtain ⟨r, hr, hdest⟩ := ht.held hrunning hpending
      exact ⟨some r, hr, hdest⟩
    · intro hstrict _ _
      rw [pending_sent, if_pos (hall hstrict _)]

/-! ## Two clients -/

/-- A system in which no call fails. -/
def HeartbeatEnv.ideal (now : Nat) : HeartbeatEnv := ⟨true, true, now⟩

/-- A peer of the local host. -/
def localPeer (port : UInt8) : Vector UInt8 8 := #v[2, 0, 14, port, 127, 0, 0, 1]

/-- A heartbeat of a peer. -/
def heartbeatFrom (port : UInt8) : HeartbeatPass :=
  .read (.ideal 1) (.datagram (bytes "HEARTBEAT") (localPeer port))

/-- Two heartbeats, each with its acknowledgement. -/
def heartbeatTurns : List HeartbeatPass :=
  [heartbeatFrom 1, .write (.ideal 1) true, heartbeatFrom 2, .write (.ideal 1) true]

/-! ## Acknowledgements have heartbeats -/

/-- In every run, an `ACK` is only sent when the last datagram read shows `HEARTBEAT`, to its
sender, and once. -/
theorem acks_solicited {sockfd : Int} {passes : List HeartbeatPass}
    (hrun : run heartbeatPass (.initial sockfd) passes = some s) :
    Solicited seesHeartbeat Ack.sent Addressed s.log := by
  have hstep : ∀ s pass s', TracksHeartbeats Ack.sent False s →
      heartbeatPass s pass = some s' → TracksHeartbeats Ack.sent False s' :=
    fun _ _ _ ht h => tracksHeartbeats_pass False.elim ht False.elim h
  have ht := run_invariant hstep (tracksHeartbeats_initial _ _ sockfd) hrun
  exact solicited_of_inTurn ht.inTurn

/-- What a read pass receives has a property. -/
def ReadsMeet (P : Received → Prop) : HeartbeatPass → Prop
  | .read env answer => ∀ r ∈ readOf env answer, env.threadResult = true → P r
  | .write _ _ => True

instance (P : Received → Prop) [DecidablePred P] : DecidablePred (ReadsMeet P)
  | .read env answer =>
    inferInstanceAs (Decidable (∀ r ∈ readOf env answer, env.threadResult = true → P r))
  | .write _ _ => isTrue trivial

theorem ReadsMeet.mono {P Q : Received → Prop} {pass : HeartbeatPass} (h : ReadsMeet P pass)
    (hPQ : ∀ r, P r → Q r) : ReadsMeet Q pass := by
  cases pass with
  | read => exact fun r hr hthread => hPQ r (h r hr hthread)
  | write => trivial

/-- What each read pass receives has a property, so everything read has it. -/
theorem log_meets {P : Received → Prop} {sockfd : Int} {passes : List HeartbeatPass}
    (hmeets : Meets heartbeatPass (fun _ => ReadsMeet P) (.initial sockfd) passes)
    (hrun : run heartbeatPass (.initial sockfd) passes = some s) :
    HeartbeatInv s ∧ ∀ r, .read (some r) ∈ s.log → P r := by
  refine run_invariant_of_meets
    (P := fun s => HeartbeatInv s ∧ ∀ r, .read (some r) ∈ s.log → P r) ?_
    ⟨heartbeatInv_initial sockfd, fun r hr => absurd hr List.not_mem_nil⟩ hmeets hrun
  rintro s pass s' ⟨hinv, hlog⟩ hcond h
  refine ⟨heartbeatPass_inv hinv h, fun r hr => ?_⟩
  cases hinv.passed h with
  | stopped => exact hlog r hr
  | cleared => exact hlog r (by simpa using hr)
  | received env answer r' packet hthread hsome =>
    rcases List.mem_append.mp hr with hr | hr
    · exact hlog r hr
    · obtain rfl : r = r' := by simpa using hr
      exact hcond r hsome hthread
  | overrun env answer r' hthread hsome =>
    rcases List.mem_append.mp hr with hr | hr
    · exact hlog r hr
    · obtain rfl : r = r' := by simpa using hr
      exact hcond r hsome hthread
  | idle => exact hlog r hr
  | dropped => exact hlog r hr
  | acked => exact hlog r (by simpa using hr)

theorem HeartbeatInv.defined (hinv : HeartbeatInv s)
    (hterminated : ∀ r, .read (some r) ∈ s.log → r.Terminated) : s.status ≠ .undefined := by
  intro hstatus
  obtain ⟨r, hr, hnot⟩ := hinv.overrun hstatus
  exact hnot (hterminated r hr)

/-- A datagram that is read leaves a string in the packet, and shows no `HEARTBEAT` that it
does not contain. -/
def ShowsNoMore (r : Received) : Prop :=
  r.Terminated ∧ (r.visible = true → containsHeartbeat r.datagram = true)

instance (r : Received) : Decidable (ShowsNoMore r) := inferInstanceAs (Decidable (_ ∧ _))

/-- A datagram shorter than the message is shown as it is. -/
theorem showsNoMore_of_length_lt {r : Received} (h : r.datagram.length < heartbeatBufSize) :
    ShowsNoMore r := by
  have htake : r.datagram.take heartbeatPacketSize = r.datagram := by
    apply List.take_of_length_le
    unfold heartbeatBufSize at h
    unfold heartbeatPacketSize
    omega
  have hpacket : ∃ rest, r.packet = r.datagram ++ 0 :: rest := by
    obtain ⟨k, hk⟩ := Nat.exists_eq_add_of_lt h
    refine ⟨List.replicate k 0 ++ timestampBytes r.now, ?_⟩
    rw [Received.packet, htake, List.drop_append_of_le_length (by simpa using h.le),
      List.drop_replicate, hk, Nat.add_assoc, Nat.add_sub_cancel_left, List.replicate_succ,
      List.cons_append]
  obtain ⟨rest, hpacket⟩ := hpacket
  refine ⟨?_, fun hvisible => ?_⟩
  · rw [Received.Terminated, hpacket]
    simp
  · rw [Received.visible, hpacket, cstr_append_nul] at hvisible
    exact strstr_isSome_of_infix (by decide) (cstr_isPrefix _).isInfix hvisible

/-- The acknowledgements that were sent map to the datagrams that contain `HEARTBEAT`: each to
one that was read before it and came from where it went, no two of them to the same. -/
def AcksMapToHeartbeats (log : List (Turn (Option Received) Ack)) : Prop :=
  ∃ f : Nat → Nat,
    (∀ i ack, log[i]? = some (.sent ack) → ack.sent = true →
      f i < i ∧ ∃ a, log[f i]? = some (.read a) ∧ asksHeartbeat a = true ∧ Addressed a ack) ∧
    ∀ i j b c, log[i]? = some (.sent b) → b.sent = true →
      log[j]? = some (.sent c) → c.sent = true → f i = f j → i = j

/-- In every run in which no datagram shows the server a `HEARTBEAT` that it does not contain,
each `ACK` sent has a `HEARTBEAT` of its own. -/
theorem acks_map_to_heartbeats (sockfd : Int) (passes : List HeartbeatPass)
    (s : HeartbeatServer)
    (hmeets : Meets heartbeatPass (fun _ => ReadsMeet ShowsNoMore) (.initial sockfd) passes)
    (hrun : run heartbeatPass (.initial sockfd) passes = some s) :
    s.status ≠ .undefined ∧ AcksMapToHeartbeats s.log := by
  obtain ⟨hinv, hlog⟩ := log_meets hmeets hrun
  refine ⟨hinv.defined fun r hr => (hlog r hr).1, ?_⟩
  apply Solicited.exists_injection
  apply (acks_solicited hrun).mono
  intro a ha hsees
  cases a with
  | none => exact absurd hsees Bool.false_ne_true
  | some r => exact (hlog r ha).2 hsees

theorem acks_map_to_heartbeats_turns : ∃ s,
    run heartbeatPass (.initial 5) heartbeatTurns = some s ∧
      s.status ≠ .undefined ∧ AcksMapToHeartbeats s.log := by
  have hshort : ∀ pass ∈ heartbeatTurns,
      ReadsMeet (fun r => r.datagram.length < heartbeatBufSize) pass := by decide +kernel
  have hmeets : Meets heartbeatPass (fun _ => ReadsMeet ShowsNoMore) (.initial 5)
      heartbeatTurns :=
    meets_of_forall_mem fun _ pass hpass =>
      (hshort pass hpass).mono fun _ => showsNoMore_of_length_lt
  have hsome : (run heartbeatPass (.initial 5) heartbeatTurns).isSome = true := by
    decide +kernel
  obtain ⟨s, hs⟩ := Option.isSome_iff_exists.mp hsome
  exact ⟨s, hs, acks_map_to_heartbeats 5 heartbeatTurns s hmeets hs⟩

/-- A datagram that fills the message, without its last letter. -/
def fullMessage : List UInt8 := List.replicate 1016 65 ++ bytes "HEARTBEA"

/-- It is read when the low byte of the time is a `T`. -/
def fullMessagePasses : List HeartbeatPass :=
  [.read (.ideal 0x66e0c454) (.datagram fullMessage (localPeer 1)),
    .write (.ideal 0x66e0c455) true]

/-- The string runs on into the time stamp, and what was not sent is acknowledged. -/
theorem acks_without_heartbeat : ∃ s,
    run heartbeatPass (.initial 5) fullMessagePasses = some s ∧
      containsHeartbeat fullMessage = false ∧ ¬ AcksMapToHeartbeats s.log := by
  have hlog : (run heartbeatPass (.initial 5) fullMessagePasses).map HeartbeatServer.log =
      some [.read (some ⟨fullMessage, localPeer 1, 0x66e0c454⟩),
        .sent ⟨(createHeartbeatPacket true 0x66e0c455 (bytes "ACK")).getD [],
          sockaddr (localPeer 1), true⟩] := by decide +kernel
  have hnot : containsHeartbeat fullMessage = false := by decide +kernel
  obtain ⟨s, hs, hlog⟩ := Option.map_eq_some_iff.mp hlog
  refine ⟨s, hs, hnot, ?_⟩
  rintro ⟨f, hf, -⟩
  rw [hlog] at hf
  obtain ⟨hlt, a, ha, hasks, -⟩ := hf 1 _ rfl rfl
  rw [Nat.lt_one_iff.mp hlt] at ha
  obtain rfl : some ⟨fullMessage, localPeer 1, 0x66e0c454⟩ = a := by simpa using ha
  rw [asksHeartbeat, hnot] at hasks
  exact absurd hasks Bool.false_ne_true

/-! ## Heartbeats have acknowledgements -/

/-- A datagram that is read leaves a string in the packet, and shows the `HEARTBEAT` that it
contains, if any. -/
def ShowsNoLess (r : Received) : Prop :=
  r.Terminated ∧ (containsHeartbeat r.datagram = true → r.visible = true)

instance (r : Received) : Decidable (ShowsNoLess r) := inferInstanceAs (Decidable (_ ∧ _))

/-- A read finds no `HEARTBEAT` waiting, and what it reads shows the one it contains; and
there is memory for an acknowledgement that is due. -/
def HeartbeatInTurn (s : HeartbeatServer) (pass : HeartbeatPass) : Prop :=
  SlotFree s pass ∧ ReadsMeet ShowsNoLess pass

instance (s : HeartbeatServer) (pass : HeartbeatPass) : Decidable (HeartbeatInTurn s pass) :=
  inferInstanceAs (Decidable (_ ∧ _))

/-- What a client and its heartbeats can expect: each is acknowledged to its sender, by one
`sendto`, before the next datagram is read; and the last one, if it is not acknowledged
yet, is by the next write that has memory. -/
structure AcknowledgesHeartbeats (s : HeartbeatServer) : Prop where
  defined : s.status ≠ .undefined
  answered : AnsweredOnce asksHeartbeat (fun _ => true) Addressed s.log
  kept : s.status = .running → ∀ a, pending asksHeartbeat (fun _ => true) s.log = some a →
    ∀ env sendto, env.threadResult = true → env.packet = true →
      ∃ s' ack, heartbeatPass s (.write env sendto) = some s' ∧
        s'.log = s.log ++ [.sent ack] ∧ Addressed a ack

theorem heartbeats_acknowledged (sockfd : Int) (passes : List HeartbeatPass)
    (s : HeartbeatServer)
    (hmeets : Meets heartbeatPass HeartbeatInTurn (.initial sockfd) passes)
    (hrun : run heartbeatPass (.initial sockfd) passes = some s) : AcknowledgesHeartbeats s := by
  obtain ⟨hinv, hlog⟩ := log_meets (hmeets.mono fun _ _ h => h.2) hrun
  have hstep : ∀ s pass s', TracksHeartbeats (fun _ => true) True s → SlotFree s pass →
      heartbeatPass s pass = some s' → TracksHeartbeats (fun _ => true) True s' :=
    fun _ _ _ ht hcond h => tracksHeartbeats_pass (fun _ _ => rfl) ht (fun _ => hcond) h
  have ht := run_invariant_of_meets hstep (tracksHeartbeats_initial _ _ sockfd)
    (hmeets.mono fun _ _ h => h.1) hrun
  have hasks : ∀ a, .read a ∈ s.log → asksHeartbeat a = true → seesHeartbeat a = true := by
    intro a ha hasks
    cases a with
    | none => exact absurd hasks Bool.false_ne_true
    | some r => exact (hlog r ha).2 hasks
  refine ⟨hinv.defined fun r hr => (hlog r hr).1,
    (answeredOnce_of_inTurn ht.inTurn).mono hasks, ?_⟩
  intro hrunning a ha env sendto hthread hpacket
  have hpending := pending_mono hasks ha
  -- what is left to be acknowledged is what the record holds
  have hheld : heartbeatPending s.data = true := by
    by_contra hfree
    rw [ht.free trivial hrunning (by simpa using hfree)] at hpending
    exact absurd hpending (by simp)
  obtain ⟨r, hr, hdest⟩ := ht.held hrunning hheld
  obtain rfl : a = some r := Option.some.inj (hpending.symm.trans hr)
  have henabled : ∃ s', heartbeatPass s (.write env sendto) = some s' := ⟨_, if_pos hrunning⟩
  obtain ⟨s', hs'⟩ := henabled
  refine ⟨s', ?_⟩
  cases hinv.passed hs' with
  | stopped pass hnull =>
    rw [HeartbeatPass.env, hthread] at hnull
    exact absurd hnull (by decide)
  | idle env sendto hidle =>
    rw [hheld] at hidle
    exact absurd hidle (by decide)
  | dropped env sendto _ halloc =>
    rw [hpacket] at halloc
    exact absurd halloc (by decide)
  | acked env sendto packet => exact ⟨_, hs', rfl, hdest⟩

theorem heartbeats_acknowledged_turns :
    ∃ s, run heartbeatPass (.initial 5) heartbeatTurns = some s ∧ AcknowledgesHeartbeats s := by
  have hmeets : Meets heartbeatPass HeartbeatInTurn (.initial 5) heartbeatTurns := by
    decide +kernel
  have hsome : (run heartbeatPass (.initial 5) heartbeatTurns).isSome = true := by
    decide +kernel
  obtain ⟨s, hs⟩ := Option.isSome_iff_exists.mp hsome
  exact ⟨s, hs, heartbeats_acknowledged 5 heartbeatTurns s hmeets hs⟩

/-- The heartbeat of one client is overwritten by that of another one. -/
theorem heartbeats_overwritten : ∃ s,
    run heartbeatPass (.initial 5)
        [heartbeatFrom 1, heartbeatFrom 2, .write (.ideal 1) true, .write (.ideal 1) true] =
      some s ∧
      s.log = [.read (some ⟨bytes "HEARTBEAT", localPeer 1, 1⟩),
        .read (some ⟨bytes "HEARTBEAT", localPeer 2, 1⟩),
        .sent ⟨(createHeartbeatPacket true 1 (bytes "ACK")).getD [],
          sockaddr (localPeer 2), true⟩] ∧
      ¬ AcknowledgesHeartbeats s := by
  have hlog : (run heartbeatPass (.initial 5)
      [heartbeatFrom 1, heartbeatFrom 2, .write (.ideal 1) true, .write (.ideal 1) true]).map
        HeartbeatServer.log = some [.read (some ⟨bytes "HEARTBEAT", localPeer 1, 1⟩),
          .read (some ⟨bytes "HEARTBEAT", localPeer 2, 1⟩),
          .sent ⟨(createHeartbeatPacket true 1 (bytes "ACK")).getD [],
            sockaddr (localPeer 2), true⟩] := by decide +kernel
  obtain ⟨s, hs, hlog⟩ := Option.map_eq_some_iff.mp hlog
  refine ⟨s, hs, hlog, fun h => ?_⟩
  have hcount := (h.answered [] _ [] _ _ hlog (by decide) (by simp)).1
  simp at hcount

end SelectServer
