import SelectServer.Server.Connections
import SelectServer.Server.Heartbeat
import SelectServer.Server.Ledger
import Mathlib.Algebra.BigOperators.Fin

/-!
# What the server allocates, and what it loses

The heartbeat record joins the records of the TCP clients on the heap. Its handlers give back
whatever they allocate, as long as the datagrams that are read leave a string in the packet, so
the server loses what the TCP clients cost and nothing else: from the first `malloc` of
`handle_connections` to the end of its clean-up no block is freed twice, and what is left is what
the steps have lost, and the two arrays, which nothing frees (`handleConnections_loses`).
-/

namespace SelectServer

open CLib Systems

/-! ## The heartbeat record -/

/-- A `Heartbeat_Packet` with its block. Its message is a string. -/
structure HeldMessage where
  block : Nat
  bytes : List UInt8
  terminated : 0 ∈ bytes

/-- The block of a packet; NULL has none. -/
def messageBlocks : Option HeldMessage → Multiset Nat
  | none => 0
  | some p => {p.block}

/-- `Heartbeat_Data` with its block and that of its address. -/
structure HeldHeartbeat where
  block : Nat
  addrBlock : Nat
  sockfd : Int
  addr : List UInt8
  addrlen : Nat
  packet : Option HeldMessage

/-- The record without its blocks. -/
def HeldHeartbeat.plain (d : HeldHeartbeat) : HeartbeatData :=
  ⟨d.sockfd, d.addr, d.addrlen, d.packet.map HeldMessage.bytes⟩

/-- The blocks of the record. -/
def HeldHeartbeat.blocks (d : HeldHeartbeat) : Multiset Nat :=
  {d.block} + {d.addrBlock} + messageBlocks d.packet

/-- `free_heartbeat_packet`. -/
def freeHeartbeatPacket : Option HeldMessage → HeapM Unit
  | none => pure ()
  | some p => free p.block

/-- `create_heartbeat_data` on the heap. The block of the address is cleared without a look at
what `malloc` has returned. -/
def createHeartbeatDataOn (memory addrMemory : Bool) (sockfd : Int) :
    HeapM (Option HeldHeartbeat) :=
  if sockfd < 0 then pure none
  else if memory then do
    let block ← malloc
    if addrMemory then do
      let addrBlock ← malloc
      pure (some ⟨block, addrBlock, sockfd, List.replicate sockaddrSize 0, 8, none⟩)
    else failure
  else pure none

/-- `free_heartbeat_data`. -/
def freeHeartbeatData (d : HeldHeartbeat) : HeapM Unit := do
  free d.addrBlock
  freeHeartbeatPacket d.packet
  free d.block

/-- `handle_client_heartbeat_read` on the heap. -/
def handleClientHeartbeatReadOn (env : HeartbeatEnv) (answer : RecvFrom) (data : HeldHeartbeat) :
    HeapM (Option (HeldResult HeldHeartbeat)) :=
  if env.threadResult then do
    let block ← malloc
    freeHeartbeatPacket data.packet
    match createHeartbeatPacket env.packet env.now [] with
    | none => pure (some ⟨block, threadResultError, { data with packet := none }⟩)
    | some packet => do
      let packetBlock ← malloc
      let r := recvHeartbeatPacket answer packet data.addr data.addrlen
      let data := { data with addr := r.addr, addrlen := r.addrlen, packet := none }
      if r.ret = 0 then do
        free packetBlock
        pure (some ⟨block, threadResultClosed, data⟩)
      else if r.ret < 0 then do
        free packetBlock
        pure (some ⟨block, threadResultError, data⟩)
      else if hterm : 0 ∈ r.packet then
        pure (some ⟨block, threadResultSuccess,
          { data with packet := some ⟨packetBlock, r.packet, hterm⟩ }⟩)
      else failure
  else pure none

/-- `handle_client_heartbeat_write` on the heap. -/
def handleClientHeartbeatWriteOn (env : HeartbeatEnv) (sendto : Bool) (data : HeldHeartbeat) :
    HeapM (Option (HeldResult HeldHeartbeat) × Option Ack) :=
  if env.threadResult then do
    let block ← malloc
    match data.packet with
    | none => pure (some ⟨block, threadResultEmptyPacket, data⟩, none)
    | some held =>
      if containsHeartbeat (cstr held.bytes) then do
        free held.block
        match createHeartbeatPacket env.packet env.now (bytes "ACK") with
        | none => pure (some ⟨block, threadResultError, { data with packet := none }⟩, none)
        | some ack => do
          let ackBlock ← malloc
          let r := sendHeartbeatPacket sendto ack data.addr data.addrlen
          free ackBlock
          pure (some ⟨block, if r.1 < 0 then threadResultError else threadResultSuccess,
            { data with packet := none }⟩, some r.2)
      else pure (some ⟨block, threadResultSuccess, data⟩, none)
  else pure (none, none)

/-! ## What its handlers own -/

theorem owns_freeHeartbeatPacket {α : Type} {P : Multiset Nat} {m : HeapM α}
    {R : α → Multiset Nat → Prop} (hm : Owns P m R) (p : Option HeldMessage) :
    Owns (messageBlocks p + P) (freeHeartbeatPacket p >>= fun _ => m) R := by
  cases p with
  | none =>
    rw [messageBlocks, zero_add]
    exact hm
  | some p => exact Owns.free_bind hm

/-- The string in the packet that the handler reads ends. -/
def ReadsString (env : HeartbeatEnv) (answer : RecvFrom) : Prop :=
  ∀ r, readOf env answer = some r → r.Terminated

theorem ReadsString.mem {env : HeartbeatEnv} {answer : RecvFrom} (h : ReadsString env answer)
    {packet : List UInt8} (hcreate : createHeartbeatPacket env.packet env.now [] = some packet)
    {addr : List UInt8} {addrlen : Nat}
    (hret : ¬ (recvHeartbeatPacket answer packet addr addrlen).ret < 0) :
    0 ∈ (recvHeartbeatPacket answer packet addr addrlen).packet := by
  cases answer with
  | failed => exact absurd (show (-1 : Int) < 0 by decide) hret
  | datagram data source =>
    by_cases hpacket : env.packet = true
    · rw [hpacket, createHeartbeatPacket_empty] at hcreate
      obtain rfl := Option.some.inj hcreate
      exact h _ (if_pos hpacket)
    · rw [createHeartbeatPacket, if_neg hpacket] at hcreate
      cases hcreate

/-- The read handler gives back the packet of the record, and stores the new one there. -/
theorem owns_handleClientHeartbeatRead {env : HeartbeatEnv} {answer : RecvFrom}
    (hreads : ReadsString env answer) (data : HeldHeartbeat) :
    Owns data.blocks (handleClientHeartbeatReadOn env answer data) fun r O =>
      plainResult HeldHeartbeat.plain r = handleClientHeartbeatRead env answer (some data.plain) ∧
        O = resultBlocks HeldHeartbeat.blocks data r := by
  unfold handleClientHeartbeatReadOn handleClientHeartbeatRead
  cases hthread : env.threadResult with
  | false => exact Owns.pure ⟨rfl, rfl⟩
  | true =>
    apply Owns.malloc_bind
    intro block
    have hblocks : {block} + data.blocks =
        messageBlocks data.packet + ({block} + ({data.block} + {data.addrBlock})) := by
      rw [HeldHeartbeat.blocks]
      abel
    rw [hblocks]
    apply owns_freeHeartbeatPacket
    cases hcreate : createHeartbeatPacket env.packet env.now [] with
    | none =>
      refine Owns.pure ⟨rfl, ?_⟩
      simp only [resultBlocks, HeldHeartbeat.blocks, messageBlocks, add_zero]
    | some packet =>
      apply Owns.malloc_bind
      intro packetBlock
      simp only [HeldHeartbeat.plain, if_true]
      by_cases hzero : (recvHeartbeatPacket answer packet data.addr data.addrlen).ret = 0
      · simp only [if_pos hzero]
        apply Owns.free_bind
        refine Owns.pure ⟨(if_pos hzero).symm, ?_⟩
        simp only [resultBlocks, HeldHeartbeat.blocks, messageBlocks, add_zero]
      · simp only [if_neg hzero]
        by_cases hneg : (recvHeartbeatPacket answer packet data.addr data.addrlen).ret < 0
        · simp only [if_pos hneg]
          apply Owns.free_bind
          refine Owns.pure ⟨((if_neg hzero).trans (if_pos hneg)).symm, ?_⟩
          simp only [resultBlocks, HeldHeartbeat.blocks, messageBlocks, add_zero]
        · have hterm := hreads.mem hcreate hneg
          simp only [if_neg hneg, dif_pos hterm]
          refine Owns.pure ⟨((if_neg hzero).trans ((if_neg hneg).trans (if_pos hterm))).symm, ?_⟩
          simp only [resultBlocks, HeldHeartbeat.blocks, messageBlocks]
          abel

/-- The write handler gives back the packet it answers, and the answer. -/
theorem owns_handleClientHeartbeatWrite (env : HeartbeatEnv) (sendto : Bool)
    (data : HeldHeartbeat) :
    Owns data.blocks (handleClientHeartbeatWriteOn env sendto data) fun r O =>
      HeartbeatWrite.mk (plainResult HeldHeartbeat.plain r.1) r.2 =
          handleClientHeartbeatWrite env sendto (some data.plain) ∧
        O = resultBlocks HeldHeartbeat.blocks data r.1 := by
  unfold handleClientHeartbeatWriteOn handleClientHeartbeatWrite
  cases env.threadResult with
  | false => exact Owns.pure ⟨rfl, rfl⟩
  | true =>
    apply Owns.malloc_bind
    intro block
    obtain ⟨dataBlock, addrBlock, sockfd, addr, addrlen, packet⟩ := data
    cases packet with
    | none => exact Owns.pure ⟨rfl, rfl⟩
    | some held =>
      simp only [if_true, HeldHeartbeat.plain, Option.map_some,
        if_neg (not_not_intro held.terminated)]
      by_cases hsees : containsHeartbeat (cstr held.bytes) = true
      · simp only [if_pos hsees]
        have hblocks : {block} + HeldHeartbeat.blocks ⟨dataBlock, addrBlock, sockfd, addr,
            addrlen, some held⟩ = {held.block} + ({block} + ({dataBlock} + {addrBlock} + 0)) := by
          simp only [HeldHeartbeat.blocks, messageBlocks]
          abel
        rw [hblocks]
        apply Owns.free_bind
        cases createHeartbeatPacket env.packet env.now (bytes "ACK") with
        | none => exact Owns.pure ⟨rfl, rfl⟩
        | some ack =>
          apply Owns.malloc_bind
          intro ackBlock
          exact Owns.free_bind (Owns.pure ⟨rfl, rfl⟩)
      · simp only [if_neg hsees]
        exact Owns.pure ⟨rfl, rfl⟩

/-- What the loop makes of the result of a handler. -/
def HeldHeartbeat.finishOn (data : HeldHeartbeat) :
    Option (HeldResult HeldHeartbeat) → HeapM HeldHeartbeat
  | none => pure data
  | some r => do
    free r.block
    pure r.data

/-- What the loop does at the UDP socket. -/
def heartbeatStepOn (data : HeldHeartbeat) : HeartbeatPass → HeapM HeldHeartbeat
  | .read env answer => do
    let result ← handleClientHeartbeatReadOn env answer data
    data.finishOn result
  | .write env sendto => do
    let r ← handleClientHeartbeatWriteOn env sendto data
    data.finishOn r.1

theorem owns_heartbeat_finishOn (data : HeldHeartbeat)
    (result : Option (HeldResult HeldHeartbeat)) :
    Owns (resultBlocks HeldHeartbeat.blocks data result) (data.finishOn result) fun data' O =>
      ∃ L, O = data'.blocks + L ∧ L.card = 0 := by
  cases result with
  | none => exact Owns.pure ⟨0, (add_zero _).symm, rfl⟩
  | some r => exact Owns.free_bind (Owns.pure ⟨0, (add_zero _).symm, rfl⟩)

/-- A pass over the UDP socket reads a string, if it reads a datagram. -/
def PassReadsString : HeartbeatPass → Prop
  | .read env answer => ReadsString env answer
  | .write _ _ => True

/-- The heartbeat record loses nothing. -/
theorem keepsLedger_heartbeat :
    KeepsLedger PassReadsString HeldHeartbeat.blocks (fun _ _ => 0) heartbeatStepOn := by
  intro data pass hreads
  cases pass with
  | read env answer =>
    apply (owns_handleClientHeartbeatRead hreads data).bind
    rintro result O ⟨-, rfl⟩
    exact owns_heartbeat_finishOn data result
  | write env sendto =>
    apply (owns_handleClientHeartbeatWrite env sendto data).bind
    rintro ⟨result, ack⟩ O ⟨-, rfl⟩
    exact owns_heartbeat_finishOn data result

/-! ## The server -/

/-- What the loop refers to: the elements of `clients` and the heartbeat record. -/
abbrev HeldServer := (Fin maxClients → Option HeldConnection) × HeldHeartbeat

/-- A step of the loop, at a client or at the UDP socket. -/
abbrev HeapEvent := (Fin maxClients × EntryEvent) ⊕ HeartbeatPass

/-- The blocks that the loop refers to. -/
def serverBlocks (s : HeldServer) : Multiset Nat := ∑ i, entryBlocks (s.1 i) + s.2.blocks

/-- A step of the loop on the heap. -/
def serverStepOn : HeldServer → HeapEvent → HeapM HeldServer :=
  stepEither (stepAt entryStepOn) heartbeatStepOn

/-- What a step of the loop loses. The heartbeat loses nothing. -/
def serverLost (s : HeldServer) : HeapEvent → Nat
  | .inl (i, event) => entryLost (s.1 i) event
  | .inr _ => 0

theorem keepsLedger_server : KeepsLedger (Sum.elim (fun _ => True) PassReadsString) serverBlocks
    serverLost serverStepOn := by
  intro s event hevent
  apply (keepsLedger_entry.family.either keepsLedger_heartbeat s event hevent).mono
  rintro s' O ⟨L, hO, hcard⟩
  refine ⟨L, hO, ?_⟩
  cases event with
  | inl l => exact hcard
  | inr l => exact hcard

/-- `free_clients_tcp_data`. -/
def freeClientsTcpData : List (Option HeldConnection) → HeapM Unit
  | [] => pure ()
  | entry :: entries => do
    freeClientTcpData (entry.map HeldConnection.data)
    freeClientsTcpData entries

/-- The answers of `malloc` to `create_heartbeat_data`, which calls it twice, and to the two
functions that allocate the arrays. -/
structure SetUpEnv where
  heartbeat : Bool
  heartbeatAddr : Bool
  clients : Bool
  httpClients : Bool
  deriving DecidableEq

/-- `handle_connections` on the heap, less the records of the HTTP clients. The result is what
the steps of its loop have lost, if it gets there. -/
def handleConnectionsOn (env : SetUpEnv) (sockfdUdp : Int) (events : List HeapEvent) :
    HeapM (Option Nat) := do
  match ← createHeartbeatDataOn env.heartbeat env.heartbeatAddr sockfdUdp with
  | none => pure none
  | some heartbeat =>
    if env.clients then do
      let _clients ← malloc
      if env.httpClients then do
        let _httpClients ← malloc
        let (s, lost) ← runSteps serverLost serverStepOn (fun _ => none, heartbeat) 0 events
        freeHeartbeatData s.2
        freeClientsTcpData (List.ofFn s.1)
        pure (some lost)
      else do
        freeHeartbeatData heartbeat
        freeClientsTcpData (List.replicate maxClients none)
        pure none
    else do
      freeHeartbeatData heartbeat
      pure none

/-! ## Clean-up -/

theorem owns_freeHeartbeatData {α : Type} {P : Multiset Nat} {m : HeapM α}
    {R : α → Multiset Nat → Prop} (hm : Owns P m R) (d : HeldHeartbeat) :
    Owns (d.blocks + P) (freeHeartbeatData d >>= fun _ => m) R := by
  have hblocks : d.blocks + P = {d.addrBlock} + (messageBlocks d.packet + ({d.block} + P)) := by
    rw [HeldHeartbeat.blocks]
    abel
  rw [hblocks, freeHeartbeatData]
  simp only [bind_assoc]
  exact Owns.free_bind (owns_freeHeartbeatPacket (Owns.free_bind hm) d.packet)

theorem owns_freeClientsTcpData {α : Type} {P : Multiset Nat} {m : HeapM α}
    {R : α → Multiset Nat → Prop} (hm : Owns P m R) (entries : List (Option HeldConnection)) :
    Owns ((entries.map entryBlocks).sum + P) (freeClientsTcpData entries >>= fun _ => m) R := by
  induction entries with
  | nil =>
    rw [List.map_nil, List.sum_nil, zero_add]
    exact hm
  | cons entry entries ih =>
    have hentry : entryBlocks entry = (entry.map HeldConnection.data).elim 0
        HeldClient.blocks := by
      cases entry <;> rfl
    rw [List.map_cons, List.sum_cons, add_assoc, hentry, freeClientsTcpData, bind_assoc]
    exact owns_freeClientTcpData ih _

theorem owns_createHeartbeatData {memory addrMemory : Bool}
    (haddr : memory = true → addrMemory = true) (sockfd : Int) :
    Owns 0 (createHeartbeatDataOn memory addrMemory sockfd) fun d O =>
      O = d.elim 0 HeldHeartbeat.blocks := by
  unfold createHeartbeatDataOn
  split
  · exact Owns.pure rfl
  · cases memory with
    | false => exact Owns.pure rfl
    | true =>
      rw [haddr rfl]
      apply Owns.malloc_bind
      intro block
      apply Owns.malloc_bind
      intro addrBlock
      refine Owns.pure ?_
      simp only [Option.elim_some, HeldHeartbeat.blocks, messageBlocks]
      abel

/-- Whatever clients connect, send and take, whichever calls fail, but for the `malloc` that is
not checked, and whatever else is on the heap: as long as the datagrams that it reads leave a
string in the packet, the server frees no block twice and none that is not its own, and what it
leaves behind its clean-up is exactly what the steps of its loop have lost, and the two arrays. A
server that does not get to its loop leaves at most one array. -/
theorem handleConnections_loses {env : SetUpEnv}
    (haddr : env.heartbeat = true → env.heartbeatAddr = true) (sockfdUdp : Int)
    {events : List HeapEvent}
    (hreads : ∀ recvEnv answer, .inr (.read recvEnv answer) ∈ events →
      ReadsString recvEnv answer) :
    Owns 0 (handleConnectionsOn env sockfdUdp events) fun r O =>
      match r with
      | none => O.card ≤ 1
      | some lost => O.card = lost + 2 := by
  -- what is asked of the reads, as a condition on all events
  have hevents : ∀ event ∈ events, Sum.elim (fun _ => True) PassReadsString event := by
    intro event hmem
    cases event with
    | inl l => trivial
    | inr pass =>
      cases pass with
      | read recvEnv answer => exact hreads recvEnv answer hmem
      | write sendEnv sendto => trivial
  apply (owns_createHeartbeatData haddr sockfdUdp).bind
  rintro heartbeat O rfl
  cases heartbeat with
  | none => exact Owns.pure (Nat.zero_le _)
  | some heartbeat =>
    simp only [Option.elim_some]
    cases env.clients with
    | false =>
      rw [← add_zero heartbeat.blocks]
      exact owns_freeHeartbeatData (Owns.pure (Nat.zero_le 1)) heartbeat
    | true =>
      apply Owns.malloc_bind
      intro clients
      cases env.httpClients with
      | false =>
        -- the array stays, and what it refers to is nothing
        have hblocks : {clients} + heartbeat.blocks =
            heartbeat.blocks + (((List.replicate maxClients none).map entryBlocks).sum +
              {clients}) := by
          rw [List.map_replicate, entryBlocks, List.sum_replicate, nsmul_zero, zero_add, add_comm]
        rw [hblocks]
        exact owns_freeHeartbeatData (owns_freeClientsTcpData
          (Owns.pure (Multiset.card_singleton clients).le) _) heartbeat
      | true =>
        apply Owns.malloc_bind
        intro httpClients
        -- at the beginning of the loop it refers to the heartbeat record alone
        have hblocks : {httpClients} + ({clients} + heartbeat.blocks) =
            serverBlocks (fun _ => none, heartbeat) + ({httpClients} + {clients}) := by
          simp only [serverBlocks, entryBlocks, Finset.sum_const_zero]
          abel
        rw [hblocks]
        have hrun := (Owns.runSteps keepsLedger_server (fun _ => none, heartbeat) hevents).frame
          ({httpClients} + {clients})
        apply hrun.bind
        rintro ⟨s, lost⟩ O ⟨O', hO, L, hO', hcard⟩
        -- behind the loop the clean-up frees what it refers to
        have hentries : serverBlocks s + L + ({httpClients} + {clients}) =
            s.2.blocks + (((List.ofFn s.1).map entryBlocks).sum +
              (L + ({httpClients} + {clients}))) := by
          rw [serverBlocks, List.map_ofFn, List.sum_ofFn]
          simp only [Function.comp_apply]
          abel
        rw [hO, hO', hentries]
        apply owns_freeHeartbeatData
        apply owns_freeClientsTcpData
        apply Owns.pure
        simp only [Multiset.card_add, Multiset.card_singleton, hcard]

/-- A client that is greeted twice, and a heartbeat that is acknowledged. -/
def greetedTwice : List HeapEvent :=
  let client : Fin maxClients := ⟨7, by decide⟩
  [.inl (client, .accepted true 7 4000 ⟨[], .closed⟩), .inl (client, .pass (.write .ideal)),
    .inr (.read (.ideal 0) (.datagram (bytes "HEARTBEAT") (Vector.replicate 8 0))),
    .inr (.write (.ideal 0) true), .inl (client, .pass (.write .ideal))]

/-- The first greeting is lost, with the two arrays, where the heap was empty before. -/
theorem handleConnections_loses_greetedTwice :
    ∃ h, handleConnectionsOn ⟨true, true, true, true⟩ 5 greetedTwice .empty = some (some 2, h) ∧
      h.live.card = 2 + 2 := by
  have hreads : ∀ env answer, .inr (.read env answer) ∈ greetedTwice →
      ReadsString env answer := by
    intro env answer hmem
    simp only [greetedTwice, List.mem_cons, reduceCtorEq, Sum.inr.injEq, HeartbeatPass.read.injEq,
      List.not_mem_nil, or_false, false_or] at hmem
    obtain ⟨rfl, rfl⟩ := hmem
    intro r hr
    obtain rfl := Option.some.inj hr
    decide +kernel
  obtain ⟨r, h, O, hrun, hlive, hcard⟩ := @handleConnections_loses
    ⟨true, true, true, true⟩ (fun _ => rfl) 5 greetedTwice hreads .empty 0 rfl
  have hlost : (handleConnectionsOn ⟨true, true, true, true⟩ 5 greetedTwice .empty).map
      Prod.fst = some (some 2) := by
    decide +kernel
  rw [hrun] at hlost
  obtain rfl := Option.some.inj hlost
  refine ⟨h, hrun, ?_⟩
  rw [hlive, add_zero]
  exact hcard

end SelectServer
