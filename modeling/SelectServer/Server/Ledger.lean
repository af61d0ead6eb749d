import SelectServer.Server.SimpleHandlers
import SelectServer.Shared.PacketHeap

/-!
# What a TCP client costs the server

The records of the TCP clients are on the heap, with the packets they refer to, the
`Thread_Result` of each handler, which the loop frees, and the frames of `send_simple_packet`.
The simple handlers of `server/server.c` and what the loop does with `clients` stand here with
what they do to the heap.

No step frees a block twice or one that is not its own, and what it loses is known
(`keepsLedger_entry`): a packet that a read or a greeting is stored over, a frame that could not
be sent. So a client that stays connected costs two blocks for each frame that is read from it
and for each greeting (`client_costs`).
-/

namespace SelectServer

open CLib Systems

/-! ## The simple handlers -/

/-- `Client_Tcp_Data` with its block. -/
structure HeldClient where
  block : Nat
  clientSockfd : Int
  packet : Option HeldPacket

/-- The record without its blocks. -/
def HeldClient.plain (c : HeldClient) : ClientTcpData := ⟨c.clientSockfd, heldPacket c.packet⟩

/-- The blocks of a record. -/
def HeldClient.blocks (c : HeldClient) : Multiset Nat := {c.block} + heldBlocks c.packet

/-- A `Thread_Result` with its block, and the record that the handler leaves. -/
structure HeldResult (α : Type) where
  block : Nat
  value : Int
  data : α

/-- The blocks of a result; NULL has none, and then the record is the one from before. -/
def resultBlocks {α : Type} (blocks : α → Multiset Nat) (data : α) :
    Option (HeldResult α) → Multiset Nat
  | none => blocks data
  | some r => {r.block} + blocks r.data

/-- The result without its blocks. -/
def plainResult {α β : Type} (plain : α → β) : Option (HeldResult α) → HandlerResult β
  | none => .null
  | some r => .returned r.value (plain r.data)

/-- `handle_client_simple_read` on the heap. -/
def handleClientSimpleReadOn (threadResult : Bool) (memory : PacketMemory) (data : HeldClient)
    (socket : ByteSource UInt8) : HeapM (Option (HeldResult HeldClient) × ByteSource UInt8) :=
  if threadResult then do
    let block ← malloc
    let r ← recvSimplePacketOn memory data.packet socket
    if r.ret = 0 then do
      freeSimplePacket r.packet
      pure (some ⟨block, threadResultClosed, { data with packet := none }⟩, r.socket)
    else if r.ret < 0 then do
      freeSimplePacket r.packet
      pure (some ⟨block, threadResultError, { data with packet := none }⟩, r.socket)
    else pure (some ⟨block, threadResultSuccess, { data with packet := r.packet }⟩, r.socket)
  else pure (none, socket)

/-- The common part of both branches of the write handler: the packet that is created is stored
over the one in the record. -/
def sendMessageOn (env : SimpleWriteEnv) (block : Nat) (data : HeldClient)
    (message : List UInt8) : HeapM (Option (HeldResult HeldClient) × List UInt8) := do
  match ← createSimplePacketOn env.memory (some message) with
  | none => pure (some ⟨block, threadResultError, { data with packet := none }⟩, [])
  | some p =>
    match ← sendSimplePacketOn env.buffer p.packet env.script with
    | .fault => failure
    | .returned ret wire _ =>
      if ret < 0 then do
        freeSimplePacket (some p)
        pure (some ⟨block, threadResultError, { data with packet := none }⟩, wire)
      else pure (some ⟨block, threadResultSuccess, { data with packet := some p }⟩, wire)

/-- `handle_client_simple_write` on the heap. -/
def handleClientSimpleWriteOn (env : SimpleWriteEnv) (data : HeldClient) :
    HeapM (Option (HeldResult HeldClient) × List UInt8) :=
  if env.threadResult then do
    let block ← malloc
    if pingPending (heldPacket data.packet) then do
      freeSimplePacket data.packet
      sendMessageOn env block { data with packet := none } pong
    else sendMessageOn env block data greeting
  else pure (none, [])

/-! ## What the handlers own -/

theorem owns_handleClientSimpleRead (threadResult : Bool) (memory : PacketMemory)
    (data : HeldClient) (socket : ByteSource UInt8) :
    Owns data.blocks (handleClientSimpleReadOn threadResult memory data socket) fun r O =>
      SimpleRead.mk (plainResult HeldClient.plain r.1) r.2 =
          handleClientSimpleRead threadResult memory (some data.plain) socket ∧
        ∃ L, O = resultBlocks HeldClient.blocks data r.1 + L ∧
          L.card = if threadResult then heldLost data.packet socket else 0 := by
  cases threadResult with
  | false => exact Owns.pure ⟨rfl, 0, (add_zero _).symm, rfl⟩
  | true =>
    apply Owns.malloc_bind
    intro block
    have hrecv := (owns_recvSimplePacket memory data.packet socket).frame ({block} + {data.block})
    apply (hrecv.of_eq (by rw [HeldClient.blocks]; abel)).bind
    rintro r O ⟨O', rfl, hplain, L, rfl, hcard⟩
    rw [handleClientSimpleRead]
    simp only [if_true]
    rw [HeldClient.plain, ← hplain]
    simp only [RecvHeld.plain]
    have hfreed : heldBlocks r.packet + L + ({block} + {data.block}) =
        heldBlocks r.packet + ({block} + ({data.block} + 0) + L) := by
      abel
    by_cases hzero : r.ret = 0
    · simp only [if_pos hzero]
      rw [hfreed]
      exact owns_freeSimplePacket (Owns.pure ⟨(if_pos hzero).symm, L, rfl, hcard⟩) r.packet
    · simp only [if_neg hzero]
      by_cases hneg : r.ret < 0
      · simp only [if_pos hneg]
        rw [hfreed]
        exact owns_freeSimplePacket (Owns.pure
          ⟨((if_neg hzero).trans (if_pos hneg)).symm, L, rfl, hcard⟩) r.packet
      · simp only [if_neg hneg]
        refine Owns.pure ⟨((if_neg hzero).trans (if_neg hneg)).symm, L, ?_, hcard⟩
        simp only [resultBlocks, HeldClient.blocks]
        abel

/-- A message loses its frame if its packet was created and cannot be sent. -/
def messageLost (env : SimpleWriteEnv) (message : List UInt8) : Nat :=
  if env.memory.packet && env.memory.data then frameLost env.buffer message env.script else 0

/-- The message is sent for a record whose packet is in nobody's hands any more. -/
theorem owns_sendMessage {message : List UInt8} (h : FitsFrame message) (env : SimpleWriteEnv)
    (block : Nat) (data : HeldClient) :
    Owns ({block} + {data.block}) (sendMessageOn env block data message) fun r O =>
      SimpleWrite.mk (plainResult HeldClient.plain r.1) r.2 = sendMessage env data.plain message ∧
        ∃ result L, r.1 = some result ∧ O = {result.block} + result.data.blocks + L ∧
          L.card = messageLost env message := by
  apply (owns_createSimplePacket env.memory (some message)).call
  rintro created O ⟨rfl, hcreated⟩
  rw [createSimplePacket_of_fits h] at hcreated
  rw [sendMessage, createSimplePacket_of_fits h, messageLost]
  by_cases hmem : (env.memory.packet && env.memory.data) = true
  · rw [if_pos hmem] at hcreated
    rw [if_pos hmem, if_pos hmem]
    obtain ⟨p, rfl, hp⟩ := Option.map_eq_some_iff.mp hcreated
    have hsend := owns_sendSimplePacket h env.buffer env.script
    obtain ⟨ret, wire, script', hret, -⟩ := sendSimplePacket_string h env.buffer env.script
    simp only [hp, hret] at hsend ⊢
    apply hsend.call
    rintro sent F ⟨rfl, hcard⟩
    simp only
    by_cases hneg : ret < 0
    · simp only [if_pos hneg]
      rw [add_left_comm]
      refine owns_freeSimplePacket (Owns.pure ⟨rfl, _, F, rfl, ?_, hcard⟩) (some p)
      simp only [HeldClient.blocks, heldBlocks]
      abel
    · simp only [if_neg hneg]
      refine Owns.pure ⟨?_, _, F, rfl, ?_, hcard⟩
      · simp only [plainResult, HeldClient.plain, heldPacket, Option.map_some, hp]
      · simp only [HeldClient.blocks, heldBlocks]
        abel
  · rw [if_neg hmem] at hcreated
    rw [if_neg hmem, if_neg hmem]
    rw [Option.map_eq_none_iff.mp hcreated]
    refine Owns.pure ⟨rfl, _, 0, rfl, ?_, rfl⟩
    simp only [heldBlocks, HeldClient.blocks]
    abel

/-- What a write loses: the packet that a greeting is stored over, and the frame. -/
def writeLost (env : SimpleWriteEnv) (data : HeldClient) : Nat :=
  if env.threadResult then
    (if pingPending (heldPacket data.packet) then 0 else (heldBlocks data.packet).card) +
      messageLost env (reply data.plain)
  else 0

theorem owns_handleClientSimpleWrite (env : SimpleWriteEnv) (data : HeldClient) :
    Owns data.blocks (handleClientSimpleWriteOn env data) fun r O =>
      SimpleWrite.mk (plainResult HeldClient.plain r.1) r.2 =
          handleClientSimpleWrite env (some data.plain) ∧
        ∃ L, O = resultBlocks HeldClient.blocks data r.1 + L ∧ L.card = writeLost env data := by
  have hfits := reply_fits data.plain
  unfold handleClientSimpleWriteOn handleClientSimpleWrite writeLost
  cases env.threadResult with
  | false => exact Owns.pure ⟨rfl, 0, (add_zero _).symm, rfl⟩
  | true =>
    apply Owns.malloc_bind
    intro block
    simp only [if_true]
    have hblocks : {block} + (data.blocks + 0) =
        heldBlocks data.packet + ({block} + {data.block}) := by
      rw [HeldClient.blocks]
      abel
    rw [← add_zero data.blocks, hblocks]
    by_cases hping : pingPending (heldPacket data.packet) = true
    · have hreply : reply data.plain = pong := if_pos hping
      rw [hreply] at hfits ⊢
      simp only [HeldClient.plain, if_pos hping]
      apply owns_freeSimplePacket
      apply (owns_sendMessage hfits env block _).mono
      rintro r O ⟨hr, result, L, hresult, rfl, hcard⟩
      refine ⟨hr.trans (if_pos hping).symm, L, ?_, ?_⟩
      · rw [hresult, resultBlocks]
      · rw [hcard, zero_add]
    · have hreply : reply data.plain = greeting := if_neg hping
      rw [hreply] at hfits ⊢
      simp only [HeldClient.plain, if_neg hping]
      have hsend := (owns_sendMessage hfits env block data).frame (heldBlocks data.packet)
      rw [add_comm] at hsend
      apply hsend.mono
      rintro r O ⟨O', rfl, hr, result, L, hresult, rfl, hcard⟩
      refine ⟨hr.trans (if_neg hping).symm, L + heldBlocks data.packet, ?_, ?_⟩
      · rw [hresult, resultBlocks, add_assoc]
      · rw [Multiset.card_add, hcard, add_comm]

/-! ## An entry of the array -/

/-- A TCP client of the server: its record and its stream, whether the loop goes on, and the
frames that were read and sent. -/
structure HeldConnection where
  data : HeldClient
  socket : ByteSource UInt8
  isOpen : Bool
  log : List (Turn (List UInt8) (List UInt8))

/-- The connection without its blocks. -/
def HeldConnection.plain (c : HeldConnection) : SimpleConnection :=
  ⟨c.data.plain, c.socket, c.isOpen, c.log⟩

/-- The blocks of an element of `clients`; NULL has none. -/
def entryBlocks : Option HeldConnection → Multiset Nat
  | none => 0
  | some c => c.data.blocks

/-- What the loop does with an element of `clients`: a new record is stored there, a handler
runs on it, or the client is given up because of an exception or a full queue. -/
inductive EntryEvent
  | accepted (memory : Bool) (sockfd port : Nat) (socket : ByteSource UInt8)
  | pass (pass : SimplePass)
  | dropped
  deriving DecidableEq

/-- `create_client_tcp_data` on the heap. -/
def createClientTcpDataOn (memory : Bool) (sockfd port : Nat) : HeapM (Option HeldClient) :=
  if sockfd ≤ 0 ∨ port ≤ 0 then pure none
  else if memory then do
    let block ← malloc
    pure (some ⟨block, sockfd, none⟩)
  else pure none

/-- `free_client_tcp_data`, less the `close`. -/
def freeClientTcpData : Option HeldClient → HeapM Unit
  | none => pure ()
  | some c => do
    freeSimplePacket c.packet
    free c.block

/-- What `handle_connections` makes of the result of a handler. -/
def HeldConnection.finishOn (c : HeldConnection) (result : Option (HeldResult HeldClient))
    (event : Turn (List UInt8) (List UInt8)) : HeapM (Option HeldConnection) :=
  match result with
  | none => pure (some { c with isOpen := false })
  | some r =>
    if r.value = threadResultError ∨ r.value = threadResultClosed then do
      freeClientTcpData (some r.data)
      free r.block
      pure none
    else do
      free r.block
      pure (some { c with data := r.data, log := c.log ++ [event] })

/-- A handler runs on the client. -/
def HeldConnection.passOn (c : HeldConnection) : SimplePass → HeapM (Option HeldConnection)
  | .read threadResult memory => do
    let r ← handleClientSimpleReadOn threadResult memory c.data c.socket
    { c with socket := r.2 }.finishOn r.1 (.read (payload c.socket.bytes))
  | .write env => do
    let r ← handleClientSimpleWriteOn env c.data
    c.finishOn r.1 (.sent r.2)

/-- A step at an element of `clients`. A handler that is given NULL returns NULL, and behind a
NULL the loop runs no other. -/
def entryStepOn (entry : Option HeldConnection) : EntryEvent → HeapM (Option HeldConnection)
  | .accepted memory sockfd port socket => do
    -- the new record is stored over whatever is there
    let client ← createClientTcpDataOn memory sockfd port
    pure (client.map fun data => ⟨data, socket, true, []⟩)
  | .pass pass =>
    match entry with
    | none => pure none
    | some c => if c.isOpen then c.passOn pass else pure (some c)
  | .dropped => do
    freeClientTcpData (entry.map HeldConnection.data)
    pure none

/-- What a handler loses. -/
def passLost (c : HeldConnection) : SimplePass → Nat
  | .read threadResult _ => if threadResult then heldLost c.data.packet c.socket else 0
  | .write env => writeLost env c.data

/-- What a step loses. -/
def entryLost (entry : Option HeldConnection) : EntryEvent → Nat
  | .accepted _ _ _ _ => (entryBlocks entry).card
  | .pass pass =>
    match entry with
    | none => 0
    | some c => if c.isOpen then passLost c pass else 0
  | .dropped => 0

/-! ## What an entry owns -/

theorem owns_freeClientTcpData {α : Type} {P : Multiset Nat} {m : HeapM α}
    {R : α → Multiset Nat → Prop} (hm : Owns P m R) (client : Option HeldClient) :
    Owns (client.elim 0 HeldClient.blocks + P) (freeClientTcpData client >>= fun _ => m) R := by
  cases client with
  | none =>
    rw [Option.elim_none, zero_add]
    exact hm
  | some c =>
    have hblocks : c.blocks + P = heldBlocks c.packet + ({c.block} + P) := by
      rw [HeldClient.blocks]
      abel
    rw [Option.elim_some, hblocks, freeClientTcpData, bind_assoc]
    exact owns_freeSimplePacket (Owns.free_bind hm) c.packet

/-- What a pass of the connection without blocks leaves in the array: nothing behind an error
or a close. -/
def Leaves (s : SimpleConnection) (entry : Option HeldConnection) : Prop :=
  match entry with
  | none => s.isOpen = false
  | some c => c.plain = s

/-- The blocks of a client and of the result of its handler become those of its entry. -/
theorem owns_finishOn (c : HeldConnection) (result : Option (HeldResult HeldClient))
    (event : Turn (List UInt8) (List UInt8)) :
    Owns (resultBlocks HeldClient.blocks c.data result) (c.finishOn result event) fun entry O =>
      O = entryBlocks entry ∧
        ∃ s, c.plain.finish (plainResult HeldClient.plain result) event = some s ∧
          Leaves s entry := by
  cases result with
  | none => exact Owns.pure ⟨rfl, _, rfl, rfl⟩
  | some r =>
    unfold HeldConnection.finishOn resultBlocks
    simp only [plainResult, SimpleConnection.finish]
    by_cases hend : r.value = threadResultError ∨ r.value = threadResultClosed
    · simp only [if_pos hend]
      have hblocks : {r.block} + r.data.blocks = r.data.blocks + ({r.block} + 0) := by abel
      rw [hblocks]
      exact owns_freeClientTcpData (Owns.free_bind (Owns.pure ⟨rfl, _, rfl, rfl⟩)) (some r.data)
    · simp only [if_neg hend]
      exact Owns.free_bind (Owns.pure ⟨rfl, _, rfl, rfl⟩)

/-- On the heap a handler does what it does without one, and loses what `passLost` says. -/
theorem owns_passOn (c : HeldConnection) (pass : SimplePass) (hopen : c.isOpen = true) :
    Owns c.data.blocks (c.passOn pass) fun entry O =>
      (∃ s, simplePass c.plain pass = some s ∧ Leaves s entry) ∧
        ∃ L, O = entryBlocks entry + L ∧ L.card = passLost c pass := by
  have hplain : c.plain.isOpen = true := hopen
  cases pass with
  | read threadResult memory =>
    apply (owns_handleClientSimpleRead threadResult memory c.data c.socket).bind
    rintro ⟨result, socket⟩ O ⟨hr, L, rfl, hcard⟩
    apply ((owns_finishOn { c with socket := socket } result _).frame L).mono
    rintro entry O ⟨O', rfl, rfl, s, hfinish, hleaves⟩
    refine ⟨⟨s, ?_, hleaves⟩, L, rfl, hcard⟩
    rw [simplePass, if_pos hplain]
    simp only [HeldConnection.plain, ← hr]
    exact hfinish
  | write env =>
    apply (owns_handleClientSimpleWrite env c.data).bind
    rintro ⟨result, wire⟩ O ⟨hr, L, rfl, hcard⟩
    apply ((owns_finishOn c result _).frame L).mono
    rintro entry O ⟨O', rfl, rfl, s, hfinish, hleaves⟩
    refine ⟨⟨s, ?_, hleaves⟩, L, rfl, hcard⟩
    rw [simplePass, if_pos hplain]
    simp only [HeldConnection.plain, ← hr]
    exact hfinish

/-- A record that is created has one block. -/
theorem owns_createClientTcpData (memory : Bool) (sockfd port : Nat) :
    Owns 0 (createClientTcpDataOn memory sockfd port) fun client O =>
      O = client.elim 0 HeldClient.blocks ∧
        ∀ data, client = some data → data.clientSockfd = sockfd ∧ data.packet = none := by
  unfold createClientTcpDataOn
  split
  · exact Owns.pure ⟨rfl, by simp⟩
  · cases memory with
    | false => exact Owns.pure ⟨rfl, by simp⟩
    | true =>
      apply Owns.malloc_bind
      intro block
      refine Owns.pure ⟨rfl, ?_⟩
      rintro data hdata
      obtain rfl := Option.some.inj hdata
      exact ⟨rfl, rfl⟩

/-- The elements of `clients` keep the ledger: no step frees what is not its own. -/
theorem keepsLedger_entry :
    KeepsLedger (fun _ => True) entryBlocks entryLost entryStepOn := by
  intro entry event _
  cases event with
  | accepted memory sockfd port socket =>
    apply (owns_createClientTcpData memory sockfd port).call
    rintro client O ⟨rfl, -⟩
    refine Owns.pure ⟨entryBlocks entry, ?_, rfl⟩
    cases client with
    | none => rfl
    | some data => rfl
  | pass pass =>
    cases entry with
    | none => exact Owns.pure ⟨0, rfl, rfl⟩
    | some c =>
      unfold entryStepOn entryLost
      by_cases hopen : c.isOpen = true
      · simp only [if_pos hopen]
        exact (owns_passOn c pass hopen).mono fun _ _ h => h.2
      · simp only [if_neg hopen]
        exact Owns.pure ⟨0, (add_zero _).symm, rfl⟩
  | dropped =>
    have hblocks : entryBlocks entry = (entry.map HeldConnection.data).elim 0 HeldClient.blocks +
        0 := by
      cases entry with
      | none => rfl
      | some c => exact (add_zero _).symm
    rw [hblocks]
    exact owns_freeClientTcpData (Owns.pure ⟨0, rfl, rfl⟩) _

/-! ## What a client costs -/

/-- A frame that costs a packet: one that was read, or a greeting. An answer is stored in the
place of the `PING` that was freed for it. -/
def costsPacket : Turn (List UInt8) (List UInt8) → Bool
  | .read _ => true
  | .sent wire => !isPong wire

/-- The loop goes on with a client only behind a handler that reports success. -/
theorem SimpleConnection.finish_isOpen {s s' : SimpleConnection}
    {outcome : HandlerResult ClientTcpData} {event : Turn (List UInt8) (List UInt8)}
    (h : s.finish outcome event = some s') (hs : s'.isOpen = true) :
    ∃ value, outcome = .returned value s'.data ∧ value ≠ threadResultError ∧
      value ≠ threadResultClosed ∧ s'.log = s.log ++ [event] := by
  cases outcome with
  | null =>
    obtain rfl := Option.some.inj h
    exact absurd hs Bool.false_ne_true
  | returned value data =>
    rw [SimpleConnection.finish] at h
    split at h
    · obtain rfl := Option.some.inj h
      exact absurd hs Bool.false_ne_true
    · rename_i hvalue
      obtain ⟨herror, hclosed⟩ := not_or.mp hvalue
      obtain rfl := Option.some.inj h
      exact ⟨value, rfl, herror, hclosed, rfl⟩
  | fault => cases h

/-- Four bytes have arrived if a packet was received. -/
theorem length_of_recvSimplePacket_pos {memory : PacketMemory} {packet : Option SimplePacket}
    {socket : ByteSource UInt8} (h : 0 < (recvSimplePacket memory packet socket).ret) :
    4 ≤ socket.bytes.length := by
  by_contra hshort
  have hlt := recvall_short (not_le.mp hshort)
  have hne : (recvall socket 4).ret ≠ 4 := by exact_mod_cast hlt.ne
  rw [recvSimplePacket, if_pos hne] at h
  split at h
  · rename_i hle
    exact h.not_ge hle
  · norm_num at h

/-- A read from which the loop goes on loses what the client held, and has a packet. -/
theorem passLost_read {c : HeldConnection} {s : SimpleConnection} {threadResult : Bool}
    {memory : PacketMemory} (hpass : simplePass c.plain (.read threadResult memory) = some s)
    (hs : s.isOpen = true) :
    passLost c (.read threadResult memory) = (heldBlocks c.data.packet).card ∧
      s.data.packet.isSome = true ∧ s.log.countP costsPacket = c.log.countP costsPacket + 1 := by
  have hopen := isOpen_of_simplePass hpass
  rw [simplePass, if_pos hopen] at hpass
  obtain ⟨value, houtcome, herror, hclosed, hlog⟩ := SimpleConnection.finish_isOpen hpass hs
  have hcases := handleClientSimpleRead_cases threadResult memory c.plain.data c.plain.socket
  simp only [houtcome, HandlerResult.returned.injEq, reduceCtorEq, false_or, herror, hclosed,
    false_and] at hcases
  obtain ⟨n, rfl, hdata⟩ := hcases
  obtain ⟨hret, -, -⟩ := handleClientSimpleRead_success houtcome
  have hlong := length_of_recvSimplePacket_pos hret
  have hthread : threadResult = true := by
    cases threadResult with
    | false => cases houtcome
    | true => rfl
  refine ⟨?_, ?_, ?_⟩
  · rw [passLost, if_pos hthread]
    exact if_pos hlong
  · rw [hdata]
    rfl
  · rw [hlog, List.countP_append]
    rfl

/-- A frame that was sent is not lost. -/
theorem messageLost_of_returned {env : SimpleWriteEnv} {data data' : ClientTcpData}
    {message : List UInt8} {value : Int} (h : FitsFrame message)
    (hsend : (sendMessage env data message).outcome = .returned value data')
    (hvalue : value ≠ threadResultError) : messageLost env message = 0 := by
  rw [sendMessage, createSimplePacket_of_fits h] at hsend
  obtain ⟨ret, wire, script', hret, -⟩ := sendSimplePacket_string h env.buffer env.script
  by_cases hmem : (env.memory.packet && env.memory.data) = true
  · rw [if_pos hmem] at hsend
    simp only [hret] at hsend
    rw [messageLost, if_pos hmem, frameLost, hret]
    by_cases hneg : ret < 0
    · rw [if_pos hneg] at hsend
      injection hsend with herror
      exact absurd herror.symm hvalue
    · exact if_neg fun h => hneg h.2
  · rw [if_neg hmem] at hsend
    injection hsend with herror
    exact absurd herror.symm hvalue

/-- A write from which the loop goes on has a packet, and loses what a greeting is stored
over. -/
theorem passLost_write {c : HeldConnection} {s : SimpleConnection} {env : SimpleWriteEnv}
    (hpass : simplePass c.plain (.write env) = some s) (hs : s.isOpen = true) :
    passLost c (.write env) =
        (if pingPending c.plain.data.packet then 0 else (heldBlocks c.data.packet).card) ∧
      s.data.packet.isSome = true ∧
      s.log.countP costsPacket =
        c.log.countP costsPacket + if pingPending c.plain.data.packet then 0 else 1 := by
  have hopen := isOpen_of_simplePass hpass
  rw [simplePass, if_pos hopen] at hpass
  obtain ⟨value, houtcome, herror, -, hlog⟩ := SimpleConnection.finish_isOpen hpass hs
  have hcases := handleClientSimpleWrite_cases env c.plain.data
  simp only [houtcome, HandlerResult.returned.injEq, reduceCtorEq, false_or, herror,
    false_and] at hcases
  have hthread : env.threadResult = true := by
    by_contra hfalse
    rw [handleClientSimpleWrite_eq, if_neg hfalse] at houtcome
    cases houtcome
  rw [hcases] at hlog houtcome
  injection houtcome with hvalue hdata
  have hsend := hcases
  rw [handleClientSimpleWrite_eq, if_pos hthread] at hsend
  have hframe := messageLost_of_returned (reply_fits c.plain.data)
    (congrArg SimpleWrite.outcome hsend) (by decide)
  refine ⟨?_, ?_, ?_⟩
  · have hlost : passLost c (.write env) = _ + _ := if_pos hthread
    exact hlost.trans (congrArg (_ + ·) hframe)
  · rw [← hdata]
    rfl
  · rw [hlog, List.countP_append, List.countP_singleton, costsPacket, isPong_reply]
    cases pingPending c.plain.data.packet <;> rfl

/-- A packet is two blocks. -/
theorem card_heldBlocks {p : Option HeldPacket} (h : (heldPacket p).isSome = true) :
    (heldBlocks p).card = 2 := by
  cases p with
  | none => cases h
  | some p => rfl

/-- The packets of the frames that cost one are those that were lost and the one that is
held. -/
theorem lost_add_held {c : HeldConnection} {s : SimpleConnection} {pass : SimplePass}
    (hpass : simplePass c.plain pass = some s) (hs : s.isOpen = true) {n : Nat}
    (h : n + (heldBlocks c.data.packet).card = 2 * c.log.countP costsPacket) :
    s.data.packet.isSome = true ∧
      n + passLost c pass + 2 = 2 * s.log.countP costsPacket := by
  cases pass with
  | read threadResult memory =>
    obtain ⟨hlost, hsome, hcount⟩ := passLost_read hpass hs
    refine ⟨hsome, ?_⟩
    rw [hlost, hcount]
    omega
  | write env =>
    obtain ⟨hlost, hsome, hcount⟩ := passLost_write hpass hs
    refine ⟨hsome, ?_⟩
    rw [hlost, hcount]
    by_cases hping : pingPending c.plain.data.packet = true
    · have hheld : (heldBlocks c.data.packet).card = 2 := by
        apply card_heldBlocks
        by_contra hnone
        rw [Option.not_isSome_iff_eq_none] at hnone
        simp only [HeldConnection.plain, HeldClient.plain, hnone] at hping
        cases hping
      simp only [if_pos hping]
      omega
    · simp only [if_neg hping]
      omega

/-- The client that was just accepted, with the block of its record. -/
def HeldConnection.accepted (block : Nat) (sockfd : Int) (socket : ByteSource UInt8) :
    HeldConnection := ⟨⟨block, sockfd, none⟩, socket, true, []⟩

/-- A pass at an element of `clients`. -/
def entryPassOn (entry : Option HeldConnection) (pass : SimplePass) :
    HeapM (Option HeldConnection) := entryStepOn entry (.pass pass)

/-- What a pass loses at an element of `clients`. -/
def entryPassLost (entry : Option HeldConnection) (pass : SimplePass) : Nat :=
  entryLost entry (.pass pass)

/-- The client is there, its connection ends in `s` behind the passes to come, and the packets
it has cost are those that were lost, `n` blocks, and the one that it holds. -/
def TracksCosts (s : SimpleConnection) (passes : List SimplePass) (entry : Option HeldConnection)
    (n : Nat) : Prop :=
  ∃ c, entry = some c ∧ run simplePass c.plain passes = some s ∧
    n + (heldBlocks c.data.packet).card = 2 * c.log.countP costsPacket

theorem owns_entryPass {s : SimpleConnection} (hs : s.isOpen = true) (pass : SimplePass)
    (passes : List SimplePass) (entry : Option HeldConnection) (n : Nat)
    (h : TracksCosts s (pass :: passes) entry n) :
    Owns (entryBlocks entry) (entryPassOn entry pass) fun entry' O =>
      (∃ L, O = entryBlocks entry' + L ∧ L.card = entryPassLost entry pass) ∧
        TracksCosts s passes entry' (n + entryPassLost entry pass) := by
  obtain ⟨c, rfl, hrun, hcount⟩ := h
  obtain ⟨s₁, hpass, hrest⟩ := run_cons_eq_some.mp hrun
  have hopen : c.isOpen = true := isOpen_of_simplePass hpass
  -- the connection is open at the end, so it is open behind this pass
  have hopen₁ : s₁.isOpen = true := by
    cases passes with
    | nil =>
      obtain rfl := Option.some.inj hrest
      exact hs
    | cons pass' passes =>
      obtain ⟨s₂, hpass', -⟩ := run_cons_eq_some.mp hrest
      exact isOpen_of_simplePass hpass'
  unfold entryPassOn entryPassLost entryStepOn entryLost
  simp only [if_pos hopen]
  apply (owns_passOn c pass hopen).mono
  rintro entry' O ⟨⟨s', hpass', hleaves⟩, hledger⟩
  refine ⟨hledger, ?_⟩
  obtain rfl := Option.some.inj (hpass.symm.trans hpass')
  cases entry' with
  | none => exact absurd (hleaves.symm.trans hopen₁) Bool.false_ne_true
  | some c' =>
    obtain rfl : c'.plain = s₁ := hleaves
    obtain ⟨hsome, hcosts⟩ := lost_add_held hpass hopen₁ hcount
    refine ⟨c', rfl, hrest, ?_⟩
    rw [card_heldBlocks hsome]
    exact hcosts

theorem client_costs_of_open {sockfd : Int} {socket : ByteSource UInt8}
    {passes : List SimplePass} {s : SimpleConnection}
    (hrun : run simplePass (.accepted sockfd socket) passes = some s) (hopen : s.isOpen = true)
    (block : Nat) :
    Owns {block} (runSteps entryPassLost entryPassOn (some (.accepted block sockfd socket)) 0
        passes) fun r O =>
      ∃ c, r.1 = some c ∧ c.plain = s ∧ O.card = 1 + 2 * s.log.countP costsPacket := by
  have hsteps := Owns.runSteps_inv (fun pass passes entry n => owns_entryPass hopen pass passes
    entry n) passes _ 0 ⟨.accepted block sockfd socket, rfl, hrun, rfl⟩
  apply hsteps.mono
  rintro ⟨entry, n⟩ O ⟨⟨L, rfl, hcard⟩, c, rfl, hnil, hcount⟩
  obtain rfl := Option.some.inj hnil
  refine ⟨c, rfl, rfl, ?_⟩
  have hlog : c.plain.log = c.log := rfl
  simp only [entryBlocks, HeldClient.blocks, Multiset.card_add, Multiset.card_singleton, hcard,
    hlog]
  omega

/-- In every run of the loop at an element of `clients`, whatever fails, whoever is accepted there
and whatever else is on the heap, no block is freed that is not there, and what is left is what
the element refers to and what the steps have lost. A client that is still connected has cost its
record and a packet for each frame that was read from it and for each greeting: no packet is
given back but that of an answered `PING`. -/
theorem client_costs :
    (∀ (entry : Option HeldConnection) (events : List EntryEvent),
      Owns (entryBlocks entry) (runSteps entryLost entryStepOn entry 0 events) fun r O =>
        ∃ L, O = entryBlocks r.1 + L ∧ L.card = r.2) ∧
      ∀ {sockfd : Int} {socket : ByteSource UInt8} {passes : List SimplePass}
        {s : SimpleConnection}, run simplePass (.accepted sockfd socket) passes = some s →
        s.isOpen = true → ∀ block : Nat,
        Owns {block} (runSteps entryPassLost entryPassOn (some (.accepted block sockfd socket)) 0
            passes) fun r O =>
          ∃ c, r.1 = some c ∧ c.plain = s ∧ O.card = 1 + 2 * s.log.countP costsPacket :=
  ⟨fun entry _ => Owns.runSteps keepsLedger_entry entry fun _ _ => trivial,
    fun hrun hopen block => client_costs_of_open hrun hopen block⟩

/-- A client that says nothing is greeted in each pass. -/
theorem client_costs_greetings :
    ∃ s, run simplePass (.accepted 4 ⟨[], .closed⟩) (List.replicate 3 (.write .ideal)) = some s ∧
      s.log.countP costsPacket = 3 ∧
      ∀ block, Owns {block} (runSteps entryPassLost entryPassOn
          (some (.accepted block 4 ⟨[], .closed⟩)) 0 (List.replicate 3 (.write .ideal)))
        fun r O => ∃ c, r.1 = some c ∧ c.plain = s ∧ O.card = 1 + 2 * s.log.countP costsPacket := by
  have hsome : (run simplePass (.accepted 4 ⟨[], .closed⟩)
      (List.replicate 3 (.write .ideal))).map
        (fun s => (s.isOpen, s.log.countP costsPacket)) = some (true, 3) := by
    decide +kernel
  obtain ⟨s, hs, hstate⟩ := Option.map_eq_some_iff.mp hsome
  obtain ⟨hopen, hcount⟩ := Prod.mk.inj hstate
  exact ⟨s, hs, hcount, client_costs.2 hs hopen⟩

end SelectServer
