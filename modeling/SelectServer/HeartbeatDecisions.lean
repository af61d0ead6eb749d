import SelectServer.CLib.Reach
import SelectServer.Client.HeartbeatRetries

/-!
# What the heartbeat decisions depend on

A datagram overwrites the beginning of the memory it is received into, and the decisions are
taken by string functions over the whole field. The server clears the memory first
(`create_heartbeat_packet`), the client takes it as `malloc` hands it out.

So the client may see an `ACK` that nobody has sent: a datagram that is one of `A`, `AC` and
`ACK` is completed by what the memory contains. The server never does, but it prints the message
before it searches it, and one that fills the field without a NUL is read on behind it. For every
other datagram both decisions are determined by its bytes (`decided_by_datagram_iff`).
-/

namespace SelectServer

open CLib

/-! ## The memory of a packet -/

/-- What a block of memory contains. -/
def contents (memory : Vector UInt8 heartbeatPacketSize) (i : Nat) : UInt8 :=
  memory.toList.getD i 0

/-- `create_heartbeat_packet` in a block of memory: `memset`, `strcpy` and the time stamp. -/
def createHeartbeatPacketInto (memory : Vector UInt8 heartbeatPacketSize) (now : Nat)
    (message : List UInt8) : Block :=
  (((Block.malloc heartbeatPacketSize (contents memory)).store 0
    (List.replicate heartbeatPacketSize 0)).store 0 (message ++ [0])).store heartbeatBufSize
      (timestampBytes now)

/-- A packet as a receive leaves it in a block. -/
def receivedOver (block datagram : List UInt8) : List UInt8 :=
  datagram.take heartbeatPacketSize ++ block.drop (datagram.take heartbeatPacketSize).length

/-- The packet that the client has received. -/
def clientPacket (memory : Vector UInt8 heartbeatPacketSize) (datagram : List UInt8) :
    List UInt8 :=
  receivedOver memory.toList datagram

/-- The packet that the server has received. -/
def serverPacket (memory : Vector UInt8 heartbeatPacketSize) (now : Nat)
    (datagram : List UInt8) : List UInt8 :=
  receivedOver ((createHeartbeatPacketInto memory now []).read heartbeatPacketSize) datagram

/-- The client takes the datagram for an `ACK`. -/
def ackDecision (memory : Vector UInt8 heartbeatPacketSize) (datagram : List UInt8) : Bool :=
  decide (0 < datagram.length) && isAck (clientPacket memory datagram)

/-- The server takes the datagram for a `HEARTBEAT`. -/
def heartbeatDecision (memory : Vector UInt8 heartbeatPacketSize) (now : Nat)
    (datagram : List UInt8) : Bool :=
  decide (0 < datagram.length) && containsHeartbeat (cstr (serverPacket memory now datagram))

/-- Both decisions are the same over every memory and at every time, and neither they nor the
server's output of the message in front of its decision read behind the message. -/
structure DecidedByDatagram (datagram : List UInt8) : Prop where
  client : ∀ m m', ackDecision m datagram = ackDecision m' datagram
  clientReads : ∀ m, strcmpReach (clientPacket m datagram) (bytes "ACK" ++ [0]) ≤ heartbeatBufSize
  server : ∀ m m' now now', heartbeatDecision m now datagram = heartbeatDecision m' now' datagram
  serverReads : ∀ m now,
    strstrReach (bytes "HEARTBEAT") (serverPacket m now datagram) ≤ heartbeatBufSize
  serverPrints : ∀ m now, strlenReach (serverPacket m now datagram) ≤ heartbeatBufSize

theorem length_timestampBytes (now : Nat) : (timestampBytes now).length = 8 := by
  rw [timestampBytes, List.length_reverse, length_bigEndian]

/-- What `memset` and `strcpy` leave: the message, and zeros behind it. -/
theorem cleared_holds (b : Block) {n : Nat} {message : List UInt8} (h : message.length < n) :
    ((b.store 0 (List.replicate n 0)).store 0 (message ++ [0])).Holds 0
      (message ++ List.replicate (n - message.length) 0) := by
  have hzeros := (Block.holds_store_self b 0 (List.replicate n 0)).drop (message ++ [0]).length
  have hbehind := hzeros.store 0 (message ++ [0]) (Or.inr (Nat.le_of_eq rfl))
  have hall := (Block.holds_store_self (b.store 0 (List.replicate n 0)) 0
    (message ++ [0])).append hbehind
  have hrest : message ++ [0] ++ (List.replicate n 0).drop (message ++ [0]).length =
      message ++ List.replicate (n - message.length) 0 := by
    rw [List.append_assoc, List.drop_replicate, List.length_append, List.length_singleton,
      List.singleton_append, ← List.replicate_succ]
    congr 2
    omega
  rwa [hrest] at hall

/-- A packet that is created does not depend on the memory it is created in. -/
theorem createHeartbeatPacketInto_read (memory : Vector UInt8 heartbeatPacketSize) (now : Nat)
    {message : List UInt8} (h : message.length < heartbeatBufSize) :
    createHeartbeatPacket true now message =
      some ((createHeartbeatPacketInto memory now message).read heartbeatPacketSize) := by
  have hbuf : heartbeatBufSize = 1024 := rfl
  have hsize : heartbeatPacketSize = 1032 := rfl
  have hcleared := (cleared_holds (Block.malloc heartbeatPacketSize (contents memory))
    (by omega : message.length < heartbeatPacketSize)).take heartbeatBufSize
  have hfield : (message ++ List.replicate (heartbeatPacketSize - message.length) (0 : UInt8)).take
      heartbeatBufSize = message ++ List.replicate (heartbeatBufSize - message.length) 0 := by
    rw [List.take_append, List.take_of_length_le h.le, List.take_replicate]
    congr 2
    omega
  rw [hfield] at hcleared
  have hlength : (message ++ List.replicate (heartbeatBufSize - message.length)
      (0 : UInt8)).length = heartbeatBufSize := by
    rw [List.length_append, List.length_replicate]
    omega
  -- the time stamp stands behind the message
  have hheld := (hcleared.concat (timestampBytes now) (by rw [hlength, Nat.zero_add])).read
  rw [List.length_append, hlength, length_timestampBytes] at hheld
  rw [createHeartbeatPacket, if_pos rfl, ← hheld]
  rfl

/-! ## Packets that are received -/

variable {datagram : List UInt8} {memory : Vector UInt8 heartbeatPacketSize}

/-- A datagram that fits stands in front of what it does not cover. -/
theorem receivedOver_eq (h : datagram.length ≤ heartbeatPacketSize) (block : List UInt8) :
    receivedOver block datagram = datagram ++ block.drop datagram.length := by
  rw [receivedOver, List.take_of_length_le h]

theorem serverPacket_eq (h : datagram.length ≤ heartbeatPacketSize)
    (memory : Vector UInt8 heartbeatPacketSize) (now : Nat) :
    serverPacket memory now datagram = datagram ++
      (List.replicate heartbeatBufSize 0 ++ timestampBytes now).drop datagram.length := by
  have hempty : ([] : List UInt8).length < heartbeatBufSize := by decide
  have hcreated := createHeartbeatPacketInto_read memory now hempty
  rw [createHeartbeatPacket_empty] at hcreated
  rw [serverPacket, receivedOver_eq h, ← Option.some.inj hcreated]

/-- The message of the server's packet: the datagram, and zeros behind a short one. -/
theorem serverPacket_take (h : datagram.length ≤ heartbeatPacketSize)
    (memory : Vector UInt8 heartbeatPacketSize) (now : Nat) :
    (serverPacket memory now datagram).take heartbeatBufSize =
      datagram.take heartbeatBufSize ++
        List.replicate (heartbeatBufSize - datagram.length) 0 := by
  rw [serverPacket_eq h, List.take_append, List.drop_append, List.drop_replicate,
    List.length_replicate]
  congr 1
  rw [List.take_append_of_le_length (by rw [List.length_replicate]), List.take_of_length_le
    (by rw [List.length_replicate])]

theorem heartbeatBufSize_le_length_serverPacket (h : datagram.length ≤ heartbeatPacketSize)
    (memory : Vector UInt8 heartbeatPacketSize) (now : Nat) :
    heartbeatBufSize ≤ (serverPacket memory now datagram).length := by
  have hbuf : heartbeatBufSize = 1024 := rfl
  rw [serverPacket_eq h, List.length_append, List.length_drop, List.length_append,
    List.length_replicate, length_timestampBytes]
  omega

/-! ## The server's decision -/

/-- The message of the server's packet ends exactly if the datagram leaves room for a zero, or
brings one along. -/
theorem serverReach_le_iff (h : datagram.length ≤ heartbeatPacketSize)
    (memory : Vector UInt8 heartbeatPacketSize) (now : Nat) :
    strlenReach (serverPacket memory now datagram) ≤ heartbeatBufSize ↔
      datagram.length < heartbeatBufSize ∨ 0 ∈ datagram.take heartbeatBufSize := by
  rw [strlenReach_le_iff (heartbeatBufSize_le_length_serverPacket h memory now),
    serverPacket_take h]
  rcases Nat.lt_or_ge datagram.length heartbeatBufSize with hlt | hge
  · -- `memset` has left a zero behind the datagram
    refine iff_of_true (List.mem_append_right _ ?_) (Or.inl hlt)
    exact List.mem_replicate.mpr ⟨by omega, rfl⟩
  · rw [Nat.sub_eq_zero_of_le hge, List.replicate_zero, List.append_nil]
    exact (or_iff_right hge.not_gt).symm

/-- Where the search stays inside the message, the decision is one about the datagram. -/
theorem heartbeatDecision_eq (h : datagram.length ≤ heartbeatPacketSize) (now : Nat)
    (hreach : strstrReach (bytes "HEARTBEAT") (serverPacket memory now datagram) ≤
      heartbeatBufSize) :
    heartbeatDecision memory now datagram = (decide (0 < datagram.length) &&
      containsHeartbeat (cstr (datagram.take heartbeatBufSize ++
        List.replicate (heartbeatBufSize - datagram.length) 0))) := by
  rw [heartbeatDecision, containsHeartbeat, containsHeartbeat, ← serverPacket_take h memory now,
    strstr_of_reach_le (by decide) hreach]

/-! ## The client's decision -/

theorem isAck_iff {packet : List UInt8} : isAck packet = true ↔ bytes "ACK" ++ [0] <+: packet :=
  List.isPrefixOf_iff_prefix

/-- A datagram that is not itself cut off within `ACK` and its terminator decides. -/
theorem ackDecision_eq (h : datagram.length ≤ heartbeatPacketSize)
    (hack : datagram ∉ [bytes "A", bytes "AC", bytes "ACK"])
    (memory : Vector UInt8 heartbeatPacketSize) :
    ackDecision memory datagram = isAck datagram := by
  rw [ackDecision, clientPacket, receivedOver_eq h]
  rcases Nat.lt_or_ge datagram.length 4 with hlt | hge
  · -- a shorter datagram is none, whatever follows it
    have hshort : isAck datagram = false := by
      rw [Bool.eq_false_iff, ne_eq, isAck_iff]
      exact fun hpre => hlt.not_ge hpre.length_le
    rw [hshort]
    by_contra htrue
    rw [Bool.not_eq_false, Bool.and_eq_true, isAck_iff, decide_eq_true_eq] at htrue
    obtain ⟨hpos, hpre⟩ := htrue
    have hcut := List.prefix_of_prefix_length_le (List.prefix_append datagram _) hpre hlt.le
    -- so it is one of the three beginnings
    rw [List.prefix_iff_eq_take] at hcut
    generalize hn : datagram.length = n at hcut hlt hpos
    rw [hcut] at hack
    interval_cases n <;> exact hack (by decide)
  · have hpos : 0 < datagram.length := by omega
    rw [decide_eq_true hpos, Bool.true_and, Bool.eq_iff_iff, isAck_iff, isAck_iff]
    exact List.isPrefix_append_of_length hge

/-- Memory that the string `ACK` has been in. -/
def ackMemory : Vector UInt8 heartbeatPacketSize :=
  ⟨#[65, 67, 75] ++ Array.replicate 1029 0, by rw [Array.size_append, Array.size_replicate]; rfl⟩

/-- Memory without a terminator. -/
def noiseMemory : Vector UInt8 heartbeatPacketSize := Vector.replicate heartbeatPacketSize 65

theorem ackMemory_toList : ackMemory.toList = bytes "ACK" ++ List.replicate 1029 0 := by
  have hack : (#[65, 67, 75] : Array UInt8).toList = bytes "ACK" := by decide
  rw [ackMemory, Vector.toList_mk, Array.toList_append, Array.toList_replicate, hack]

/-- Over memory that `ACK` has been in, a datagram that begins like it counts as one; over other
memory it does not. -/
theorem ackDecision_differs (hack : datagram ∈ [bytes "A", bytes "AC", bytes "ACK"]) :
    ackDecision ackMemory datagram = true ∧ ackDecision noiseMemory datagram = false := by
  have hsize : datagram.length ≤ heartbeatPacketSize := by
    simp only [List.mem_cons, List.not_mem_nil, or_false] at hack
    obtain rfl | rfl | rfl := hack <;> decide
  rw [ackDecision, ackDecision, clientPacket, clientPacket, receivedOver_eq hsize,
    receivedOver_eq hsize, ackMemory_toList, noiseMemory, Vector.toList_replicate,
    List.drop_replicate]
  simp only [List.mem_cons, List.not_mem_nil, or_false] at hack
  obtain rfl | rfl | rfl := hack
  · exact ⟨rfl, rfl⟩
  · exact ⟨rfl, rfl⟩
  · exact ⟨rfl, rfl⟩

/-! ## Both decisions -/

/-- Both decisions are determined by the bytes of a datagram, whatever has been in the memory
before, exactly if it is none of the beginnings of `ACK` without its terminator, and, where it
fills the message, its part of the message has a NUL. -/
theorem decided_by_datagram_iff (h : datagram.length ≤ heartbeatPacketSize) :
    DecidedByDatagram datagram ↔
      datagram ∉ [bytes "A", bytes "AC", bytes "ACK"] ∧
        (datagram.length < heartbeatBufSize ∨ 0 ∈ datagram.take heartbeatBufSize) := by
  constructor
  · intro hdecided
    constructor
    · intro hack
      obtain ⟨htrue, hfalse⟩ := ackDecision_differs hack
      rw [hdecided.client ackMemory noiseMemory, hfalse] at htrue
      exact Bool.false_ne_true htrue
    · exact (serverReach_le_iff h noiseMemory 0).mp (hdecided.serverPrints noiseMemory 0)
  · rintro ⟨hack, hfield⟩
    have hprints := fun m now => (serverReach_le_iff h m now).mpr hfield
    -- the search ends where the output has ended, if not before
    have hreach := fun m now => (strstrReach_le (by decide : bytes "HEARTBEAT" ≠ [])
      (serverPacket m now datagram)).trans (hprints m now)
    refine ⟨fun m m' => ?_, fun m => ?_, fun m m' now now' => ?_, hreach, hprints⟩
    · rw [ackDecision_eq h hack, ackDecision_eq h hack]
    · exact (strcmpReach_le _ _).trans (by decide)
    · rw [heartbeatDecision_eq h now (hreach m now), heartbeatDecision_eq h now' (hreach m' now')]

/-- A `HEARTBEAT` as a client may send it, without a terminator. -/
theorem decided_by_datagram_heartbeat : DecidedByDatagram (bytes "HEARTBEAT") :=
  (decided_by_datagram_iff (by decide)).mpr ⟨by decide, Or.inl (by decide)⟩

/-- The three bytes of `ACK` are acknowledged or not, by what the memory contains; and a packet
without a NUL is read on behind the message, also where it begins with `HEARTBEAT`. -/
theorem decided_by_memory :
    ¬ DecidedByDatagram (bytes "ACK") ∧
      ¬ DecidedByDatagram (bytes "HEARTBEAT" ++ List.replicate 1023 65) := by
  constructor
  · intro hdecided
    obtain ⟨htrue, hfalse⟩ := ackDecision_differs
      (by decide : bytes "ACK" ∈ [bytes "A", bytes "AC", bytes "ACK"])
    rw [hdecided.client ackMemory noiseMemory, hfalse] at htrue
    exact Bool.false_ne_true htrue
  · intro hdecided
    have hlength : (bytes "HEARTBEAT" ++ List.replicate 1023 65).length = heartbeatPacketSize := by
      rw [List.length_append, List.length_replicate]
      decide
    rcases (serverReach_le_iff hlength.le noiseMemory 0).mp (hdecided.serverPrints noiseMemory 0)
      with hlt | hnul
    · rw [hlength] at hlt
      exact absurd hlt (by decide)
    · rcases List.mem_append.mp (List.mem_of_mem_take hnul) with hword | hfill
      · exact absurd hword (by decide)
      · exact absurd (List.eq_of_mem_replicate hfill) (by decide)

/-! ## The decisions in the handlers -/

/-- What the client makes of a datagram. -/
theorem receive_ackDecision {c : HeartbeatClient} {r : HeartbeatRound} {source : Vector UInt8 8}
    (hmemory : r.recvPacket = some memory) (hanswer : r.answer = .datagram datagram source)
    (hresult : c.result = none) :
    (c.receive r).retries = if ackDecision memory datagram then 0 else c.retries + 1 := by
  have hacked : r.acked = ackDecision memory datagram := by
    have hlength : 0 < (datagram.take heartbeatPacketSize).length ↔ 0 < datagram.length := by
      rw [List.length_take, lt_min_iff]
      exact and_iff_right (by decide)
    simp only [HeartbeatRound.acked, hmemory, hanswer, ackDecision, clientPacket, receivedOver,
      hlength]
  rw [(HeartbeatClient.receive_counts (by rw [hmemory]; rfl) hresult).2.1, hacked]

/-- The packet of the read handler is the one whose memory has been cleared. -/
theorem packet_eq_serverPacket (h : datagram.length ≤ heartbeatPacketSize)
    (memory : Vector UInt8 heartbeatPacketSize) (source : Vector UInt8 8) (now : Nat) :
    (Received.mk datagram source now).packet = serverPacket memory now datagram := by
  rw [serverPacket_eq h, Received.packet, List.take_of_length_le h]

/-- What the server makes of a datagram that it has read: its next write acknowledges it, if there
is memory for that. -/
theorem write_heartbeatDecision {data data' : HeartbeatData} (haddr : AddrReady data)
    {env env' : HeartbeatEnv} {source : Vector UInt8 8} {value : Int}
    (h : datagram.length ≤ heartbeatPacketSize) (hthread : env.threadResult = true)
    (hpacket : env.packet = true) (hthread' : env'.threadResult = true)
    (hpacket' : env'.packet = true)
    (hread : handleClientHeartbeatRead env (.datagram datagram source) (some data) =
      .returned value data') (sendto : Bool) :
    (handleClientHeartbeatWrite env' sendto (some data')).ack.isSome =
      heartbeatDecision memory env.now datagram := by
  rw [handleClientHeartbeatRead_datagram haddr hthread hpacket] at hread
  simp only at hread
  split at hread
  · -- an empty datagram leaves no packet
    rename_i hnil
    obtain ⟨-, rfl⟩ := HandlerResult.returned.inj hread
    simp [handleClientHeartbeatWrite, hthread', heartbeatDecision, hnil]
  · rename_i hnil
    split at hread
    · rename_i hterm
      obtain ⟨-, rfl⟩ := HandlerResult.returned.inj hread
      have hpos := List.length_pos_iff.mpr hnil
      rw [Received.Terminated] at hterm
      rw [heartbeatDecision, decide_eq_true hpos, Bool.true_and,
        ← packet_eq_serverPacket h memory source]
      simp only [handleClientHeartbeatWrite, hthread', if_true, not_not_intro hterm, if_false]
      split
      · rename_i hcontains
        simp [createHeartbeatPacket, hpacket', hcontains]
      · rename_i hcontains
        simpa using hcontains
    · cases hread

end SelectServer
