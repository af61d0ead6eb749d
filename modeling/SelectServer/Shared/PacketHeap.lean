import SelectServer.Shared.SimplePacket
import SelectServer.Systems.Heap
import Mathlib.Tactic.Abel

/-!
# The blocks of simple packets

A simple packet is two blocks, its struct and its characters. The functions of
`shared/common.c` on them stand here with what they do to the heap; what they compute is what
the functions without a heap compute. `send_simple_packet` keeps the block of its frame behind
it when it fails, and `recv_simple_packet` stores a new packet over the one that its caller
holds.
-/

namespace SelectServer

open CLib Systems

/-! ## Packets -/

/-- A `Simple_Packet` with the block of its struct and that of its characters. -/
structure HeldPacket where
  block : Nat
  dataBlock : Nat
  packet : SimplePacket
  deriving DecidableEq

/-- The blocks of a packet; NULL has none. -/
def heldBlocks : Option HeldPacket → Multiset Nat
  | none => 0
  | some p => {p.block} + {p.dataBlock}

/-- The packet without its blocks. -/
def heldPacket (p : Option HeldPacket) : Option SimplePacket := p.map HeldPacket.packet

/-- The part that the two functions which create packets share: the struct, the characters,
and no struct without them. -/
def allocatePacket (memory : PacketMemory) (packet : SimplePacket) : HeapM (Option HeldPacket) :=
  if memory.packet then do
    let block ← malloc
    if memory.data then do
      let dataBlock ← malloc
      pure (some ⟨block, dataBlock, packet⟩)
    else do
      free block
      pure none
  else pure none

/-- `create_simple_packet` on the heap. -/
def createSimplePacketOn (memory : PacketMemory) :
    Option (List UInt8) → HeapM (Option HeldPacket)
  | none => pure none
  | some s => allocatePacket memory ⟨toInt32 s.length, s ++ [0]⟩

/-- `create_simple_packet_with_length` on the heap. -/
def createSimplePacketWithLengthOn (memory : PacketMemory) (length : Int) :
    HeapM (Option HeldPacket) :=
  if length ≤ 0 then pure none
  else allocatePacket memory ⟨length, List.replicate (length.toNat + 1) 0⟩

/-- `free_simple_packet`. -/
def freeSimplePacket : Option HeldPacket → HeapM Unit
  | none => pure ()
  | some p => do
    free p.dataBlock
    free p.block

/-- `send_simple_packet` on the heap. Its error exits are in front of the `free`. -/
def sendSimplePacketOn (alloc : Bool) (packet : SimplePacket) (script : List SendResult) :
    HeapM SendPacket :=
  let packetSize := toInt32 (4 + packet.length)
  if alloc ∧ (ofSigned 8 packetSize + 1) % 256 ^ 8 ≤ ptrdiffMax then do
    let buffer ← malloc
    match sendSimplePacket alloc packet script with
    | .fault => failure
    | .returned ret wire script' =>
      if ret < 0 then pure (.returned ret wire script')
      else do
        free buffer
        pure (.returned ret wire script')
  else pure (.returned (-1) [] script)

/-- What `recv_simple_packet` leaves behind on the heap. -/
structure RecvHeld where
  ret : Int
  packet : Option HeldPacket
  socket : ByteSource UInt8

/-- The result without the blocks. -/
def RecvHeld.plain (r : RecvHeld) : RecvPacket := ⟨r.ret, heldPacket r.packet, r.socket⟩

/-- `recv_simple_packet` on the heap; `packet` is what the pointer of the caller holds. -/
def recvSimplePacketOn (memory : PacketMemory) (packet : Option HeldPacket)
    (socket : ByteSource UInt8) : HeapM RecvHeld :=
  let r := recvall socket 4
  if r.ret ≤ 0 then pure ⟨r.ret, packet, r.socket⟩
  else if r.ret ≠ 4 then pure ⟨-1, packet, r.socket⟩
  else
    match unpack ['l'] r.received with
    | some [.int length] => do
      -- the pointer is assigned whether it held a packet or not
      match ← createSimplePacketWithLengthOn memory length with
      | none => pure ⟨-1, none, r.socket⟩
      | some created =>
        let filled := recvPayload created.packet r.socket
        pure ⟨filled.ret, filled.packet.map fun p => { created with packet := p }, filled.socket⟩
    | _ => pure ⟨-1, packet, r.socket⟩

/-! ## What they own -/

theorem owns_allocatePacket (memory : PacketMemory) (packet : SimplePacket) :
    Owns 0 (allocatePacket memory packet) fun p O => O = heldBlocks p ∧
      heldPacket p = if memory.packet && memory.data then some packet else none := by
  unfold allocatePacket
  cases memory.packet with
  | false => exact Owns.pure ⟨rfl, rfl⟩
  | true =>
    apply Owns.malloc_bind
    intro block
    cases memory.data with
    | false => exact Owns.free_bind (Owns.pure ⟨rfl, rfl⟩)
    | true =>
      apply Owns.malloc_bind
      intro dataBlock
      refine Owns.pure ⟨?_, rfl⟩
      rw [heldBlocks, add_zero, add_comm]

theorem owns_createSimplePacket (memory : PacketMemory) (data : Option (List UInt8)) :
    Owns 0 (createSimplePacketOn memory data) fun p O => O = heldBlocks p ∧
      heldPacket p = createSimplePacket memory data := by
  cases data with
  | none => exact Owns.pure ⟨rfl, rfl⟩
  | some s => exact owns_allocatePacket memory _

theorem owns_createSimplePacketWithLength (memory : PacketMemory) (length : Int) :
    Owns 0 (createSimplePacketWithLengthOn memory length) fun p O => O = heldBlocks p ∧
      heldPacket p = createSimplePacketWithLength memory length := by
  unfold createSimplePacketWithLengthOn createSimplePacketWithLength
  by_cases hlength : length ≤ 0
  · rw [if_pos hlength, if_pos hlength]
    exact Owns.pure ⟨rfl, rfl⟩
  · rw [if_neg hlength, if_neg hlength]
    exact owns_allocatePacket memory _

/-- A packet is given back whole. -/
theorem owns_freeSimplePacket {α : Type} {P : Multiset Nat} {m : HeapM α}
    {R : α → Multiset Nat → Prop} (hm : Owns P m R) (p : Option HeldPacket) :
    Owns (heldBlocks p + P) (freeSimplePacket p >>= fun _ => m) R := by
  cases p with
  | none =>
    rw [heldBlocks, zero_add]
    exact hm
  | some p =>
    have hblocks : heldBlocks (some p) + P = {p.dataBlock} + ({p.block} + P) := by
      rw [heldBlocks]
      abel
    rw [hblocks, freeSimplePacket, bind_assoc]
    exact Owns.free_bind (Owns.free_bind hm)

/-- The frame of a string is lost in its block when it cannot be sent. -/
def frameLost (alloc : Bool) (message : List UInt8) (script : List SendResult) : Nat :=
  match sendSimplePacket alloc (stringPacket message) script with
  | .returned ret _ _ => if alloc ∧ ret < 0 then 1 else 0
  | .fault => 0

theorem owns_sendSimplePacket {message : List UInt8} (h : FitsFrame message) (alloc : Bool)
    (script : List SendResult) :
    Owns 0 (sendSimplePacketOn alloc (stringPacket message) script) fun r O =>
      r = sendSimplePacket alloc (stringPacket message) script ∧
        O.card = frameLost alloc message script := by
  have hlong := h.le
  have hsize : (ofSigned 8 (toInt32 (4 + (stringPacket message).length)) + 1) % 256 ^ 8 ≤
      ptrdiffMax := by
    have hint : toInt32 (4 + (stringPacket message).length) = 4 + message.length :=
      toInt32_eq_self (z := 4 + (message.length : Int)) (by omega) (by omega)
    rw [hint, ofSigned, ptrdiffMax]
    norm_num
    omega
  obtain ⟨ret, wire, script', hsend, -⟩ := sendSimplePacket_string h alloc script
  cases alloc with
  | false =>
    -- there is no block to lose
    have hret : sendSimplePacket false (stringPacket message) script =
        .returned (-1) [] script := by
      rw [sendSimplePacket]
      simp
    rw [sendSimplePacketOn, if_neg (by simp), frameLost, hret]
    exact Owns.pure ⟨rfl, rfl⟩
  | true =>
    rw [sendSimplePacketOn, if_pos ⟨rfl, hsize⟩, frameLost, hsend]
    apply Owns.malloc_bind
    intro buffer
    by_cases hret : ret < 0
    · simp only [if_pos hret, true_and]
      exact Owns.pure ⟨rfl, rfl⟩
    · simp only [if_neg hret, true_and]
      exact Owns.free_bind (Owns.pure ⟨rfl, rfl⟩)

/-- The packet that the caller holds is lost when the length of the next one arrives. -/
def heldLost (packet : Option HeldPacket) (socket : ByteSource UInt8) : Nat :=
  if 4 ≤ socket.bytes.length then (heldBlocks packet).card else 0

theorem recvPayload_packet (packet : SimplePacket) (socket : ByteSource UInt8) :
    ∃ p, (recvPayload packet socket).packet = some p := by
  unfold recvPayload
  simp only
  split
  · exact ⟨_, rfl⟩
  · split
    · exact ⟨_, rfl⟩
    · exact ⟨_, rfl⟩

theorem owns_recvSimplePacket (memory : PacketMemory) (packet : Option HeldPacket)
    (socket : ByteSource UInt8) :
    Owns (heldBlocks packet) (recvSimplePacketOn memory packet socket) fun r O =>
      r.plain = recvSimplePacket memory (heldPacket packet) socket ∧
        ∃ L, O = heldBlocks r.packet + L ∧ L.card = heldLost packet socket := by
  rcases Nat.lt_or_ge socket.bytes.length 4 with hshort | hlong
  · have hret : (recvall socket 4).ret < 4 := recvall_short hshort
    have hlost : heldLost packet socket = 0 := if_neg hshort.not_ge
    rw [recvSimplePacketOn, recvSimplePacket, hlost]
    by_cases hle : (recvall socket 4).ret ≤ 0
    · rw [if_pos hle, if_pos hle]
      exact Owns.pure ⟨rfl, 0, (add_zero _).symm, rfl⟩
    · rw [if_neg hle, if_neg hle, if_pos hret.ne, if_pos hret.ne]
      exact Owns.pure ⟨rfl, 0, (add_zero _).symm, rfl⟩
  · obtain ⟨middle, hrecv, -, -⟩ := recvall_full hlong
    have hlost : heldLost packet socket = (heldBlocks packet).card := if_pos hlong
    have hfour : 4 ≤ (socket.bytes.take 4).length := by
      rw [List.length_take, Nat.min_eq_left hlong]
    have hunpack := unpack_l hfour
    rw [recvSimplePacketOn, recvSimplePacket, hlost, hrecv]
    simp only [hunpack, ne_eq, Nat.cast_ofNat, not_true_eq_false, if_false]
    -- the packet that was held is in nobody's hands from here on
    apply (owns_createSimplePacketWithLength memory
      (toSigned 4 (ofBigEndian ((socket.bytes.take 4).take 4)))).call
    rintro created O ⟨rfl, hcreated⟩
    rw [← hcreated]
    cases created with
    | none => exact Owns.pure ⟨rfl, heldBlocks packet, rfl, rfl⟩
    | some created =>
      obtain ⟨p, hp⟩ := recvPayload_packet created.packet middle
      refine Owns.pure ⟨?_, heldBlocks packet, ?_, rfl⟩
      · rw [RecvHeld.plain, hp]
        exact (congrArg (RecvPacket.mk _ · _) hp).symm
      · rw [hp]
        rfl

end SelectServer
