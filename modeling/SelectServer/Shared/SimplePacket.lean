import SelectServer.Shared.Common
import SelectServer.Shared.Pack

/-!
# Simple packets of `shared/common.c`

A simple packet is a string; on a connection it is a frame: its length in four bytes,
network byte order, and its characters. `send_simple_packet` builds the frame in a buffer
whose size is an `int`, `recv_simple_packet` reads the length and then the characters.

The result of a receive is determined by the bytes of the stream alone (the lemmas about
`recv_simple_packet` below have one case for each way a stream can begin). Frames sent one
after the other are received one after the other (`simple_packets_in_order`), and the three
kinds of results tell the outcomes apart except for a close right behind a length
(`recv_simple_packet_classifies`).
-/

namespace SelectServer

open CLib

/-! ## Packets -/

/-- `Simple_Packet`; `data` is the whole block the pointer refers to. -/
structure SimplePacket where
  length : Int
  data : List UInt8
  deriving DecidableEq, Repr

/-- The results of the two `malloc` calls behind a packet. -/
structure PacketMemory where
  packet : Bool
  data : Bool
  deriving DecidableEq, Repr

/-- Both allocations succeed. -/
def PacketMemory.Succeeds (m : PacketMemory) : Prop := m.packet = true ∧ m.data = true

instance (m : PacketMemory) : Decidable m.Succeeds := inferInstanceAs (Decidable (_ ∧ _))

/-- A memory in which both allocations succeed. -/
def PacketMemory.ideal : PacketMemory := ⟨true, true⟩

theorem PacketMemory.ideal_succeeds : PacketMemory.ideal.Succeeds := ⟨rfl, rfl⟩

/-- `create_simple_packet`; `none` is NULL. The length is an `int32_t`. -/
def createSimplePacket (memory : PacketMemory) (data : Option (List UInt8)) :
    Option SimplePacket :=
  match data with
  | none => none
  | some s =>
    if memory.packet && memory.data then some ⟨toInt32 s.length, s ++ [0]⟩ else none

/-- `create_simple_packet_with_length`. -/
def createSimplePacketWithLength (memory : PacketMemory) (length : Int) : Option SimplePacket :=
  if length ≤ 0 then none
  else if memory.packet && memory.data then
    some ⟨length, List.replicate (length.toNat + 1) 0⟩
  else none

/-! ## Sending -/

/-- The largest object `malloc` hands out. -/
def ptrdiffMax : Nat := 2 ^ 63 - 1

/-- What `send_simple_packet` does: its result with the bytes handed over, or a `memcpy`
outside of its objects. -/
inductive SendPacket
  | returned (ret : Int) (wire : List UInt8) (script : List SendResult)
  | fault
  deriving DecidableEq, Repr

/-- `send_simple_packet`; `alloc` tells whether the buffer can be allocated. The sizes go
through `int` and `size_t`: a negative one becomes huge. -/
def sendSimplePacket (alloc : Bool) (packet : SimplePacket) (script : List SendResult) :
    SendPacket :=
  let packetSize := toInt32 (4 + packet.length)
  let size := (ofSigned 8 packetSize + 1) % 256 ^ 8
  if alloc ∧ size ≤ ptrdiffMax then
    let length := ofSigned 8 packet.length
    match pack ['l'] [.int packet.length] with
    | none => .fault
    | some netLength =>
      if 4 + length ≤ size ∧ length ≤ packet.data.length then
        let buffer := netLength ++ packet.data.take length ++ List.replicate (size - 4 - length) 0
        let sent := sendall (buffer.take packetSize.toNat) script
        if sent.ret < 0 then .returned sent.ret sent.wire sent.script
        else if sent.ret ≠ packetSize then .returned (-1) sent.wire sent.script
        else .returned sent.ret sent.wire sent.script
      else .fault
  else .returned (-1) [] script

/-! ## Receiving -/

/-- What `recv_simple_packet` leaves behind: its result, the pointer of its caller and the
socket. -/
structure RecvPacket where
  ret : Int
  packet : Option SimplePacket
  socket : ByteSource UInt8
  deriving DecidableEq, Repr

/-- The second half of `recv_simple_packet`: the characters, into the block of the packet. -/
def recvPayload (packet : SimplePacket) (socket : ByteSource UInt8) : RecvPacket :=
  let r := recvall socket packet.length.toNat
  let packet := { packet with data := r.received ++ packet.data.drop r.received.length }
  if r.ret ≤ 0 then ⟨r.ret, some packet, r.socket⟩
  else if r.ret ≠ packet.length then ⟨-1, some packet, r.socket⟩
  else
    ⟨r.ret, some { packet with data := packet.data.set packet.length.toNat 0 }, r.socket⟩

/-- `recv_simple_packet`; `packet` is what the pointer of the caller holds before. -/
def recvSimplePacket (memory : PacketMemory) (packet : Option SimplePacket)
    (socket : ByteSource UInt8) : RecvPacket :=
  let r := recvall socket 4
  if r.ret ≤ 0 then ⟨r.ret, packet, r.socket⟩
  else if r.ret ≠ 4 then ⟨-1, packet, r.socket⟩
  else
    match unpack ['l'] r.received with
    | some [.int length] =>
      match createSimplePacketWithLength memory length with
      | none => ⟨-1, none, r.socket⟩
      | some created => recvPayload created r.socket
    | _ => ⟨-1, packet, r.socket⟩

/-! ## What a send hands over -/

/-- The bytes of a packet on the connection. -/
def SimplePacket.frame (packet : SimplePacket) : List UInt8 :=
  bigEndian 4 (ofSigned 8 packet.length) ++ packet.data.take packet.length.toNat

/-- The length of a packet is an `int32_t`. -/
def SimplePacket.IsInt32 (packet : SimplePacket) : Prop :=
  -2 ^ 31 ≤ packet.length ∧ packet.length < 2 ^ 31

theorem createSimplePacket_isInt32 {memory : PacketMemory} {data : Option (List UInt8)}
    {packet : SimplePacket} (h : createSimplePacket memory data = some packet) :
    packet.IsInt32 := by
  cases data with
  | none => simp [createSimplePacket] at h
  | some s =>
    simp only [createSimplePacket, Option.ite_none_right_eq_some, Option.some.injEq] at h
    obtain ⟨-, rfl⟩ := h
    simpa [SimplePacket.IsInt32] using toInt32_bounds (s.length : Int)

private theorem ofSigned_of_nonneg {z : Int} (h : 0 ≤ z) (hlt : z < 2 ^ 63) :
    ofSigned 8 z = z.toNat := by
  unfold ofSigned
  norm_num
  omega

private theorem ofSigned_of_neg {z : Int} (h : z < 0) (hlo : -2 ^ 31 ≤ z) :
    2 ^ 63 ≤ ofSigned 8 z := by
  unfold ofSigned
  norm_num at *
  omega

/-- The sizes that `send_simple_packet` computes are those of the frame, when its length is
not negative and the frame shorter than `INT_MAX`. -/
private theorem sendSimplePacket_of_fits {packet : SimplePacket} (script : List SendResult)
    (hlo : 0 ≤ packet.length) (hhi : packet.length + 4 < 2 ^ 31)
    (hdata : packet.length.toNat ≤ packet.data.length) :
    sendSimplePacket true packet script =
      (let sent := sendall packet.frame script
        if sent.ret < 0 then .returned sent.ret sent.wire sent.script
        else if sent.ret ≠ 4 + packet.length then .returned (-1) sent.wire sent.script
        else .returned sent.ret sent.wire sent.script) := by
  have hpacket : toInt32 (4 + packet.length) = 4 + packet.length :=
    toInt32_eq_self (by omega) (by omega)
  have hlength := ofSigned_of_nonneg hlo (by omega)
  have hsize : (ofSigned 8 (4 + packet.length) + 1) % 256 ^ 8 = 5 + packet.length.toNat := by
    rw [ofSigned_of_nonneg (by omega) (by omega)]
    norm_num
    omega
  have hbuffer : (bigEndian 4 packet.length.toNat ++
      packet.data.take packet.length.toNat ++ List.replicate
        (5 + packet.length.toNat - 4 - packet.length.toNat) (0 : UInt8)).take
          (4 + packet.length).toNat =
      bigEndian 4 packet.length.toNat ++ packet.data.take packet.length.toNat := by
    apply List.take_left'
    rw [List.length_append, length_bigEndian, List.length_take_of_le hdata]
    omega
  rw [sendSimplePacket, hpacket, hsize, hlength, pack_l, hlength, SimplePacket.frame, hlength]
  have hmax : 5 + packet.length.toNat ≤ ptrdiffMax := by
    unfold ptrdiffMax
    omega
  have hfits : 4 + packet.length.toNat ≤ 5 + packet.length.toNat ∧
      packet.length.toNat ≤ packet.data.length := ⟨by omega, hdata⟩
  simp only [true_and, if_pos hmax, if_pos hfits, hbuffer]

/-- A length is only accepted by `send_simple_packet` when the frame it announces fits. -/
private theorem fits_of_returned {alloc : Bool} {packet : SimplePacket}
    {script script' : List SendResult} {ret : Int} {wire : List UInt8} (h32 : packet.IsInt32)
    (hsend : sendSimplePacket alloc packet script = .returned ret wire script')
    (hret : 0 ≤ ret) :
    alloc = true ∧ 0 ≤ packet.length ∧ packet.length + 4 < 2 ^ 31 ∧
      packet.length.toNat ≤ packet.data.length := by
  obtain ⟨hlo, hhi⟩ := h32
  rw [sendSimplePacket, pack_l] at hsend
  by_cases halloc : alloc = true ∧ (ofSigned 8 (toInt32 (4 + packet.length)) + 1) % 256 ^ 8 ≤
      ptrdiffMax
  · rw [if_pos halloc] at hsend
    by_cases hbounds : 4 + ofSigned 8 packet.length ≤
        (ofSigned 8 (toInt32 (4 + packet.length)) + 1) % 256 ^ 8 ∧
          ofSigned 8 packet.length ≤ packet.data.length
    · obtain ⟨halloc, hsize⟩ := halloc
      obtain ⟨hwrite, hread⟩ := hbounds
      unfold ptrdiffMax at hsize
      -- a negative length is a copy of more bytes than any object has
      have hnonneg : 0 ≤ packet.length := by
        by_contra hneg
        have := ofSigned_of_neg (not_le.mp hneg) hlo
        omega
      rw [ofSigned_of_nonneg hnonneg (by omega)] at hread
      -- and a frame beyond `INT_MAX` has a negative size, for which there is no memory
      refine ⟨halloc, hnonneg, ?_, hread⟩
      by_contra hbig
      have hwrap : toInt32 (4 + packet.length) = 4 + packet.length - 2 ^ 32 := by
        rw [← toInt32_sub, toInt32_eq_self (by omega) (by omega)]
      rw [hwrap] at hsize
      unfold ofSigned at hsize
      norm_num at *
      omega
    · simp only [if_neg hbounds] at hsend
      exact absurd hsend (by simp)
  · rw [if_neg halloc] at hsend
    injection hsend with h1
    omega

/-- A send that reports no error has handed over exactly the frame of its packet. -/
theorem sendSimplePacket_whole {alloc : Bool} {packet : SimplePacket}
    {script script' : List SendResult} {ret : Int} {wire : List UInt8} (h32 : packet.IsInt32)
    (hsend : sendSimplePacket alloc packet script = .returned ret wire script')
    (hret : 0 ≤ ret) :
    0 ≤ packet.length ∧ packet.length.toNat ≤ packet.data.length ∧ wire = packet.frame := by
  obtain ⟨rfl, hlo, hhi, hdata⟩ := fits_of_returned h32 hsend hret
  refine ⟨hlo, hdata, ?_⟩
  rw [sendSimplePacket_of_fits script hlo hhi hdata] at hsend
  -- only the last of the three exits reports no error
  simp only at hsend
  split at hsend
  · injection hsend with h1
    omega
  · rename_i hneg
    have hwire := (sendall_whole (not_lt.mp hneg)).2
    split at hsend
    · injection hsend with h1
      omega
    · injection hsend with _ h2
      rw [← h2, hwire]

/-- When no `send` fails, the frame of a packet that fits is handed over. -/
theorem sendSimplePacket_ok {packet : SimplePacket} {script : List SendResult}
    (hscript : .failed ∉ script) (hlo : 0 ≤ packet.length) (hhi : packet.length + 4 < 2 ^ 31)
    (hdata : packet.length.toNat ≤ packet.data.length) :
    ∃ script', sendSimplePacket true packet script =
      .returned (4 + packet.length) packet.frame script' := by
  obtain ⟨hret, hwire⟩ := sendall_spec packet.frame hscript
  have hlength : (packet.frame.length : Int) = 4 + packet.length := by
    rw [SimplePacket.frame, List.length_append, length_bigEndian, List.length_take_of_le hdata]
    omega
  have h1 : ¬ (4 + packet.length < 0) := by omega
  refine ⟨(sendall packet.frame script).script, ?_⟩
  rw [sendSimplePacket_of_fits script hlo hhi hdata]
  simp only [hret, hlength, hwire, if_neg h1, ne_eq, not_true_eq_false, if_false]

/-- A send of a packet that fits touches nothing outside of its objects, and reports an error
unless it hands over the whole frame. -/
theorem sendSimplePacket_returns (alloc : Bool) {packet : SimplePacket}
    (script : List SendResult) (hlo : 0 ≤ packet.length) (hhi : packet.length + 4 < 2 ^ 31)
    (hdata : packet.length.toNat ≤ packet.data.length) :
    ∃ ret wire script', sendSimplePacket alloc packet script = .returned ret wire script' ∧
      (0 ≤ ret → wire = packet.frame) := by
  have hreturned : ∃ ret wire script',
      sendSimplePacket alloc packet script = .returned ret wire script' := by
    cases alloc with
    | false => exact ⟨-1, [], script, by simp [sendSimplePacket]⟩
    | true =>
      rw [sendSimplePacket_of_fits script hlo hhi hdata]
      simp only
      split
      · exact ⟨_, _, _, rfl⟩
      · split <;> exact ⟨_, _, _, rfl⟩
  obtain ⟨ret, wire, script', hsend⟩ := hreturned
  exact ⟨ret, wire, script', hsend,
    fun hret => (sendSimplePacket_whole ⟨by omega, by omega⟩ hsend hret).2.2⟩

/-! ## What a receive returns -/

/-- The number in the first four bytes of a stream. -/
def lengthField (stream : List UInt8) : Int := toSigned 4 (ofBigEndian (stream.take 4))

section Receive

variable {memory : PacketMemory} {socket : ByteSource UInt8}

private theorem createSimplePacketWithLength_of_succeeds (hmem : memory.Succeeds) {n : Nat}
    (hn : 0 < n) : createSimplePacketWithLength memory n =
      some ⟨n, List.replicate (n + 1) 0⟩ := by
  have hnot : ¬ ((n : Int) ≤ 0) := by omega
  rw [createSimplePacketWithLength, if_neg hnot, hmem.1, hmem.2]
  rfl

/-- A stream that closes within the length gives 0 when it is empty and an error otherwise. -/
theorem recvSimplePacket_short (memory : PacketMemory) (packet : Option SimplePacket)
    (hclosed : socket.ending = .closed) (h : socket.bytes.length < 4) :
    (recvSimplePacket memory packet socket).ret = if socket.bytes = [] then 0 else -1 := by
  obtain ⟨socket', hrecv⟩ := recvall_closed h.le hclosed
  rw [recvSimplePacket, hrecv]
  by_cases hnil : socket.bytes = []
  · simp [hnil]
  · have hpos := List.length_pos_iff.mpr hnil
    have h1 : ¬ ((socket.bytes.length : Int) ≤ 0) := by omega
    have h2 : (socket.bytes.length : Int) ≠ 4 := by omega
    simp only [if_neg h1, if_pos h2, if_neg hnil]

/-- Behind a complete length, everything depends on the number it denotes. -/
theorem recvSimplePacket_of_length (memory : PacketMemory) (packet : Option SimplePacket)
    (h : 4 ≤ socket.bytes.length) :
    ∃ socket', recvSimplePacket memory packet socket =
        (match createSimplePacketWithLength memory (lengthField socket.bytes) with
          | none => ⟨-1, none, socket'⟩
          | some created => recvPayload created socket') ∧
      socket'.bytes = socket.bytes.drop 4 ∧ socket'.ending = socket.ending := by
  obtain ⟨socket', hrecv, hbytes, hend⟩ := recvall_full h
  have htaken : 4 ≤ (socket.bytes.take 4).length := by
    rw [List.length_take]
    omega
  have hunpack := unpack_l htaken
  rw [List.take_take, Nat.min_self] at hunpack
  refine ⟨socket', ?_, hbytes, hend⟩
  rw [recvSimplePacket, hrecv]
  simp only [hunpack]
  rfl

/-- A length that is not positive, or one for which there is no memory, is an error. -/
theorem recvSimplePacket_rejected (packet : Option SimplePacket)
    (h : 4 ≤ socket.bytes.length)
    (hrejects : lengthField socket.bytes ≤ 0 ∨ ¬ memory.Succeeds) :
    (recvSimplePacket memory packet socket).ret = -1 := by
  obtain ⟨socket', hrecv, -, -⟩ := recvSimplePacket_of_length memory packet h
  have hnone : createSimplePacketWithLength memory (lengthField socket.bytes) = none := by
    rw [createSimplePacketWithLength]
    split
    · rfl
    · rename_i hpos
      rcases hrejects with hle | hmem
      · exact absurd hle hpos
      · apply if_neg
        simpa [PacketMemory.Succeeds] using hmem
  rw [hrecv, hnone]

/-- A stream with all the characters that its length announces gives the packet, and goes on
behind it. -/
theorem recvSimplePacket_frame (packet : Option SimplePacket) (hmem : memory.Succeeds) {n : Nat}
    (hn : 0 < n) (hlength : lengthField socket.bytes = n)
    (hfull : 4 + n ≤ socket.bytes.length) :
    ∃ socket', recvSimplePacket memory packet socket =
        ⟨n, some ⟨n, (socket.bytes.drop 4).take n ++ [0]⟩, socket'⟩ ∧
      socket'.bytes = socket.bytes.drop (4 + n) ∧ socket'.ending = socket.ending := by
  have hlong : 4 ≤ socket.bytes.length := by omega
  obtain ⟨middle, hrecv, hbytes, hend⟩ := recvSimplePacket_of_length memory packet hlong
  have hmiddle : n ≤ middle.bytes.length := by
    rw [hbytes, List.length_drop]
    omega
  obtain ⟨socket', hpayload, hbytes', hend'⟩ := recvall_full hmiddle
  have htaken : (middle.bytes.take n).length = n := List.length_take_of_le hmiddle
  have h1 : ¬ ((n : Int) ≤ 0) := by omega
  refine ⟨socket', ?_, ?_, hend'.trans hend⟩
  · rw [hrecv, hlength, createSimplePacketWithLength_of_succeeds hmem hn]
    simp only [recvPayload, Int.toNat_natCast, hpayload, if_neg h1, ne_eq, not_true_eq_false,
      if_false, htaken]
    -- the block is one byte longer than the characters, and that byte stays zero
    have hdrop : (List.replicate (n + 1) (0 : UInt8)).drop n = [0] := by
      rw [List.drop_replicate, Nat.add_sub_cancel_left, List.replicate_one]
    rw [hdrop, List.set_append_right _ _ htaken.le, htaken, Nat.sub_self, List.set_cons_zero,
      hbytes]
  · rw [hbytes', hbytes, List.drop_drop]

/-- A stream that closes within the characters is an error, except right behind the
length. -/
theorem recvSimplePacket_truncated (packet : Option SimplePacket) (hmem : memory.Succeeds)
    (hclosed : socket.ending = .closed) {n : Nat} (hn : 0 < n)
    (hlength : lengthField socket.bytes = n) (hlong : 4 ≤ socket.bytes.length)
    (hshort : socket.bytes.length < 4 + n) :
    (recvSimplePacket memory packet socket).ret =
      if socket.bytes.length = 4 then 0 else -1 := by
  obtain ⟨middle, hrecv, hbytes, hend⟩ := recvSimplePacket_of_length memory packet hlong
  have hmiddle : middle.bytes.length = socket.bytes.length - 4 := by
    rw [hbytes, List.length_drop]
  have hle : middle.bytes.length ≤ n := by omega
  obtain ⟨socket', hpayload⟩ := recvall_closed hle (hend.trans hclosed)
  rw [hmiddle] at hpayload
  rw [hrecv, hlength, createSimplePacketWithLength_of_succeeds hmem hn]
  simp only [recvPayload, Int.toNat_natCast, hpayload]
  by_cases hfour : socket.bytes.length = 4
  · simp [hfour]
  · have h1 : ¬ (((socket.bytes.length - 4 : Nat) : Int) ≤ 0) := by omega
    have h2 : ((socket.bytes.length - 4 : Nat) : Int) ≠ n := by omega
    simp only [if_neg h1, if_pos h2, if_neg hfour]

/-- The characters that the first frame of a stream announces. -/
def payload (stream : List UInt8) : List UInt8 :=
  (stream.drop 4).take (lengthField stream).toNat

/-- A positive result stands for a packet with all the characters that its frame announces,
and a terminator. -/
theorem recvSimplePacket_pos {packet : Option SimplePacket}
    (h : 0 < (recvSimplePacket memory packet socket).ret) :
    ∃ n, (recvSimplePacket memory packet socket).packet =
      some ⟨n, payload socket.bytes ++ [0]⟩ := by
  rcases lt_or_ge socket.bytes.length 4 with hshort | hlong
  · -- without a whole length the result is not positive
    have hlt := recvall_short hshort
    have hne : (recvall socket 4).ret ≠ 4 := by exact_mod_cast hlt.ne
    simp only [recvSimplePacket, if_pos hne] at h
    split at h
    · rename_i hle
      exact absurd h (not_lt.mpr hle)
    · norm_num at h
  obtain ⟨middle, hrecv, hbytes, -⟩ := recvSimplePacket_of_length memory packet hlong
  by_cases hcreate : 0 < lengthField socket.bytes ∧ memory.Succeeds
  · obtain ⟨hpos, hmem⟩ := hcreate
    obtain ⟨n, hn⟩ := Int.eq_ofNat_of_zero_le hpos.le
    have hn0 : 0 < n := by omega
    rcases lt_or_ge socket.bytes.length (4 + n) with hcut | hfull
    · -- nor is it when characters are missing
      have hmiddle : middle.bytes.length < n := by
        rw [hbytes, List.length_drop]
        omega
      have hne := (recvall_short hmiddle).ne
      rw [hrecv, hn, createSimplePacketWithLength_of_succeeds hmem hn0] at h
      simp only [recvPayload, Int.toNat_natCast, if_pos hne] at h
      split at h
      · rename_i hle
        exact absurd h (not_lt.mpr hle)
      · norm_num at h
    · obtain ⟨socket', hframe, -⟩ := recvSimplePacket_frame packet hmem hn0 hn hfull
      exact ⟨n, by rw [hframe, payload, hn, Int.toNat_natCast]⟩
  · rw [not_and_or, not_lt] at hcreate
    rw [recvSimplePacket_rejected packet hlong hcreate] at h
    norm_num at h

end Receive

/-- The length of a frame is read back from its first four bytes. -/
theorem lengthField_append {z : Int} (hlo : -2 ^ 31 ≤ z) (hhi : z < 2 ^ 31) (t : List UInt8) :
    lengthField (bigEndian 4 (ofSigned 8 z) ++ t) = z := by
  have hlow : ofSigned 8 z % 256 ^ 4 = ofSigned 4 z := by
    unfold ofSigned
    norm_num
    omega
  rw [lengthField, List.take_left' (length_bigEndian 4 _), ofBigEndian_bigEndian, hlow]
  apply toSigned_ofSigned <;> norm_num at * <;> omega

/-- A frame of at least one character is received whole, whatever follows it. -/
theorem recvSimplePacket_of_frame {memory : PacketMemory} {socket : ByteSource UInt8}
    (slot : Option SimplePacket) (hmem : memory.Succeeds) {packet : SimplePacket}
    (h32 : packet.IsInt32) (hpos : 0 < packet.length)
    (hdata : packet.length.toNat ≤ packet.data.length) {rest : List UInt8}
    (hs : socket.bytes = packet.frame ++ rest) :
    ∃ socket', recvSimplePacket memory slot socket =
        ⟨packet.length, some ⟨packet.length, packet.data.take packet.length.toNat ++ [0]⟩,
          socket'⟩ ∧
      socket'.bytes = rest ∧ socket'.ending = socket.ending := by
  obtain ⟨n, hn⟩ := Int.eq_ofNat_of_zero_le hpos.le
  rw [hn, Int.toNat_natCast] at hdata
  rw [SimplePacket.frame, List.append_assoc] at hs
  have hlength : lengthField socket.bytes = n := by
    rw [hs, lengthField_append h32.1 h32.2, hn]
  have htaken : (packet.data.take n).length = n := List.length_take_of_le hdata
  rw [hn, Int.toNat_natCast] at hs ⊢
  have hdrop : socket.bytes.drop 4 = packet.data.take n ++ rest := by
    rw [hs, List.drop_left' (length_bigEndian 4 _)]
  have hfull : 4 + n ≤ socket.bytes.length := by
    rw [hs, List.length_append, length_bigEndian, List.length_append, htaken]
    omega
  obtain ⟨socket', hrecv, hbytes, hend⟩ :=
    recvSimplePacket_frame slot hmem (by omega) hlength hfull
  refine ⟨socket', ?_, ?_, hend⟩
  · rw [hrecv, hdrop, List.take_left' htaken]
  · rw [hbytes, ← List.drop_drop, hdrop, List.drop_left' htaken]

/-! ## Packets one after the other -/

/-- The bytes of a string on the connection. -/
def stringFrame (s : List UInt8) : List UInt8 := bigEndian 4 s.length ++ s

/-- The bytes handed over by a send that reports no error. -/
def SendPacket.sent : SendPacket → Option (List UInt8)
  | .fault => none
  | .returned ret wire _ => if ret < 0 then none else some wire

/-- A string sent as a packet, with the answers to the `send` calls; `none` when it is not
sent. -/
def sendString (m : List UInt8 × List SendResult) : Option (List UInt8) :=
  (createSimplePacket .ideal (some m.1)).bind fun packet =>
    (sendSimplePacket true packet m.2).sent

/-- Strings sent one after the other. -/
def sendStrings : List (List UInt8 × List SendResult) → Option (List UInt8)
  | [] => some []
  | m :: messages =>
    (sendString m).bind fun wire => (sendStrings messages).map (wire ++ ·)

/-- `recv_simple_packet` called repeatedly, with one pointer for all calls. -/
def recvSimplePackets : Nat → Option SimplePacket → ByteSource UInt8 → List RecvPacket
  | 0, _, _ => []
  | calls + 1, slot, socket =>
    let r := recvSimplePacket .ideal slot socket
    r :: recvSimplePackets calls r.packet r.socket

/-- A string whose frame fits an `int`. -/
structure FitsFrame (s : List UInt8) : Prop where
  no_nul : 0 ∉ s
  pos : 1 ≤ s.length
  le : s.length ≤ 2 ^ 31 - 5

/-- The packet of a string that fits. -/
def stringPacket (s : List UInt8) : SimplePacket := ⟨s.length, s ++ [0]⟩

section Fits

variable {s : List UInt8} (h : FitsFrame s)

include h

theorem createSimplePacket_of_fits (memory : PacketMemory) :
    createSimplePacket memory (some s) =
      if memory.packet && memory.data then some (stringPacket s) else none := by
  have hle := h.le
  have h32 : toInt32 s.length = s.length := toInt32_eq_self (by omega) (by omega)
  rw [createSimplePacket, h32, stringPacket]

/-- The frame that stands for a string that fits. -/
theorem frame_stringPacket : (stringPacket s).frame = stringFrame s := by
  have hle := h.le
  have hlength := ofSigned_of_nonneg (z := s.length) (by omega) (by omega)
  simp only [SimplePacket.frame, stringPacket, stringFrame, hlength, Int.toNat_natCast,
    List.take_left]

/-- A send of a string that fits reports an error or hands over its frame. -/
theorem sendSimplePacket_string (alloc : Bool) (script : List SendResult) :
    ∃ ret wire script', sendSimplePacket alloc (stringPacket s) script =
      .returned ret wire script' ∧ (0 ≤ ret → wire = stringFrame s) := by
  have hle := h.le
  have hhi : (stringPacket s).length + 4 < 2 ^ 31 := by
    simp only [stringPacket]
    omega
  rw [← frame_stringPacket h]
  exact sendSimplePacket_returns alloc script (Int.natCast_nonneg _) hhi (by simp [stringPacket])

theorem sendSimplePacket_string_ok {script : List SendResult} (hscript : .failed ∉ script) :
    ∃ script', sendSimplePacket true (stringPacket s) script =
      .returned (4 + s.length) (stringFrame s) script' := by
  have hle := h.le
  have hhi : (stringPacket s).length + 4 < 2 ^ 31 := by
    simp only [stringPacket]
    omega
  rw [← frame_stringPacket h]
  exact sendSimplePacket_ok hscript (Int.natCast_nonneg _) hhi (by simp [stringPacket])

/-- The frame of a string that fits is received as its packet, whatever follows it. -/
theorem recvSimplePacket_string {memory : PacketMemory} {socket : ByteSource UInt8}
    (slot : Option SimplePacket) (hmem : memory.Succeeds) {rest : List UInt8}
    (hs : socket.bytes = stringFrame s ++ rest) :
    ∃ socket', recvSimplePacket memory slot socket =
        ⟨s.length, some (stringPacket s), socket'⟩ ∧
      socket'.bytes = rest ∧ socket'.ending = socket.ending := by
  have hle := h.le
  have hpos := h.pos
  have h32 : (stringPacket s).IsInt32 := by
    simp only [SimplePacket.IsInt32, stringPacket]
    omega
  rw [← frame_stringPacket h] at hs
  obtain ⟨socket', hrecv, hrest⟩ := recvSimplePacket_of_frame slot hmem h32
    (by simp only [stringPacket]; omega) (by simp [stringPacket]) hs
  refine ⟨socket', ?_, hrest⟩
  rw [hrecv]
  simp only [stringPacket, Int.toNat_natCast, List.take_left]

end Fits

theorem sendString_ok {m : List UInt8 × List SendResult} (hfits : FitsFrame m.1)
    (hsends : .failed ∉ m.2) : sendString m = some (stringFrame m.1) := by
  obtain ⟨script', hsend⟩ := sendSimplePacket_string_ok hfits hsends
  have hnonneg : ¬ (4 + (m.1.length : Int) < 0) := by omega
  have hcreate : createSimplePacket .ideal (some m.1) = some (stringPacket m.1) :=
    createSimplePacket_of_fits hfits .ideal
  rw [sendString, hcreate, Option.bind_some, hsend, SendPacket.sent, if_neg hnonneg]

theorem sendStrings_ok {messages : List (List UInt8 × List SendResult)}
    (hfits : ∀ m ∈ messages, FitsFrame m.1) (hsends : ∀ m ∈ messages, .failed ∉ m.2) :
    sendStrings messages = some (messages.flatMap fun m => stringFrame m.1) := by
  induction messages with
  | nil => rfl
  | cons m messages ih =>
    have hfirst := sendString_ok (hfits m List.mem_cons_self) (hsends m List.mem_cons_self)
    have hrest := ih (fun x hx => hfits x (List.mem_cons_of_mem _ hx))
      (fun x hx => hsends x (List.mem_cons_of_mem _ hx))
    simp only [sendStrings, hfirst, hrest, Option.bind_some, Option.map_some,
      List.flatMap_cons]

/-- Strings sent one after the other are received one after the other: each call returns its
string with its length and a terminator, and leaves the stream at the next frame, whatever
the kernel makes of the sends and of the stream. -/
theorem simple_packets_in_order (messages : List (List UInt8 × List SendResult))
    (hfits : ∀ m ∈ messages, FitsFrame m.1) (hsends : ∀ m ∈ messages, .failed ∉ m.2)
    (slot : Option SimplePacket) (rest : List UInt8) :
    ∃ wire, sendStrings messages = some wire ∧
      ∀ socket : ByteSource UInt8, socket.bytes = wire ++ rest →
        ∀ k (hk : k < messages.length), ∃ socket',
          (recvSimplePackets messages.length slot socket)[k]? =
            some ⟨messages[k].1.length,
              some ⟨messages[k].1.length, messages[k].1 ++ [0]⟩, socket'⟩ ∧
          socket'.bytes =
            (messages.drop (k + 1)).flatMap (fun m => stringFrame m.1) ++ rest := by
  refine ⟨_, sendStrings_ok hfits hsends, ?_⟩
  clear hsends
  induction messages generalizing slot with
  | nil =>
    intro socket _ k hk
    simp at hk
  | cons m messages ih =>
    intro socket hs k hk
    -- the first call takes the first frame
    rw [List.flatMap_cons, List.append_assoc] at hs
    obtain ⟨socket', hrecv, hbytes, -⟩ := recvSimplePacket_string (hfits m List.mem_cons_self)
      slot PacketMemory.ideal_succeeds hs
    rw [stringPacket] at hrecv
    cases k with
    | zero =>
      refine ⟨socket', ?_, by simpa using hbytes⟩
      simp [recvSimplePackets, hrecv]
    | succ k =>
      -- and leaves the stream as the remaining calls need it
      obtain ⟨socket'', hget, hbytes''⟩ := ih
        (fun x hx => hfits x (List.mem_cons_of_mem _ hx))
        (some ⟨m.1.length, m.1 ++ [0]⟩) socket' hbytes k (by simpa using hk)
      refine ⟨socket'', ?_, by simpa using hbytes''⟩
      simpa [recvSimplePackets, hrecv] using hget

/-- "PING" in three pieces and "hi" in one. -/
def twoStrings : List (List UInt8 × List SendResult) :=
  [(bytes "PING", [.accepted 1, .accepted 5]), (bytes "hi", [])]

theorem twoStrings_in_order :
    ∃ wire, sendStrings twoStrings = some wire ∧
      ∀ socket : ByteSource UInt8, socket.bytes = wire ++ [] →
        ∀ k (hk : k < twoStrings.length), ∃ socket',
          (recvSimplePackets twoStrings.length none socket)[k]? =
            some ⟨twoStrings[k].1.length,
              some ⟨twoStrings[k].1.length, twoStrings[k].1 ++ [0]⟩, socket'⟩ ∧
          socket'.bytes =
            (twoStrings.drop (k + 1)).flatMap (fun m => stringFrame m.1) ++ [] := by
  apply simple_packets_in_order twoStrings
  · intro m hm
    rcases List.mem_pair.mp hm with rfl | rfl
    · exact ⟨by decide, by decide, by decide⟩
    · exact ⟨by decide, by decide, by decide⟩
  · intro m hm
    rcases List.mem_pair.mp hm with rfl | rfl <;> decide

/-! ## The three kinds of results -/

/-- A length that denotes `n ≥ 1` and all `n` characters behind it, with memory for them. -/
def FrameReceived (memory : PacketMemory) (stream : List UInt8) (n : Nat) : Prop :=
  1 ≤ n ∧ 4 + n ≤ stream.length ∧ lengthField stream = n ∧ memory.Succeeds

/-- A result that is 0 at a close in front of the frame, the length when the frame was
received, and negative otherwise. -/
structure Classifies (memory : PacketMemory) (stream : List UInt8) (ret : Int) : Prop where
  closed : ret = 0 ↔ stream = []
  received : ∀ n : Nat, 1 ≤ n → (ret = n ↔ FrameReceived memory stream n)
  error : stream ≠ [] → (∀ n, ¬ FrameReceived memory stream n) → ret < 0

/-- The peer sent the length of a packet and closed. -/
def ClosedBehindLength (memory : PacketMemory) (stream : List UInt8) : Prop :=
  stream.length = 4 ∧ 1 ≤ lengthField stream ∧ memory.Succeeds

/-- No frame transmitted whole for this string is an error to a receiver with memory. -/
def NeverAnError (s : List UInt8) : Prop :=
  ∀ memory packet alloc script ret wire script',
    createSimplePacket memory (some s) = some packet →
    sendSimplePacket alloc packet script = .returned ret wire script' → 0 ≤ ret →
    ∀ (memory' : PacketMemory) (slot : Option SimplePacket) (socket : ByteSource UInt8)
      (rest : List UInt8), memory'.Succeeds → socket.bytes = wire ++ rest →
        ¬ (recvSimplePacket memory' slot socket).ret < 0

private theorem classifies_error {memory : PacketMemory} {stream : List UInt8} {ret : Int}
    (hret : ret < 0) (hne : stream ≠ []) (hframe : ∀ n, ¬ FrameReceived memory stream n) :
    Classifies memory stream ret where
  closed := iff_of_false (by omega) hne
  received n _ := iff_of_false (by omega) (hframe n)
  error _ _ := hret

/-- The close comes within the length. -/
private theorem classifies_short (memory : PacketMemory) (slot : Option SimplePacket)
    {socket : ByteSource UInt8} (hclosed : socket.ending = .closed)
    (hshort : socket.bytes.length < 4) :
    Classifies memory socket.bytes (recvSimplePacket memory slot socket).ret := by
  have hframe : ∀ n, ¬ FrameReceived memory socket.bytes n := fun n h => by
    have := h.2.1
    omega
  rw [recvSimplePacket_short memory slot hclosed hshort]
  by_cases hnil : socket.bytes = []
  · rw [if_pos hnil]
    exact ⟨iff_of_true rfl hnil, fun n hn => iff_of_false (by omega) (hframe n),
      fun hne => absurd hnil hne⟩
  · rw [if_neg hnil]
    exact classifies_error (by omega) hnil hframe

/-- The close comes within the characters, or right in front of them. -/
private theorem classifies_truncated {memory : PacketMemory} (slot : Option SimplePacket)
    {socket : ByteSource UInt8} (hclosed : socket.ending = .closed) (hmem : memory.Succeeds)
    {n : Nat} (hpos : 0 < n) (hn : lengthField socket.bytes = n)
    (hlong : 4 ≤ socket.bytes.length) (hcut : socket.bytes.length < 4 + n) :
    Classifies memory socket.bytes (recvSimplePacket memory slot socket).ret ↔
      socket.bytes.length ≠ 4 := by
  have hne : socket.bytes ≠ [] := List.ne_nil_of_length_pos (by omega)
  rw [recvSimplePacket_truncated slot hmem hclosed hpos hn hlong hcut]
  by_cases hfour : socket.bytes.length = 4
  · rw [if_pos hfour]
    exact iff_of_false (fun h => hne (h.closed.mp rfl)) (not_not_intro hfour)
  · rw [if_neg hfour]
    refine iff_of_true (classifies_error (by omega) hne fun m h => ?_) hfour
    obtain ⟨-, hm, hlength, -⟩ := h
    omega

/-- The frame is complete. -/
private theorem classifies_frame {memory : PacketMemory} (slot : Option SimplePacket)
    {socket : ByteSource UInt8} (hmem : memory.Succeeds) {n : Nat} (hpos : 0 < n)
    (hn : lengthField socket.bytes = n) (hfull : 4 + n ≤ socket.bytes.length) :
    Classifies memory socket.bytes (recvSimplePacket memory slot socket).ret := by
  have hne : socket.bytes ≠ [] := List.ne_nil_of_length_pos (by omega)
  obtain ⟨socket', hrecv, -⟩ := recvSimplePacket_frame slot hmem hpos hn hfull
  rw [hrecv]
  refine ⟨iff_of_false (by simp only; omega) hne, fun m hm => ?_, fun _ h => ?_⟩
  · constructor
    · intro heq
      have hnm : n = m := Int.ofNat.inj heq
      exact ⟨hm, by omega, by omega, hmem⟩
    · rintro ⟨-, -, hlength, -⟩
      exact hn.symm.trans hlength
  · exact absurd ⟨hpos, hfull, hn, hmem⟩ (h n)

/-- No packet is created. -/
private theorem classifies_rejected {memory : PacketMemory} (slot : Option SimplePacket)
    {socket : ByteSource UInt8} (hlong : 4 ≤ socket.bytes.length)
    (hrejects : lengthField socket.bytes ≤ 0 ∨ ¬ memory.Succeeds) :
    Classifies memory socket.bytes (recvSimplePacket memory slot socket).ret := by
  rw [recvSimplePacket_rejected slot hlong hrejects]
  apply classifies_error (by omega) (List.ne_nil_of_length_pos (by omega))
  intro n h
  obtain ⟨hn, -, hlength, hmem⟩ := h
  rcases hrejects with hlow | hfails
  · omega
  · exact hfails hmem

theorem classifies_iff (memory : PacketMemory) (slot : Option SimplePacket)
    {socket : ByteSource UInt8} (hclosed : socket.ending = .closed) :
    Classifies memory socket.bytes (recvSimplePacket memory slot socket).ret ↔
      ¬ ClosedBehindLength memory socket.bytes := by
  rcases lt_or_ge socket.bytes.length 4 with hshort | hlong
  · apply iff_of_true (classifies_short memory slot hclosed hshort)
    rintro ⟨hfour, -⟩
    omega
  by_cases hok : 1 ≤ lengthField socket.bytes ∧ memory.Succeeds
  · obtain ⟨hpos, hmem⟩ := hok
    obtain ⟨n, hn⟩ := Int.eq_ofNat_of_zero_le (by omega : 0 ≤ lengthField socket.bytes)
    rcases lt_or_ge socket.bytes.length (4 + n) with hcut | hfull
    · rw [classifies_truncated slot hclosed hmem (by omega) hn hlong hcut]
      exact not_congr ⟨fun hfour => ⟨hfour, hpos, hmem⟩, fun h => h.1⟩
    · apply iff_of_true (classifies_frame slot hmem (by omega) hn hfull)
      rintro ⟨hfour, -⟩
      omega
  · rw [not_and_or, not_le] at hok
    have hrejects : lengthField socket.bytes ≤ 0 ∨ ¬ memory.Succeeds :=
      hok.imp_left fun h => by omega
    apply iff_of_true (classifies_rejected slot hlong hrejects)
    rintro ⟨-, hpos, hmem⟩
    rcases hrejects with hlow | hfails
    · omega
    · exact hfails hmem

private theorem toInt32_eq_zero_iff (n : Nat) : toInt32 n = 0 ↔ n % 2 ^ 32 = 0 := by
  unfold toInt32
  rw [Int.bmod_def]
  norm_num
  split <;> omega

theorem neverAnError_iff (s : List UInt8) : NeverAnError s ↔ s.length % 2 ^ 32 ≠ 0 := by
  constructor
  · -- a packet of length 0 is sent, and its frame is an error to every receiver
    intro h hzero
    have h32 := (toInt32_eq_zero_iff s.length).mpr hzero
    have hcreate : createSimplePacket .ideal (some s) = some ⟨0, s ++ [0]⟩ := by
      rw [createSimplePacket, h32]
      rfl
    obtain ⟨script', hsend⟩ : ∃ script', sendSimplePacket true ⟨0, s ++ [0]⟩ [] =
        .returned (4 + 0) (SimplePacket.mk 0 (s ++ [0])).frame script' :=
      sendSimplePacket_ok (by simp) le_rfl (by norm_num) (by simp)
    have hbytes : (SimplePacket.mk 0 (s ++ [0])).frame = bigEndian 4 (ofSigned 8 0) ++ [] := by
      simp [SimplePacket.frame]
    have herror : (recvSimplePacket .ideal none
        ⟨[(SimplePacket.mk 0 (s ++ [0])).frame], .closed⟩).ret = -1 := by
      apply recvSimplePacket_rejected
      · simp [ByteSource.bytes, hbytes]
      · left
        rw [ByteSource.bytes, List.flatten_singleton, hbytes,
          lengthField_append (by norm_num) (by norm_num)]
    refine h _ _ _ _ _ _ _ hcreate hsend (by norm_num) .ideal none _ []
      PacketMemory.ideal_succeeds ?_ (by rw [herror]; norm_num)
    simp [ByteSource.bytes]
  · intro hlen memory packet alloc script ret wire script' hcreate hsend hret memory' slot
      socket rest hmem hs
    have h32 := createSimplePacket_isInt32 hcreate
    obtain ⟨hlo, hdata, rfl⟩ := sendSimplePacket_whole h32 hsend hret
    -- the length is not 0, so the receiver takes the frame
    have hne : packet.length ≠ 0 := by
      simp only [createSimplePacket, Option.ite_none_right_eq_some, Option.some.injEq] at hcreate
      rw [← hcreate.2]
      simp only [ne_eq, toInt32_eq_zero_iff]
      exact hlen
    obtain ⟨socket', hrecv, -⟩ :=
      recvSimplePacket_of_frame slot hmem h32 (by omega) hdata hs
    rw [hrecv]
    exact not_lt.mpr hlo

/-- The three kinds of results tell the outcomes of a receive apart exactly when the peer
does not close between a length and its characters; and a sender's frame is never an error
exactly when the low 32 bits of the length of its string are not all zero. -/
theorem recv_simple_packet_classifies (memory : PacketMemory) (slot : Option SimplePacket)
    (socket : ByteSource UInt8) (hclosed : socket.ending = .closed) (s : List UInt8) :
    (Classifies memory socket.bytes (recvSimplePacket memory slot socket).ret ↔
        ¬ ClosedBehindLength memory socket.bytes) ∧
      (NeverAnError s ↔ s.length % 2 ^ 32 ≠ 0) :=
  ⟨classifies_iff memory slot hclosed, neverAnError_iff s⟩

/-- A whole frame, in three segments. -/
theorem recv_simple_packet_classifies_ping :
    Classifies .ideal (ByteSource.mk [[0, 0], [0, 4, 80, 73], [78, 71]] .closed).bytes
        (recvSimplePacket .ideal none ⟨[[0, 0], [0, 4, 80, 73], [78, 71]], .closed⟩).ret ∧
      NeverAnError (bytes "PING") := by
  obtain ⟨hclassifies, hnever⟩ := recv_simple_packet_classifies .ideal none
    ⟨[[0, 0], [0, 4, 80, 73], [78, 71]], .closed⟩ rfl (bytes "PING")
  refine ⟨hclassifies.mpr fun hclosed => ?_, hnever.mpr (by decide)⟩
  exact absurd hclosed.1 (by decide)

/-- A length of 4 and a close behind it give 0, the result of a close in front of a frame;
and the packet of the empty string is sent whole and is an error to its receiver. -/
theorem recv_simple_packet_misclassifies :
    (recvSimplePacket .ideal none ⟨[[0, 0, 0, 4]], .closed⟩).ret = 0 ∧
      ¬ Classifies .ideal [0, 0, 0, 4]
        (recvSimplePacket .ideal none ⟨[[0, 0, 0, 4]], .closed⟩).ret ∧
      sendSimplePacket true ⟨0, [0]⟩ [] = .returned 4 [0, 0, 0, 0] [] ∧
      (recvSimplePacket .ideal none ⟨[[0, 0, 0, 0]], .closed⟩).ret = -1 ∧
      ¬ NeverAnError [] := by
  have hzero : (recvSimplePacket .ideal none ⟨[[0, 0, 0, 4]], .closed⟩).ret = 0 := by decide
  refine ⟨hzero, ?_, by decide, by decide, ?_⟩
  · intro h
    have := h.closed.mp hzero
    simp at this
  · rw [neverAnError_iff]
    decide

end SelectServer
