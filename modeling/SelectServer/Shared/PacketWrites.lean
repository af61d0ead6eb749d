import SelectServer.CLib.Blocks
import SelectServer.Shared.SimplePacket

/-!
# Where `recv_simple_packet` writes

`recvall` and `recv_simple_packet` once more, with the objects they store into as blocks. The
results are those of `recvSimplePacket` (`recvSimplePacketInto_refines`), which knows nothing
of the stores.

`recvall` terminates what it has received, also in the four bytes of the length, and `unpack`
stores a `long` for a format that reads 32 bits. Both reach behind their objects as soon as a
length has arrived (`packet_writes_inBounds_iff`); the block of the characters has room for the
terminator.
-/

namespace SelectServer

open CLib

/-! ## `recvall` into a block -/

/-- What `recvall` leaves behind, with the buffer as a block. -/
structure RecvInto where
  ret : Int
  block : Block
  socket : ByteSource UInt8

/-- The loop of `recvall_with_flags` and the terminator behind it; the third argument is
`total_received`. -/
def recvallIntoLoop (len : Nat) : Nat → Nat → Block → ByteSource UInt8 → RecvInto
  | 0, total, block, socket => ⟨total, block.store total [0], socket⟩
  | fuel + 1, total, block, socket =>
    if total < len then
      match socket.read (len - total) with
      | (.ended .failed, socket') => ⟨-1, block, socket'⟩
      | (.ended .closed, socket') => ⟨total, block.store total [0], socket'⟩
      | (.data bs, socket') =>
        recvallIntoLoop len fuel (total + bs.length) (block.store total bs) socket'
    else ⟨total, block.store total [0], socket⟩

/-- `recvall` into a block. -/
def recvallInto (block : Block) (socket : ByteSource UInt8) (len : Nat) : RecvInto :=
  recvallIntoLoop len len 0 block socket

/-- The block-level result belongs to the one that only knows the bytes. What is received lies
inside the block, and so does the terminator unless the bytes fill it. -/
structure RecvInto.Refines (size : Nat) (r : RecvInto) (q : Recvall) : Prop where
  ret : r.ret = q.ret
  socket : r.socket = q.socket
  size_eq : r.block.size = size
  holds : r.block.Holds 0 q.received
  inBounds : r.block.InBounds ↔ 0 ≤ q.ret → q.received.length < size

/-- A terminator behind what has been received. -/
theorem refines_terminated {size : Nat} {block : Block} {received : List UInt8}
    (socket : ByteSource UInt8) (hholds : block.Holds 0 received) (hsize : block.size = size)
    (hin : block.InBounds) :
    RecvInto.Refines size ⟨received.length, block.store received.length [0], socket⟩
      ⟨received.length, received, socket⟩ := by
  refine ⟨rfl, rfl, hsize, (hholds.concat [0] (Nat.zero_add _)).left, ?_⟩
  rw [Block.inBounds_store_iff, List.length_singleton, hsize]
  constructor
  · exact fun h _ => h.2
  · exact fun h => ⟨hin, h (Int.natCast_nonneg _)⟩

theorem recvallIntoLoop_refines {len size : Nat} (hle : len ≤ size) (fuel : Nat) {block : Block}
    {received : List UInt8} (socket : ByteSource UInt8) (hholds : block.Holds 0 received)
    (hsize : block.size = size) (hin : block.InBounds) :
    (recvallIntoLoop len fuel received.length block socket).Refines size
      (recvallLoop len fuel received (len - received.length) socket) := by
  induction fuel generalizing block received socket with
  | zero => exact refines_terminated socket hholds hsize hin
  | succ fuel ih =>
    rw [recvallIntoLoop, recvallLoop]
    split
    · rename_i hlt
      cases hr : socket.read (len - received.length) with
      | mk res socket' =>
        cases res with
        | ended e =>
          cases e with
          | closed => exact refines_terminated socket' hholds hsize hin
          | failed => exact ⟨rfl, rfl, hsize, hholds, iff_of_true hin fun h => absurd h (by simp)⟩
        | data bs =>
          have hbs := ByteSource.length_le_of_read hr
          have hlength : (received ++ bs).length = received.length + bs.length :=
            List.length_append
          have hleft : len - received.length - bs.length = len - (received ++ bs).length := by
            omega
          have hstored : (block.store received.length bs).InBounds := by
            rw [Block.inBounds_store_iff, hsize]
            exact ⟨hin, by omega⟩
          simp only [hleft, ← hlength]
          exact ih socket' (hholds.concat bs (Nat.zero_add _)) hsize hstored
    · exact refines_terminated socket hholds hsize hin

/-- `recvall` into a block that has room for the bytes. -/
theorem recvallInto_refines {block : Block} (socket : ByteSource UInt8) {len : Nat}
    (hle : len ≤ block.size) (hin : block.InBounds) :
    (recvallInto block socket len).Refines block.size (recvall socket len) :=
  recvallIntoLoop_refines hle len socket (Block.holds_nil block 0) rfl hin

/-! ## `recv_simple_packet` with its objects -/

/-- `sizeof(int32_t)`. -/
def sizeofInt32 : Nat := 4

/-- `sizeof(long)`. -/
def sizeofLong : Nat := 8

/-- The store of `unpack` for the format `l`: a `long`, its lowest byte first. -/
def storeLong (block : Block) (v : Int) : Block :=
  block.store 0 (bigEndian sizeofLong (ofSigned sizeofLong v)).reverse

/-- What `recv_simple_packet` leaves behind: its result, the socket and the objects it stores
into, as far as it gets to them. -/
structure RecvPacketInto where
  ret : Int
  socket : ByteSource UInt8
  lengthBuffer : Block
  netLength : Option Block
  length : Option Block
  data : Option Block

/-- All objects that are stored into. -/
def RecvPacketInto.objects (r : RecvPacketInto) : List Block :=
  r.lengthBuffer :: (r.netLength.toList ++ r.length.toList ++ r.data.toList)

/-- The second half of `recv_simple_packet`, into the block of the packet. -/
def recvPayloadInto (data : Block) (length : Int) (socket : ByteSource UInt8) : RecvInto :=
  let r := recvallInto data socket length.toNat
  if r.ret ≤ 0 then r
  else if r.ret ≠ length then { r with ret := -1 }
  else { r with block := r.block.store length.toNat [0] }

/-- `recv_simple_packet`. -/
def recvSimplePacketInto (memory : PacketMemory) (junk : Nat → UInt8)
    (socket : ByteSource UInt8) : RecvPacketInto :=
  let r := recvallInto (Block.malloc sizeofInt32 junk) socket sizeofInt32
  if r.ret ≤ 0 then ⟨r.ret, r.socket, r.block, none, none, none⟩
  else if r.ret ≠ sizeofInt32 then ⟨-1, r.socket, r.block, none, none, none⟩
  else
    let netLength := (Block.malloc sizeofInt32 junk).store 0 (r.block.read sizeofInt32)
    match unpack ['l'] (netLength.read sizeofInt32) with
    | some [.int v] =>
      let length := storeLong (Block.malloc sizeofInt32 junk) v
      match createSimplePacketWithLength memory v with
      | none => ⟨-1, r.socket, r.block, some netLength, some length, none⟩
      | some created =>
        let data := (Block.malloc created.data.length junk).store 0 created.data
        let p := recvPayloadInto data v r.socket
        ⟨p.ret, p.socket, r.block, some netLength, some length, some p.block⟩
    | _ => ⟨-1, r.socket, r.block, some netLength, none, none⟩

section

variable {memory : PacketMemory} {junk : Nat → UInt8} {socket : ByteSource UInt8}

/-- The four bytes of a length are in their buffer, and the terminator is behind it. -/
theorem recvallInto_length (junk : Nat → UInt8) (h : 4 ≤ socket.bytes.length) :
    ∃ socket' lengthBuffer, recvall socket 4 = ⟨4, socket.bytes.take 4, socket'⟩ ∧
      recvallInto (Block.malloc sizeofInt32 junk) socket sizeofInt32 =
        ⟨4, lengthBuffer, socket'⟩ ∧
      lengthBuffer.read sizeofInt32 = socket.bytes.take 4 ∧ ¬ lengthBuffer.InBounds := by
  obtain ⟨socket', hrecv, -, -⟩ := recvall_full h
  have hr := recvallInto_refines socket (le_refl sizeofInt32)
    (Block.inBounds_malloc sizeofInt32 junk)
  rw [show recvall socket sizeofInt32 = _ from hrecv] at hr
  have htaken : (socket.bytes.take 4).length = 4 := List.length_take_of_le h
  generalize recvallInto (Block.malloc sizeofInt32 junk) socket sizeofInt32 = r at hr ⊢
  have hret : r.ret = 4 := hr.ret
  have hsocket : r.socket = socket' := hr.socket
  refine ⟨socket', r.block, hrecv, by rw [← hret, ← hsocket], ?_, ?_⟩
  · have hread := hr.holds.read
    rwa [htaken] at hread
  · rw [hr.inBounds, htaken]
    exact fun hfits => Nat.lt_irrefl 4 (hfits (Int.natCast_nonneg 4))

/-- The copy of the four bytes fits the number in network order. -/
theorem netLength_spec {bs : List UInt8} (h : bs.length = sizeofInt32) (junk : Nat → UInt8) :
    ((Block.malloc sizeofInt32 junk).store 0 bs).read sizeofInt32 = bs ∧
      ((Block.malloc sizeofInt32 junk).store 0 bs).InBounds := by
  constructor
  · have hread := (Block.holds_store_self (Block.malloc sizeofInt32 junk) 0 bs).read
    rwa [h] at hread
  · rw [Block.inBounds_store_iff, h]
    exact ⟨Block.inBounds_malloc _ _, le_rfl⟩

/-- A `long` does not fit an `int32_t`. -/
theorem not_inBounds_storeLong (junk : Nat → UInt8) (v : Int) :
    ¬ (storeLong (Block.malloc sizeofInt32 junk) v).InBounds := by
  rw [storeLong, Block.inBounds_store_iff, List.length_reverse, length_bigEndian]
  exact fun hin => absurd hin.2 (show ¬ 0 + sizeofLong ≤ sizeofInt32 by decide)

/-- Behind a complete length, everything depends on the number it denotes. The objects of the
length have been overrun. -/
theorem recvSimplePacketInto_of_length (memory : PacketMemory) (junk : Nat → UInt8)
    (h : 4 ≤ socket.bytes.length) :
    ∃ socket' lengthBuffer netLength length,
      recvSimplePacketInto memory junk socket =
        (createSimplePacketWithLength memory (lengthField socket.bytes)).elim
          ⟨-1, socket', lengthBuffer, some netLength, some length, none⟩
          (fun created =>
            let p := recvPayloadInto
              ((Block.malloc created.data.length junk).store 0 created.data)
              (lengthField socket.bytes) socket'
            ⟨p.ret, p.socket, lengthBuffer, some netLength, some length, some p.block⟩) ∧
      (∀ packet, recvSimplePacket memory packet socket =
        (createSimplePacketWithLength memory (lengthField socket.bytes)).elim ⟨-1, none, socket'⟩
          (fun created => recvPayload created socket')) ∧
      ¬ lengthBuffer.InBounds ∧ netLength.InBounds ∧ ¬ length.InBounds := by
  obtain ⟨socket', lengthBuffer, hrecv, hinto, hread, hover⟩ := recvallInto_length junk h
  have htaken : (socket.bytes.take 4).length = 4 := List.length_take_of_le h
  obtain ⟨hnet, hnetIn⟩ := netLength_spec htaken junk
  have hunpack := unpack_l htaken.ge
  rw [List.take_take, Nat.min_self] at hunpack
  refine ⟨socket', lengthBuffer, (Block.malloc sizeofInt32 junk).store 0 (socket.bytes.take 4),
    storeLong (Block.malloc sizeofInt32 junk) (lengthField socket.bytes), ?_, ?_, hover, hnetIn,
    not_inBounds_storeLong junk _⟩
  · have hpos : ¬ (4 : Int) ≤ 0 := by decide
    have hfour : ¬ (4 : Int) ≠ (sizeofInt32 : Int) := not_not_intro rfl
    simp only [recvSimplePacketInto, hinto, if_neg hpos, if_neg hfour, hread, hnet, hunpack]
    -- both sides go by whether a packet of that length can be created
    rw [lengthField]
    cases createSimplePacketWithLength memory (toSigned 4 (ofBigEndian (socket.bytes.take 4)))
      with
    | none => rfl
    | some created => rfl
  · intro packet
    rw [recvSimplePacket, hrecv]
    simp only [hunpack]
    rw [lengthField]
    cases createSimplePacketWithLength memory (toSigned 4 (ofBigEndian (socket.bytes.take 4)))
      with
    | none => rfl
    | some created => rfl

/-- A stream that ends within the length leaves nothing but its bytes and a terminator. -/
theorem recvSimplePacketInto_short (memory : PacketMemory) (junk : Nat → UInt8)
    (packet : Option SimplePacket) (h : socket.bytes.length < 4) :
    ∃ lengthBuffer, recvSimplePacketInto memory junk socket =
        ⟨(recvSimplePacket memory packet socket).ret,
          (recvSimplePacket memory packet socket).socket, lengthBuffer, none, none, none⟩ ∧
      lengthBuffer.InBounds := by
  have hr := recvallInto_refines socket (le_refl sizeofInt32)
    (Block.inBounds_malloc sizeofInt32 junk)
  generalize hinto : recvallInto (Block.malloc sizeofInt32 junk) socket sizeofInt32 = r at hr
  have hlt : (recvall socket sizeofInt32).ret < (sizeofInt32 : Int) := recvall_short h
  have hret := hr.ret
  have hsocket := hr.socket
  refine ⟨r.block, ?_, ?_⟩
  · rw [recvSimplePacketInto, recvSimplePacket, hinto]
    rw [sizeofInt32] at hret hsocket hlt
    by_cases hle : (recvall socket 4).ret ≤ 0
    · simp only [hret, hsocket, if_pos hle]
    · have hne : (recvall socket 4).ret ≠ 4 := by exact_mod_cast hlt.ne
      have hnot : (recvall socket 4).ret ≠ ((4 : Nat) : Int) := hlt.ne
      simp only [hret, hsocket, if_neg hle, sizeofInt32, if_pos hne, if_pos hnot]
  · obtain ⟨socket', hrecv, -, -⟩ := recvall_spec socket sizeofInt32
    rw [hr.inBounds, hrecv]
    intro _
    rw [List.length_take]
    exact (Nat.min_le_right _ _).trans_lt h

/-- A packet that is created has a positive length, and is empty. -/
theorem createSimplePacketWithLength_eq_some {length : Int} {created : SimplePacket}
    (h : createSimplePacketWithLength memory length = some created) :
    ∃ n : Nat, length = n ∧ created = ⟨n, List.replicate (n + 1) 0⟩ := by
  rw [createSimplePacketWithLength] at h
  split at h
  · cases h
  · rename_i hpos
    split at h
    · refine ⟨length.toNat, by omega, ?_⟩
      rw [← Option.some.inj h]
      congr 1
      omega
    · cases h

/-- The block of the characters as `create_simple_packet_with_length` leaves it. -/
theorem payloadBlock_fresh (n : Nat) (junk : Nat → UInt8) :
    let zeros := List.replicate (n + 1) (0 : UInt8)
    ((Block.malloc zeros.length junk).store 0 zeros).size = n + 1 ∧
      ((Block.malloc zeros.length junk).store 0 zeros).InBounds := by
  constructor
  · rw [Block.size_store, Block.size_malloc, List.length_replicate]
  · rw [Block.inBounds_store_iff, Nat.zero_add]
    exact ⟨Block.inBounds_malloc _ _, le_rfl⟩

section Payload

variable {data : Block} {n : Nat}

/-- The block of the characters is one byte longer than what is received into it. -/
theorem recvPayloadInto_inBounds (hsize : data.size = n + 1) (hin : data.InBounds)
    (socket : ByteSource UInt8) : (recvPayloadInto data n socket).block.InBounds := by
  have hroom : n ≤ data.size := hsize ▸ Nat.le_succ n
  have hr := recvallInto_refines socket hroom hin
  have hreceived : (recvallInto data socket n).block.InBounds := by
    obtain ⟨socket', hrecv, -, -⟩ := recvall_spec socket n
    rw [hr.inBounds, hrecv, hsize]
    intro _
    rw [List.length_take]
    omega
  simp only [recvPayloadInto, Int.toNat_natCast]
  split
  · exact hreceived
  · split
    · exact hreceived
    · rw [Block.inBounds_store_iff, hr.size_eq, hsize]
      exact ⟨hreceived, le_rfl⟩

/-- The characters of a packet that is received are in its block. -/
theorem recvPayloadInto_refines (hsize : data.size = n + 1) (hin : data.InBounds)
    (socket : ByteSource UInt8) :
    (recvPayloadInto data n socket).ret =
        (recvPayload ⟨n, List.replicate (n + 1) 0⟩ socket).ret ∧
      (recvPayloadInto data n socket).socket =
        (recvPayload ⟨n, List.replicate (n + 1) 0⟩ socket).socket ∧
      (0 < (recvPayloadInto data n socket).ret →
        ∃ p, (recvPayload ⟨n, List.replicate (n + 1) 0⟩ socket).packet = some p ∧
          (recvPayloadInto data n socket).block.Holds 0 p.data) := by
  have hroom : n ≤ data.size := hsize ▸ Nat.le_succ n
  have hr := recvallInto_refines socket hroom hin
  simp only [recvPayloadInto, recvPayload, Int.toNat_natCast, hr.ret]
  split
  · rename_i hle
    exact ⟨hr.ret, hr.socket, fun hpos => absurd (hr.ret ▸ hpos) hle.not_gt⟩
  · split
    · exact ⟨rfl, hr.socket, fun hpos => absurd hpos (by simp)⟩
    · rename_i hpos hfull
      refine ⟨rfl, hr.socket, fun _ => ⟨_, rfl, ?_⟩⟩
      -- all characters have arrived, and the block goes on with one byte
      have hlength : (recvall socket n).received.length = n := by
        obtain ⟨socket', hrecv, -, -⟩ := recvall_spec socket n
        rw [hrecv] at hfull ⊢
        have hmin := not_not.mp hfull
        rw [List.length_take]
        simp only at hmin
        split at hmin
        · omega
        · omega
      have hdrop : (List.replicate (n + 1) (0 : UInt8)).drop n = [0] := by
        rw [List.drop_replicate, Nat.add_sub_cancel_left, List.replicate_one]
      rw [hlength, hdrop, List.set_append_right _ _ hlength.le, hlength, Nat.sub_self,
        List.set_cons_zero]
      exact hr.holds.concat [0] (by rw [hlength, Nat.zero_add])

end Payload

end

/-! ## Results and stores -/

/-- The results are those of the function that only knows the bytes, and a packet that is
received is what its block holds. -/
theorem recvSimplePacketInto_refines (memory : PacketMemory) (junk : Nat → UInt8)
    (packet : Option SimplePacket) (socket : ByteSource UInt8) :
    (recvSimplePacketInto memory junk socket).ret =
        (recvSimplePacket memory packet socket).ret ∧
      (recvSimplePacketInto memory junk socket).socket =
        (recvSimplePacket memory packet socket).socket ∧
      (4 ≤ socket.bytes.length → 0 < (recvSimplePacketInto memory junk socket).ret →
        ∃ p b, (recvSimplePacket memory packet socket).packet = some p ∧
          (recvSimplePacketInto memory junk socket).data = some b ∧ b.Holds 0 p.data) := by
  rcases Nat.lt_or_ge socket.bytes.length 4 with hshort | hlong
  · obtain ⟨lengthBuffer, hrun, -⟩ := recvSimplePacketInto_short memory junk packet hshort
    rw [hrun]
    exact ⟨rfl, rfl, fun hlong => absurd hlong hshort.not_ge⟩
  · obtain ⟨socket', lengthBuffer, netLength, length, hrun, hrecv, -⟩ :=
      recvSimplePacketInto_of_length memory junk hlong
    rw [hrun, hrecv packet]
    cases hcreated : createSimplePacketWithLength memory (lengthField socket.bytes) with
    | none => exact ⟨rfl, rfl, fun _ hpos => absurd hpos (by simp)⟩
    | some created =>
      obtain ⟨n, hn, rfl⟩ := createSimplePacketWithLength_eq_some hcreated
      rw [hn]
      have hfresh := payloadBlock_fresh n junk
      obtain ⟨hret, hsocket, hdata⟩ := recvPayloadInto_refines hfresh.1 hfresh.2 socket'
      refine ⟨hret, hsocket, fun _ hpos => ?_⟩
      obtain ⟨p, hp, hholds⟩ := hdata hpos
      exact ⟨p, _, hp, rfl, hholds⟩

/-- Every store of `recv_simple_packet` lies inside the object it is meant for exactly if the
stream ends within the length. The characters always stay inside their block. -/
theorem packet_writes_inBounds_iff (memory : PacketMemory) (junk : Nat → UInt8)
    (socket : ByteSource UInt8) :
    ((∀ b ∈ (recvSimplePacketInto memory junk socket).objects, b.InBounds) ↔
      socket.bytes.length < 4) ∧
    ∀ b, (recvSimplePacketInto memory junk socket).data = some b → b.InBounds := by
  rcases Nat.lt_or_ge socket.bytes.length 4 with hshort | hlong
  · obtain ⟨lengthBuffer, hrun, hin⟩ := recvSimplePacketInto_short memory junk none hshort
    rw [hrun]
    refine ⟨iff_of_true ?_ hshort, fun b hb => absurd hb (by simp)⟩
    simpa [RecvPacketInto.objects] using hin
  · obtain ⟨socket', lengthBuffer, netLength, length, hrun, -, hbuffer, -, -⟩ :=
      recvSimplePacketInto_of_length memory junk hlong
    rw [hrun]
    cases hcreated : createSimplePacketWithLength memory (lengthField socket.bytes) with
    | none =>
      refine ⟨iff_of_false (fun hall => hbuffer ?_) hlong.not_gt, fun b hb => absurd hb (by simp)⟩
      exact hall lengthBuffer List.mem_cons_self
    | some created =>
      refine ⟨iff_of_false (fun hall => hbuffer ?_) hlong.not_gt, fun b hb => ?_⟩
      · exact hall lengthBuffer List.mem_cons_self
      · obtain rfl := Option.some.inj hb
        obtain ⟨n, hn, rfl⟩ := createSimplePacketWithLength_eq_some hcreated
        have hfresh := payloadBlock_fresh n junk
        rw [hn]
        exact recvPayloadInto_inBounds hfresh.1 hfresh.2 socket'

/-- The frame of one character: behind four bytes of the length, `recvall` stores a fifth one, and
`unpack` stores eight bytes where the number has four. -/
theorem packet_writes_overrun :
    let r := recvSimplePacketInto .ideal (fun _ => 0) ⟨[[0, 0, 0, 1, 65]], .closed⟩
    (r.lengthBuffer.size, r.lengthBuffer.log) = (4, [(0, 4), (4, 1)]) ∧
      r.length.map (fun b => (b.size, b.log)) = some (4, [(0, 8)]) ∧
      ¬ ∀ b ∈ r.objects, b.InBounds := by
  decide

end SelectServer
