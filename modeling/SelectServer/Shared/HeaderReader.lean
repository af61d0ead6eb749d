import SelectServer.Shared.ReceiveSpec

/-!
# The header reader and its buffer

`read_until_double_end_line` once more, with the buffer as a block: each `recv` stores behind
what is already there, and each time a terminator is stored behind that. The bytes and the
result are those of `readUntilDoubleEndLine` (`readUntilInto_refines`), which knows nothing
of the terminator.

The terminator of a buffer that is full lies behind it. The reader stays inside the buffer, and
finds a blank line whenever its result is positive, exactly if the stream does not fill the
buffer before a blank line is found (`readUntilInto_exact_iff`).
-/

namespace SelectServer

open CLib

/-! ## The reader -/

/-- What `read_until_double_end_line` leaves behind, with the buffer as a block. -/
structure HeaderRead where
  ret : Int
  extraDataLength : Nat
  block : Block
  socket : ByteSource UInt8

/-- The loop of `read_until_double_end_line`; the third argument is `total_bytes`. -/
def readUntilIntoLoop (length : Nat) : Nat → Nat → Block → ByteSource UInt8 → HeaderRead
  | 0, total, block, socket => ⟨total, 0, block, socket⟩
  | fuel + 1, total, block, socket =>
    if total < length then
      match socket.read (length - total) with
      | (.ended .failed, socket') => ⟨-1, 0, block, socket'⟩
      | (.ended .closed, socket') => ⟨0, 0, block, socket'⟩
      | (.data bs, socket') =>
        let total' := total + bs.length
        -- `buffer[total_bytes] = '\0'` behind what `recv` stored
        let block' := (block.store total bs).store total' [0]
        match strstr doubleEndLine (cstr (block'.read (total' + 1))) with
        | some endOfHeaders => ⟨total', total' - (endOfHeaders + 4), block', socket'⟩
        | none => readUntilIntoLoop length fuel total' block' socket'
    else ⟨total, 0, block, socket⟩

/-- `read_until_double_end_line` with a buffer of `length` bytes. -/
def readUntilInto (junk : Nat → UInt8) (socket : ByteSource UInt8) (length : Nat) : HeaderRead :=
  readUntilIntoLoop length length 0 (Block.malloc length junk) socket

/-! ## The bytes in the buffer -/

/-- The block-level result belongs to the one that only knows the bytes; the terminator
behind them is inside the buffer unless they fill it. -/
structure HeaderRead.Refines (length : Nat) (r : HeaderRead) (q : ReadUntil) : Prop where
  ret : r.ret = q.ret
  extraDataLength : r.extraDataLength = q.extraDataLength
  socket : r.socket = q.socket
  holds : r.block.Holds 0 q.buffer
  inBounds : r.block.InBounds ↔ q.buffer.length < length

theorem readUntilIntoLoop_refines {length : Nat} (fuel : Nat) {block : Block}
    {buffer : List UInt8} (socket : ByteSource UInt8) (hholds : block.Holds 0 buffer)
    (hsize : block.size = length) (hin : block.InBounds ↔ buffer.length < length) :
    (readUntilIntoLoop length fuel buffer.length block socket).Refines length
      (readUntilLoop length fuel buffer socket) := by
  induction fuel generalizing block buffer socket with
  | zero => exact ⟨rfl, rfl, rfl, hholds, hin⟩
  | succ fuel ih =>
    rw [readUntilIntoLoop, readUntilLoop]
    split
    · rename_i hlt
      cases hr : socket.read (length - buffer.length) with
      | mk res socket' =>
        cases res with
        | ended e =>
          cases e with
          | closed => exact ⟨rfl, rfl, rfl, hholds, hin⟩
          | failed => exact ⟨rfl, rfl, rfl, hholds, hin⟩
        | data bs =>
          have hbs := ByteSource.length_le_of_read hr
          have hterm := hholds.terminated bs
          have htext : (buffer ++ bs ++ [0]).length = buffer.length + bs.length + 1 := by
            simp only [List.length_append, List.length_singleton]
          -- the search sees what the buffer holds in front of the terminator
          have hsearch : cstr (((block.store buffer.length bs).store (buffer.length + bs.length)
              [0]).read (buffer.length + bs.length + 1)) = cstr (buffer ++ bs) := by
            rw [← htext, hterm.read, cstr_append_nul]
          have hholds' : ((block.store buffer.length bs).store (buffer.length + bs.length)
              [0]).Holds 0 (buffer ++ bs) := hterm.left
          -- both stores fit exactly if the terminator does
          have hin' : ((block.store buffer.length bs).store (buffer.length + bs.length)
              [0]).InBounds ↔ (buffer ++ bs).length < length := by
            rw [Block.inBounds_store_iff, Block.inBounds_store_iff, hin, Block.size_store, hsize,
              List.length_append, List.length_singleton]
            constructor
            · rintro ⟨-, h⟩
              exact h
            · intro h
              exact ⟨⟨hlt, by omega⟩, h⟩
          simp only [hsearch]
          cases strstr doubleEndLine (cstr (buffer ++ bs)) with
          | some p =>
            refine ⟨?_, ?_, rfl, hholds', hin'⟩
            · rw [List.length_append]
            · rw [List.length_append]
          | none =>
            rw [← List.length_append] at hholds' hin' ⊢
            exact ih socket' hholds' (by rw [Block.size_store, Block.size_store, hsize]) hin'
    · exact ⟨rfl, rfl, rfl, hholds, hin⟩

/-- The reader with a buffer that has room for a byte is the one that knows the bytes only. -/
theorem readUntilInto_refines (junk : Nat → UInt8) (socket : ByteSource UInt8) {length : Nat}
    (hpos : 0 < length) :
    (readUntilInto junk socket length).Refines length (readUntilDoubleEndLine socket length) := by
  have hholds : (Block.malloc length junk).Holds 0 [] := Block.holds_nil _ _
  apply readUntilIntoLoop_refines length socket hholds
  · rfl
  · exact iff_of_true (Block.inBounds_malloc _ _) hpos

/-! ## What a positive result means -/

/-- Everything is stored below the size of the buffer; a positive result is the number of bytes
in it, the first blank line among them ends in front of the extra bytes, and they are the
first ones of the stream. -/
structure HeaderRead.Exact (socket : ByteSource UInt8) (r : HeaderRead) : Prop where
  inBounds : r.block.InBounds
  blankLine : 0 < r.ret → ∃ p, strstr doubleEndLine (socket.bytes.take r.ret.toNat) = some p ∧
    (p : Int) + 4 = r.ret - r.extraDataLength
  received : 0 < r.ret → r.ret.toNat ≤ socket.bytes.length ∧
    r.block.read r.ret.toNat = socket.bytes.take r.ret.toNat

section Exact

variable {socket : ByteSource UInt8} {length : Nat}

/-- A blank line that arrives in front of the last byte of the buffer is found. -/
theorem exact_of_segmentEnd (junk : Nat → UInt8) {h : Nat}
    (hh : headerEnd socket.bytes = some h)
    (hlt : segmentEnd socket.segments (h - 1) < length) :
    (readUntilInto junk socket length).Exact socket := by
  have hr := readUntilInto_refines junk socket (by omega : 0 < length)
  obtain ⟨p, hp, rfl⟩ := headerEnd_eq_some_iff.mp hh
  obtain ⟨hfour, hlen⟩ := four_le_of_headerEnd hh
  have hseg := lt_segmentEnd (by omega : p + 4 - 1 < socket.bytes.length)
  obtain ⟨n, s', hn, hpn, hnlen, hread, -, -⟩ :=
    readUntil_of_le hh (by omega : p + 4 ≤ length)
  rw [hread] at hr
  have hret := hr.ret
  have hextra := hr.extraDataLength
  have htake : (socket.bytes.take n).length = n := List.length_take_of_le hnlen
  simp only at hret hextra
  constructor
  · apply hr.inBounds.mpr
    rw [htake]
    omega
  · intro _
    rw [hret, hextra, Int.toNat_natCast]
    refine ⟨p, ?_, by omega⟩
    apply strstr_take_of_le doubleEndLine_ne_nil
    · exact strstr_of_isPrefix doubleEndLine_ne_nil (cstr_isPrefix _) hp
    · exact hpn
  · intro _
    rw [hret, Int.toNat_natCast]
    refine ⟨hnlen, ?_⟩
    have hheld := hr.holds.read
    rwa [htake] at hheld

/-- Without a blank line within the buffer, the result is positive only when it is full. -/
theorem exact_of_no_blankLine (junk : Nat → UInt8)
    (hno : ∀ h, headerEnd socket.bytes = some h → length < h)
    (hlt : socket.bytes.length < length) :
    (readUntilInto junk socket length).Exact socket := by
  have hr := readUntilInto_refines junk socket (by omega : 0 < length)
  obtain ⟨r, hread, hbuffer, -, hshort⟩ := readUntil_of_lt length socket hno
  rw [hread] at hr
  have hnonpos : ¬ 0 < (readUntilInto junk socket length).ret := by
    rw [hr.ret]
    exact (hshort hlt).not_gt
  refine ⟨?_, fun h => absurd h hnonpos, fun h => absurd h hnonpos⟩
  apply hr.inBounds.mpr
  rw [hbuffer, List.length_take]
  omega

/-- The terminator stays inside the buffer only if the loop ends before the buffer is full. -/
theorem condition_of_inBounds {junk : Nat → UInt8} (hpos : 0 < length)
    (hin : (readUntilInto junk socket length).block.InBounds) :
    socket.bytes.length < length ∨
      ∃ h, headerEnd socket.bytes = some h ∧ segmentEnd socket.segments (h - 1) < length := by
  have hlt := (readUntilInto_refines junk socket hpos).inBounds.mp hin
  by_cases hle : ∃ h, headerEnd socket.bytes = some h ∧ h ≤ length
  · obtain ⟨h, hh, hle⟩ := hle
    obtain ⟨n, s', hn, -, hnlen, hread, -, -⟩ := readUntil_of_le hh hle
    rw [hread, List.length_take_of_le hnlen] at hlt
    exact Or.inr ⟨h, hh, by omega⟩
  · have hno : ∀ h, headerEnd socket.bytes = some h → length < h := by
      intro h hh
      by_contra hge
      exact hle ⟨h, hh, not_lt.mp hge⟩
    obtain ⟨r, hread, hbuffer, -, -⟩ := readUntil_of_lt length socket hno
    rw [hread, hbuffer, List.length_take] at hlt
    exact Or.inl (by omega)

end Exact

/-- The reader stays inside its buffer, and a positive result means what it says, exactly if the
buffer is empty, the stream is shorter than it, or the segment that completes the first
blank line ends in front of its last byte. -/
theorem readUntilInto_exact_iff (junk : Nat → UInt8) (socket : ByteSource UInt8)
    (length : Nat) :
    (readUntilInto junk socket length).Exact socket ↔
      length = 0 ∨ socket.bytes.length < length ∨
        ∃ h, headerEnd socket.bytes = some h ∧ segmentEnd socket.segments (h - 1) < length := by
  rcases Nat.eq_zero_or_pos length with rfl | hpos
  · -- nothing is read into an empty buffer
    simp only [true_or, iff_true]
    exact ⟨Block.inBounds_malloc _ _, fun h => absurd h (lt_irrefl _),
      fun h => absurd h (lt_irrefl _)⟩
  · constructor
    · intro hexact
      exact Or.inr (condition_of_inBounds hpos hexact.inBounds)
    · rintro (rfl | hlt | ⟨h, hh, hlt⟩)
      · exact absurd hpos (lt_irrefl _)
      · cases hh : headerEnd socket.bytes with
        | none => exact exact_of_no_blankLine junk (by simp [hh]) hlt
        | some h =>
          -- the blank line lies within the stream, so its segment ends within the buffer
          apply exact_of_segmentEnd junk hh
          exact lt_of_le_of_lt (segmentEnd_le _ _) hlt
      · exact exact_of_segmentEnd junk hh hlt

/-- A stream that fills the buffer of the receive functions without a line ending. -/
def fullSocket : ByteSource UInt8 := ⟨[List.replicate defaultBufferSize 65], .closed⟩

theorem readUntilInto_fullSocket :
    ¬ (readUntilInto (fun _ => 0) fullSocket defaultBufferSize).Exact fullSocket := by
  intro hexact
  have hpos : 0 < defaultBufferSize := by decide
  have hbytes : fullSocket.bytes = List.replicate defaultBufferSize 65 := by
    simp [fullSocket, ByteSource.bytes]
  rcases condition_of_inBounds hpos hexact.inBounds with hlt | ⟨h, hh, -⟩
  · rw [hbytes, List.length_replicate] at hlt
    exact absurd hlt (lt_irrefl _)
  · obtain ⟨p, hp, -⟩ := headerEnd_eq_some_iff.mp hh
    have hline := (strstr_isSome_iff doubleEndLine_ne_nil).mp (Option.isSome_of_eq_some hp)
    have hmem : (13 : UInt8) ∈ fullSocket.bytes :=
      (cstr_isPrefix _).subset (hline.subset (by decide))
    rw [hbytes] at hmem
    exact absurd (List.eq_of_mem_replicate hmem) (by decide)

end SelectServer
