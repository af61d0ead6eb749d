import SelectServer.Shared.Receive

/-!
# What the receive functions return

The result of `read_until_double_end_line` and of the receive functions in terms of the
byte stream and its segmentation.

Of the segmentation a single number matters: how many bytes have been read when the
blank line is complete (`arrived`). What lies between the end of the header block and
that position are the extra bytes; the rest of the body is left to `recvall`.
-/

namespace SelectServer

open CLib

/-! ## The header reader -/

/-- The position behind the first blank line of a stream, as `strstr` finds it: a NUL byte
ends the search. -/
def headerEnd (stream : List UInt8) : Option Nat :=
  (strstr doubleEndLine (cstr stream)).map (· + 4)

/-- The number of bytes read when the blank line that ends at `h` is complete: all of the
segment with its last byte, up to the size of the buffer. -/
def arrived (socket : ByteSource UInt8) (h : Nat) : Nat :=
  max h (min defaultBufferSize (segmentEnd socket.segments (h - 1)))

/-- The C string in the buffer when the blank line that ends at `h` is complete. -/
def headText (socket : ByteSource UInt8) (h : Nat) : List UInt8 :=
  cstr (socket.bytes.take (arrived socket h))

theorem zero_notMem_headText {socket : ByteSource UInt8} {h : Nat} : 0 ∉ headText socket h :=
  zero_notMem_cstr _

theorem headerEnd_eq_some_iff {stream : List UInt8} {h : Nat} :
    headerEnd stream = some h ↔ ∃ p, strstr doubleEndLine (cstr stream) = some p ∧ h = p + 4 := by
  simp [headerEnd, eq_comm]

theorem four_le_of_headerEnd {stream : List UInt8} {h : Nat} (hh : headerEnd stream = some h) :
    4 ≤ h ∧ h ≤ stream.length := by
  obtain ⟨p, hp, rfl⟩ := headerEnd_eq_some_iff.mp hh
  have hle := strstr_le_length doubleEndLine_ne_nil hp
  have hpre := (cstr_isPrefix stream).length_le
  rw [length_doubleEndLine] at hle
  omega

/-- Within a stream, the blank line is visible in a prefix exactly when it is complete. -/
theorem strstr_cstr_take {stream : List UInt8} {h : Nat} (hh : headerEnd stream = some h)
    (n : Nat) :
    strstr doubleEndLine (cstr (stream.take n)) = if h ≤ n then some (h - 4) else none := by
  obtain ⟨p, hp, rfl⟩ := headerEnd_eq_some_iff.mp hh
  rw [cstr_take]
  -- the prefix holds the blank line, or ends inside it
  split
  · rw [strstr_take_of_le doubleEndLine_ne_nil hp (by simpa using ‹p + 4 ≤ n›)]
    simp
  · exact strstr_take_of_lt doubleEndLine_ne_nil hp (by rw [length_doubleEndLine]; omega)

/-- The result of the header reader in terms of the generic reading loop. -/
def ReadUntil.ofFilled (f : Filled UInt8) : ReadUntil where
  ret := match f.status with
    | .ended .failed => -1
    | .ended .closed => 0
    | _ => f.buffer.length
  extraDataLength := match f.status with
    | .stopped => f.buffer.length - ((strstr doubleEndLine (cstr f.buffer)).getD 0 + 4)
    | _ => 0
  buffer := f.buffer
  socket := f.source

theorem readUntilLoop_eq_fill (length fuel : Nat) (buffer : List UInt8)
    (socket : ByteSource UInt8) :
    readUntilLoop length fuel buffer socket =
      .ofFilled (fill length (fun b => (strstr doubleEndLine (cstr b)).isSome) fuel buffer
        socket) := by
  induction fuel generalizing buffer socket with
  | zero => simp [readUntilLoop, fill, ReadUntil.ofFilled]
  | succ fuel ih =>
    simp only [readUntilLoop, fill]
    split
    · cases socket.read (length - buffer.length) with
      | mk res socket' =>
        cases res with
        | data bs =>
          cases hs : strstr doubleEndLine (cstr (buffer ++ bs)) with
          | some p => simp [ReadUntil.ofFilled, hs]
          | none => simp [hs, ih]
        | ended e => cases e <;> simp [ReadUntil.ofFilled]
    · simp [ReadUntil.ofFilled]

/-- Within a buffer of `length` bytes, a blank line is found by the read that completes it. -/
theorem readUntil_of_le {length : Nat} {socket : ByteSource UInt8} {h : Nat}
    (hh : headerEnd socket.bytes = some h) (hle : h ≤ length) :
    ∃ n socket', n = min length (segmentEnd socket.segments (h - 1)) ∧ h ≤ n ∧
      n ≤ socket.bytes.length ∧
      readUntilDoubleEndLine socket length = ⟨n, n - h, socket.bytes.take n, socket'⟩ ∧
      socket'.bytes = socket.bytes.drop n ∧ socket'.ending = socket.ending := by
  obtain ⟨hfour, hlen⟩ := four_le_of_headerEnd hh
  have hseg := lt_segmentEnd (by omega : h - 1 < socket.bytes.length)
  have hsegle := segmentEnd_le socket.segments (h - 1)
  -- the stop condition of the loop is that the blank line has been read completely
  obtain ⟨s', hfill, hbytes, hend⟩ := fill_stopped
    (fun b => (strstr doubleEndLine (cstr b)).isSome) length [] socket (by simp)
    (by simp; omega) hle (by simpa using hlen)
    (by
      intro n _
      simp only [List.nil_append, strstr_cstr_take hh]
      split <;> simp_all)
  simp only [List.nil_append, List.length_nil, Nat.sub_zero, Nat.zero_add] at hfill hbytes
  generalize hn : min length (segmentEnd socket.segments (h - 1)) = n at hfill hbytes
  have hnlen : n ≤ socket.bytes.length := by
    simp only [ByteSource.bytes]
    omega
  have hhn : h ≤ n := by omega
  refine ⟨n, s', rfl, hhn, hnlen, ?_, hbytes, hend⟩
  rw [readUntilDoubleEndLine, readUntilLoop_eq_fill, hfill]
  have hfound := strstr_cstr_take hh n
  rw [if_pos hhn] at hfound
  have hminlen : (socket.bytes.take n).length = n := by simpa using hnlen
  simp only [ReadUntil.ofFilled, hfound, hminlen, Option.getD_some]
  congr 1
  omega

/-- In the buffer of the receive functions the reader stops where the bytes have arrived. -/
theorem readUntil_found {socket : ByteSource UInt8} {h : Nat}
    (hh : headerEnd socket.bytes = some h) (hle : h ≤ defaultBufferSize) :
    ∃ socket', readUntilDoubleEndLine socket defaultBufferSize =
        ⟨arrived socket h, arrived socket h - h, socket.bytes.take (arrived socket h), socket'⟩ ∧
      socket'.bytes = socket.bytes.drop (arrived socket h) ∧
      socket'.ending = socket.ending ∧ arrived socket h ≤ socket.bytes.length := by
  obtain ⟨n, s', hn, hhn, hnlen, hread, hbytes, hend⟩ := readUntil_of_le hh hle
  have harr : arrived socket h = n := by
    unfold arrived
    omega
  rw [harr]
  exact ⟨s', hread, hbytes, hend, hnlen⟩

/-- Without a blank line within the buffer the reader fills it, or reports the end of the
stream. -/
theorem readUntil_of_lt (length : Nat) (socket : ByteSource UInt8)
    (hno : ∀ h, headerEnd socket.bytes = some h → length < h) :
    ∃ r, readUntilDoubleEndLine socket length = r ∧ r.buffer = socket.bytes.take length ∧
      (length ≤ socket.bytes.length →
        r.ret = length ∧ strstr doubleEndLine (cstr r.buffer) = none) ∧
      (socket.bytes.length < length → r.ret ≤ 0) := by
  have hnone : ∀ n ≤ length, strstr doubleEndLine (cstr (socket.bytes.take n)) = none := by
    intro n hn
    cases hh : headerEnd socket.bytes with
    | none =>
      rw [cstr_take]
      exact strstr_take_of_none n doubleEndLine_ne_nil (by simpa [headerEnd] using hh)
    | some h =>
      rw [strstr_cstr_take hh, if_neg]
      have := hno h hh
      omega
  -- the stop condition never holds, so the loop ends with the buffer or with the stream
  obtain ⟨s', hfill, -, -⟩ := fill_exhausts length
    (fun b => (strstr doubleEndLine (cstr b)).isSome) length [] socket (by simp)
    (by simp)
    (fun n hn => by simpa using hnone n hn)
  simp only [List.nil_append] at hfill
  refine ⟨_, rfl, ?_, fun hlen => ?_, fun hlen => ?_⟩
  · rw [readUntilDoubleEndLine, readUntilLoop_eq_fill, hfill]
    rfl
  · have hnone' := hnone length le_rfl
    rw [readUntilDoubleEndLine, readUntilLoop_eq_fill, hfill, if_pos hlen]
    simpa [ReadUntil.ofFilled, hnone'] using hlen
  · rw [readUntilDoubleEndLine, readUntilLoop_eq_fill, hfill, if_neg (by omega)]
    cases he : socket.ending <;> simp [ReadUntil.ofFilled]

/-! ## The body -/

section Body

variable (junk : Nat → UInt8) {buffer : List UInt8} {extra n : Nat} (socket : ByteSource UInt8)

/-- The block of a body once the bytes that came with the header, if any, are copied. -/
private theorem extraBlock_spec (hlen : extra ≤ buffer.length) (n : Nat) :
    ∃ block, (if 0 < extra then
        (Block.malloc (n + 1) junk).store 0 (buffer.drop (buffer.length - extra))
      else Block.malloc (n + 1) junk) = block ∧
      block.size = n + 1 ∧ block.Holds 0 (buffer.drop (buffer.length - extra)) ∧
      (block.InBounds ↔ extra ≤ n + 1) := by
  have hxlen : (buffer.drop (buffer.length - extra)).length = extra := by
    simp only [List.length_drop]
    omega
  refine ⟨_, rfl, ?_⟩
  split
  · refine ⟨rfl, Block.holds_store_self _ _ _, ?_⟩
    rw [Block.inBounds_store_iff, hxlen]
    simp [Block.inBounds_malloc]
  · refine ⟨rfl, fun i hi => by omega, ?_⟩
    exact iff_of_true (Block.inBounds_malloc _ _) (by omega)

/-- A body of the extra bytes, what `recvall` stored behind them, and the terminator. -/
private theorem read_received {block : Block} {x y : List UInt8} (hx : block.Holds 0 x)
    (hn : x.length + y.length = n) :
    ((block.store x.length (y ++ [0])).store n [0]).read n = x ++ y := by
  have hxy : (block.store x.length (y ++ [0])).Holds 0 (x ++ y) := by
    have hstored := hx.concat (y ++ [0]) (Nat.zero_add _)
    rw [← List.append_assoc] at hstored
    exact hstored.left
  have hread := (hxy.store n [0] (Or.inl (by simp [hn]))).read
  rwa [List.length_append, hn] at hread

/-- When the extra bytes already hold the whole body, nothing is received. -/
theorem readBody_of_le (hlen : extra ≤ buffer.length) (h : n ≤ extra) :
    let b := readBody junk buffer extra n socket
    b.complete = true ∧ b.socket = socket ∧
      b.block.read n = (buffer.drop (buffer.length - extra)).take n ∧
      b.block.size = n + 1 ∧ (b.block.InBounds ↔ extra ≤ n + 1) := by
  obtain ⟨block, hblock, hsize, hhold, hin⟩ := extraBlock_spec junk hlen n
  have htaken : ((buffer.drop (buffer.length - extra)).take n).length = n := by
    simp only [List.length_take, List.length_drop]
    omega
  have hnlt : ¬ extra < n := by omega
  simp only [readBody, if_neg hnlt, hblock]
  refine ⟨trivial, trivial, ?_, hsize, ?_⟩
  · -- the terminator stands behind the first `n` bytes; the copy itself may be too long
    have hread := ((hhold.take n).store n [0] (Or.inl (by omega))).read
    rwa [htaken] at hread
  · rw [Block.inBounds_store_iff, hin, hsize]
    exact and_iff_left le_rfl

/-- Otherwise the rest is received; the attempt fails when nothing of it arrives. -/
theorem readBody_of_lt (hlen : extra ≤ buffer.length) (h : extra < n) :
    let b := readBody junk buffer extra n socket
    b.complete = decide (n - extra ≤ socket.bytes.length ∨
        (socket.ending = .closed ∧ socket.bytes ≠ [])) ∧
      b.socket.bytes = socket.bytes.drop (n - extra) ∧ b.socket.ending = socket.ending ∧
      (n - extra ≤ socket.bytes.length → b.block.read n =
        buffer.drop (buffer.length - extra) ++ socket.bytes.take (n - extra)) ∧
      b.block.size = n + 1 ∧ b.block.InBounds := by
  obtain ⟨s', hrecv, hbytes, hend⟩ := recvall_spec socket (n - extra)
  obtain ⟨block, hblock, hsize, hhold, hin⟩ := extraBlock_spec junk hlen n
  have hxlen : (buffer.drop (buffer.length - extra)).length = extra := by
    simp only [List.length_drop]
    omega
  simp only [readBody, if_pos h, hrecv, hblock]
  generalize hret : (if n - extra ≤ socket.bytes.length ∨ socket.ending = .closed then
    min ((n - extra : Nat) : Int) socket.bytes.length else -1) = ret
  -- the result is not positive when `recv` failed, or when nothing at all arrived
  have hretle : ret ≤ 0 ↔ ¬ (n - extra ≤ socket.bytes.length ∨
      (socket.ending = .closed ∧ socket.bytes ≠ [])) := by
    rw [← hret, ne_eq, ← List.length_eq_zero_iff]
    split <;> rename_i hc
    · rcases hc with hc | hc
      · simp only [hc, true_or, not_true, iff_false]; omega
      · simp only [hc, true_and]; omega
    · simp only [not_or] at hc
      simp [hc]
  -- whichever way `recvall` ended, its stores stay below the terminator of the body
  have hstores : (block.store extra (if ret < 0 then socket.bytes.take (n - extra)
      else socket.bytes.take (n - extra) ++ [0])).InBounds := by
    rw [Block.inBounds_store_iff, hsize]
    refine ⟨hin.mpr (by omega), ?_⟩
    split
    · simp only [List.length_take]; omega
    · simp only [List.length_append, List.length_take, List.length_singleton]; omega
  by_cases hle : ret ≤ 0
  · simp only [if_pos hle]
    refine ⟨by simpa using hretle.mp hle, hbytes, hend, ?_, by simp [hsize], hstores⟩
    exact fun hfull => absurd (Or.inl hfull) (hretle.mp hle)
  · simp only [if_neg hle]
    refine ⟨by simpa using not_not.mp (mt hretle.mpr hle), hbytes, hend, ?_, by simp [hsize], ?_⟩
    · intro hfull
      -- the bytes of `recvall` stand behind those that came with the header
      have hylen : (socket.bytes.take (n - extra)).length = n - extra := by
        simpa using hfull
      have hread := read_received hhold (by omega :
        (buffer.drop (buffer.length - extra)).length + (socket.bytes.take (n - extra)).length = n)
      rw [hxlen] at hread
      rwa [if_neg (by omega)]
    · rw [Block.inBounds_store_iff]
      exact ⟨hstores, by simp [hsize]⟩

end Body

/-! ## First lines -/

/-- The first line that is not empty; `[]` when there is none. -/
def firstLine (text : List UInt8) : List UInt8 :=
  (text.dropWhile (· ∈ crlf)).takeWhile (fun c => !decide (c ∈ crlf))

/-- The first `strtok` finds the first line. -/
theorem strtok_crlf_eq_none {text : List UInt8} (h : strtok crlf text = none) :
    firstLine text = [] := by
  unfold strtok at h
  split at h
  · rw [firstLine, ‹text.dropWhile _ = []›]
    rfl
  · cases h

theorem strtok_crlf_text {text : List UInt8} {tok : Token} (h : strtok crlf text = some tok) :
    tok.text = firstLine text := by
  unfold strtok at h
  split at h
  · cases h
  · obtain rfl := Option.some.inj h
    rw [firstLine, ‹text.dropWhile _ = _›]

theorem notMem_firstLine {text : List UInt8} {c : UInt8} (hc : c ∈ crlf) :
    c ∉ firstLine text := by
  intro hmem
  simpa [hc] using List.mem_takeWhile_imp hmem

/-- There are three arrays. -/
theorem fitsArrays_take (ws : List (List UInt8)) : FitsArrays (ws.take 3) ↔ FitsArrays ws := by
  rw [FitsArrays, FitsArrays]
  match ws with
  | [] => rfl
  | [_] => rfl
  | [_, _] => rfl
  | _ :: _ :: _ :: _ => simp

theorem fitsArrays_three {method uri version : List UInt8} :
    FitsArrays [method, uri, version] ↔
      method.length < methodSize ∧ uri.length < uriSize ∧ version.length < versionSize := by
  simp [FitsArrays]

theorem parseRequestLine_of_fits {line : List UInt8} (h : FitsArrays (words line)) :
    parseRequestLine line =
      match (words line).take 3 with
      | [method, uri, version] => .line ⟨method, uri, version⟩
      | _ => .rejected := by
  have hscan : FitsArrays (scanWords 3 line) := by
    rw [scanWords_eq]
    exact (fitsArrays_take _).mpr h
  have hparse : parseRequestLine line =
      match scanWords 3 line with
      | [method, uri, version] => .line ⟨method, uri, version⟩
      | _ => .rejected := if_pos hscan
  rw [hparse, scanWords_eq]

theorem parseRequestLine_eq_overrun_iff {line : List UInt8} :
    parseRequestLine line = .overrun ↔ ¬ FitsArrays (words line) := by
  by_cases hfits : FitsArrays (words line)
  · refine iff_of_false (fun h => ?_) (not_not_intro hfits)
    rw [parseRequestLine_of_fits hfits] at h
    split at h
    · cases h
    · cases h
  · refine iff_of_true ?_ hfits
    rw [parseRequestLine, if_neg]
    rw [scanWords_eq]
    exact fun h => hfits ((fitsArrays_take _).mp h)

/-- Three words in front that fit their arrays are a request line, whatever follows them. -/
theorem parseRequestLine_eq_line_iff {line : List UInt8} {l : RequestLine} :
    parseRequestLine line = .line l ↔
      FitsArrays (words line) ∧ (words line).take 3 = [l.method, l.uri, l.version] := by
  by_cases hfits : FitsArrays (words line)
  · rw [parseRequestLine_of_fits hfits, and_iff_right hfits]
    constructor
    · intro h
      split at h
      · obtain rfl := ParsedLine.line.inj h
        assumption
      · cases h
    · intro h
      rw [h]
  · refine iff_of_false (fun h => ?_) fun h => hfits h.1
    rw [parseRequestLine_eq_overrun_iff.mpr hfits] at h
    cases h

/-- The version of a status line fits its array, and where there is a reason phrase, so does
it. -/
structure FitsStatusArrays (line : List UInt8) : Prop where
  version : ∀ version ∈ scanWords 1 line, version.length < versionSize
  reasonPhrase : ∀ status reasonStart, scanStatus line = some status →
    ((strchr 32 line).bind fun reasonStart => strchr 32 (reasonStart.drop 1)) =
      some reasonStart → (reasonStart.drop 1).length < reasonPhraseSize

theorem parseResponseLine_eq_overrun_iff {line : List UInt8} :
    parseResponseLine line = .overrun ↔ ¬ FitsStatusArrays line := by
  rw [parseResponseLine]
  by_cases hversion : ∀ version ∈ scanWords 1 line, version.length < versionSize
  · rw [if_pos hversion]
    cases hstatus : scanStatus line with
    | none =>
      refine iff_of_false (by intro h; cases h) (not_not_intro ⟨hversion, ?_⟩)
      intro status reasonStart h
      rw [hstatus] at h
      cases h
    | some status =>
      cases hreason : (strchr 32 line).bind fun reasonStart =>
          strchr 32 (reasonStart.drop 1) with
      | none =>
        simp only
        refine iff_of_false (by intro h; cases h) (not_not_intro ⟨hversion, ?_⟩)
        intro status reasonStart _ h
        rw [hreason] at h
        cases h
      | some reasonStart =>
        simp only
        by_cases hlt : (reasonStart.drop 1).length < reasonPhraseSize
        · rw [if_pos hlt]
          refine iff_of_false (by intro h; cases h) (not_not_intro ⟨hversion, ?_⟩)
          intro _ reasonStart' _ h
          rw [hreason] at h
          obtain rfl := Option.some.inj h
          exact hlt
        · rw [if_neg hlt]
          exact iff_of_true rfl fun h => hlt (h.reasonPhrase status reasonStart hstatus hreason)
  · rw [if_neg hversion]
    exact iff_of_true rfl fun h => hversion h.version

/-! ## The deserialisers -/

/-- A header text that a deserialiser accepts: its first line parses, with words that fit
their arrays, it contains a blank line, and no allocation on the way fails. -/
structure AcceptsHead {L : Type} (parseLine : List UInt8 → ParsedLine L) (mem : DeserializeMemory)
    (text : List UInt8) : Prop where
  allocated : mem.message = true ∧ mem.tempBuffer = true ∧ mem.headersPart = true
  line : ∃ tok l, strtok crlf text = some tok ∧ parseLine tok.text = .line l
  block : ∃ p, strstr doubleEndLine text = some p ∧
    (deserializeHeaders mem.headers (text.take (p + 4))).headers.isSome

/-- The allocations in front of the first line succeed. -/
def DeserializeMemory.ReadsLine (mem : DeserializeMemory) : Prop :=
  mem.message = true ∧ mem.tempBuffer = true

/-- The deserialiser gets to a first line that does not fit its arrays. -/
def OverrunsLine {L : Type} (parseLine : List UInt8 → ParsedLine L) (mem : DeserializeMemory)
    (text : List UInt8) : Prop :=
  mem.ReadsLine ∧ ∃ tok, strtok crlf text = some tok ∧ parseLine tok.text = .overrun

section Deserialize

variable {L : Type} {parseLine : List UInt8 → ParsedLine L} {mem : DeserializeMemory}
  {text : List UInt8}

/-- An accepted text gives a message with line, headers and count assigned; the two body
fields are left to the caller. -/
theorem deserialize_of_accepts (h : AcceptsHead parseLine mem text) :
    ∃ tok l p, strtok crlf text = some tok ∧ parseLine tok.text = .line l ∧
      strstr doubleEndLine text = some p ∧
      deserializeHttpHeader parseLine mem text = .returned ⟨some l,
        some (some (headersOfText mem.headers.junk (text.take (p + 4)))),
        some (headersOfText mem.headers.junk (text.take (p + 4))).length, none, none⟩ := by
  obtain ⟨⟨h1, h2, h3⟩, ⟨tok, l, htok, hl⟩, ⟨p, hp, hheaders⟩⟩ := h
  obtain ⟨headers, hh⟩ := Option.isSome_iff_exists.mp hheaders
  obtain ⟨rfl, hcount⟩ := deserializeHeaders_some hh
  refine ⟨tok, l, p, htok, hl, hp, ?_⟩
  simp [deserializeHttpHeader, deserializeHeaderBlock, h1, h2, h3, htok, hl, hp, hh, hcount,
    RawMessage.fresh]

theorem deserialize_of_overruns (h : OverrunsLine parseLine mem text) :
    deserializeHttpHeader parseLine mem text = .fault .arrayOverrun := by
  obtain ⟨⟨hmessage, htemp⟩, tok, htok, hline⟩ := h
  simp [deserializeHttpHeader, hmessage, htemp, htok, hline]

/-- A text that is rejected without an overrun gives NULL, or the clean-up reads a field that
was never assigned. -/
theorem deserialize_of_not_accepts (h : ¬ AcceptsHead parseLine mem text)
    (hfits : ¬ OverrunsLine parseLine mem text) :
    deserializeHttpHeader parseLine mem text = .null ∨
      deserializeHttpHeader parseLine mem text = .fault .unassignedField := by
  unfold deserializeHttpHeader
  split
  · rename_i halloc
    rw [Bool.and_eq_true] at halloc
    split
    · exact Or.inl rfl
    · rename_i tok htok
      split
      · exact absurd ⟨halloc, tok, htok, ‹_›⟩ hfits
      · exact Or.inl rfl
      · -- the line is assigned from here on, the body is not: no clean-up succeeds
        rename_i l hl
        right
        unfold deserializeHeaderBlock
        simp only
        split
        · simp [freeAndReject, RawMessage.freeable, RawMessage.fresh]
        · rename_i p hp
          split
          · rename_i hpart
            split
            · simp [freeAndReject, RawMessage.freeable, RawMessage.fresh]
            · rename_i headers hh
              exact absurd ⟨⟨halloc.1, halloc.2, hpart⟩, ⟨tok, l, htok, hl⟩,
                ⟨p, hp, by simpa using Option.isSome_iff_exists.mpr ⟨_, hh⟩⟩⟩ h
          · simp [freeAndReject, RawMessage.freeable, RawMessage.fresh]
  · exact Or.inl rfl

/-- Whichever way a text is rejected, no message is made of it. -/
theorem deserialize_ne_returned (h : ¬ AcceptsHead parseLine mem text) (m : RawMessage L) :
    deserializeHttpHeader parseLine mem text ≠ .returned m := by
  intro hm
  by_cases hover : OverrunsLine parseLine mem text
  · rw [deserialize_of_overruns hover] at hm
    cases hm
  · obtain hd | hd := deserialize_of_not_accepts h hover
    · rw [hd] at hm
      cases hm
    · rw [hd] at hm
      cases hm

/-- Which lines overrun the arrays is a matter of the first line alone. -/
private theorem not_overrunsLine_iff {Fits : List UInt8 → Prop} (hnil : Fits [])
    (hline : ∀ line, parseLine line = .overrun ↔ ¬ Fits line) :
    ¬ OverrunsLine parseLine mem text ↔ (mem.ReadsLine → Fits (firstLine text)) := by
  cases htok : strtok crlf text with
  | none =>
    refine iff_of_true ?_ fun _ => by rwa [strtok_crlf_eq_none htok]
    rintro ⟨-, tok, htok', -⟩
    rw [htok] at htok'
    cases htok'
  | some tok =>
    rw [← strtok_crlf_text htok]
    constructor
    · intro h hreads
      by_contra hfits
      exact h ⟨hreads, tok, htok, (hline _).mpr hfits⟩
    · rintro h ⟨hreads, tok', htok', hover⟩
      obtain rfl := Option.some.inj (htok.symm.trans htok')
      exact (hline _).mp hover (h hreads)

theorem not_overrunsLine_request_iff :
    ¬ OverrunsLine parseRequestLine mem text ↔
      (mem.ReadsLine → FitsArrays (words (firstLine text))) :=
  not_overrunsLine_iff (by decide +kernel : FitsArrays (words [])) fun _ =>
    parseRequestLine_eq_overrun_iff

theorem not_overrunsLine_response_iff :
    ¬ OverrunsLine parseResponseLine mem text ↔
      (mem.ReadsLine → FitsStatusArrays (firstLine text)) := by
  refine not_overrunsLine_iff ⟨by decide, ?_⟩ fun _ => parseResponseLine_eq_overrun_iff
  intro status _ h
  cases h

/-- The body length a header text announces: the positive `Content-Length` of the message
the deserialiser makes of it. -/
def declaredBody {L : Type} (parseLine : List UInt8 → ParsedLine L) (mem : DeserializeMemory)
    (text : List UInt8) : Option Nat :=
  match deserializeHttpHeader parseLine mem text with
  | .returned ⟨_, some (some headers), _, _, _⟩ =>
    if 0 < contentLength headers then some (contentLength headers).toNat else none
  | _ => none

theorem contentLength_lt (headers : List Header) : contentLength headers < 2 ^ 31 := by
  unfold contentLength
  split
  · norm_num
  · exact (toInt32_bounds _).2

end Deserialize

/-! ## The receive functions -/

/-- The header text the deserialiser is given, when the header reader reports a positive
size. -/
def headerText (socket : ByteSource UInt8) : Option (List UInt8) :=
  match headerEnd socket.bytes with
  | some h =>
    if h ≤ defaultBufferSize then some (headText socket h)
    else some (cstr (socket.bytes.take defaultBufferSize))
  | none =>
    if defaultBufferSize ≤ socket.bytes.length then
      some (cstr (socket.bytes.take defaultBufferSize))
    else none

/-- The header text has a blank line only when one lies within the buffer. -/
theorem headerText_of_blankLine {socket : ByteSource UInt8} {text : List UInt8}
    (ht : headerText socket = some text) (hb : strstr doubleEndLine text ≠ none) :
    ∃ h, headerEnd socket.bytes = some h ∧ h ≤ defaultBufferSize ∧ text = headText socket h := by
  unfold headerText at ht
  split at ht
  · rename_i h hh
    split at ht
    · exact ⟨h, hh, ‹_›, by simpa using ht.symm⟩
    · simp only [Option.some.injEq] at ht
      subst ht
      rw [strstr_cstr_take hh, if_neg ‹_›] at hb
      exact absurd rfl hb
  · rename_i hh
    split at ht
    · simp only [Option.some.injEq] at ht
      subst ht
      rw [cstr_take] at hb
      exact absurd (strstr_take_of_none _ doubleEndLine_ne_nil
        (by simpa [headerEnd] using hh)) hb
    · simp at ht

section Receive

variable {L : Type} {parseLine : List UInt8 → ParsedLine L} {mem : ReceiveMemory}
  {socket : ByteSource UInt8}

/-- When the header reader reports no positive size, the result is NULL. -/
theorem receive_of_no_text (parseLine : List UInt8 → ParsedLine L)
    (h : mem.buffer = true → headerText socket = none) :
    (receiveHttpMessage (deserializeHttpHeader parseLine) mem socket).outcome = .null ∧
      (receiveHttpMessage (deserializeHttpHeader parseLine) mem socket).block = none := by
  unfold receiveHttpMessage
  split
  · rename_i hbuf
    have hnone := h hbuf
    unfold headerText at hnone
    split at hnone
    · split at hnone <;> simp at hnone
    · rename_i hh
      split at hnone
      · simp at hnone
      · obtain ⟨r, hr, -, -, hshort⟩ := readUntil_of_lt defaultBufferSize socket
          (by simp [hh])
        simp [hr, hshort (by omega)]
  · exact ⟨rfl, rfl⟩

/-- A positive size comes from a blank line, or from a buffer that is full without one. -/
theorem readUntil_of_text {text : List UInt8} (ht : headerText socket = some text) :
    ∃ r, readUntilDoubleEndLine socket defaultBufferSize = r ∧ 0 < r.ret ∧
      cstr r.buffer = text := by
  unfold headerText at ht
  split at ht
  · rename_i h hh
    split at ht
    · obtain ⟨s', hr, -⟩ := readUntil_found hh ‹_›
      have := (four_le_of_headerEnd hh).1
      refine ⟨_, hr, ?_, by simpa [headText] using ht⟩
      simp only [arrived]
      omega
    · have hlen := (four_le_of_headerEnd hh).2
      obtain ⟨r, hr, hbuffer, hfull, -⟩ := readUntil_of_lt defaultBufferSize socket
        (by simp only [hh, Option.some.injEq]; omega)
      have hret := (hfull (by omega)).1
      exact ⟨r, hr, by simp [hret, defaultBufferSize], by simpa [hbuffer] using ht⟩
  · rename_i hh
    split at ht
    · obtain ⟨r, hr, hbuffer, hfull, -⟩ := readUntil_of_lt defaultBufferSize socket
        (by simp [hh])
      have hret := (hfull ‹_›).1
      exact ⟨r, hr, by simp [hret, defaultBufferSize], by simpa [hbuffer] using ht⟩
    · simp at ht

/-- A text the deserialiser rejects leads to a fault: the receive function goes on with the
NULL message, or the deserialiser has already failed. The arrays are overrun if the first line
does not fit them. -/
theorem receive_of_not_accepts (hbuf : mem.buffer = true) {text : List UInt8}
    (ht : headerText socket = some text) (hrej : ¬ AcceptsHead parseLine mem.message text) :
    (∃ f, (receiveHttpMessage (deserializeHttpHeader parseLine) mem socket).outcome = .fault f ∧
        (f = .arrayOverrun ↔ OverrunsLine parseLine mem.message text)) ∧
      (receiveHttpMessage (deserializeHttpHeader parseLine) mem socket).block = none := by
  obtain ⟨r, hr, hpos, rfl⟩ := readUntil_of_text ht
  have hnle : ¬ r.ret ≤ 0 := by omega
  by_cases hover : OverrunsLine parseLine mem.message (cstr r.buffer)
  · simp [receiveHttpMessage, hbuf, hr, hnle, deserialize_of_overruns hover, hover]
  · obtain hd | hd := deserialize_of_not_accepts hrej hover
    · simp [receiveHttpMessage, hbuf, hr, hnle, hd, hover]
    · simp [receiveHttpMessage, hbuf, hr, hnle, hd, hover]

/-- The blank line found in the text is the one that ends the header block. -/
theorem blankLine_headText {h p : Nat} (hh : headerEnd socket.bytes = some h)
    (hp : strstr doubleEndLine (headText socket h) = some p) : p + 4 = h := by
  have hfound := strstr_cstr_take hh (arrived socket h)
  rw [if_pos (by unfold arrived; omega), ← headText, hp, Option.some.injEq] at hfound
  have := (four_le_of_headerEnd hh).1
  omega

/-- A text the deserialiser accepts is followed by the body, read from the extra bytes in
the buffer and from what the stream delivers behind them. -/
theorem receive_of_accepts (hbuf : mem.buffer = true) {h : Nat}
    (hh : headerEnd socket.bytes = some h) (hle : h ≤ defaultBufferSize)
    (hacc : AcceptsHead parseLine mem.message (headText socket h)) :
    ∃ tok l headers socket', strtok crlf (headText socket h) = some tok ∧
      parseLine tok.text = .line l ∧
      headers = headersOfText mem.message.headers.junk ((headText socket h).take h) ∧
      receiveHttpMessage (deserializeHttpHeader parseLine) mem socket =
        receiveBody mem ⟨arrived socket h, arrived socket h - h,
          socket.bytes.take (arrived socket h), socket'⟩
          ⟨some l, some (some headers), some headers.length, none, none⟩ headers ∧
      declaredBody parseLine mem.message (headText socket h) =
        (if 0 < contentLength headers then some (contentLength headers).toNat else none) ∧
      socket'.bytes = socket.bytes.drop (arrived socket h) ∧ socket'.ending = socket.ending ∧
      arrived socket h ≤ socket.bytes.length := by
  obtain ⟨s', hr, hbytes, hend, harr⟩ := readUntil_found hh hle
  obtain ⟨tok, l, p, htok, hl, hp, hd⟩ := deserialize_of_accepts hacc
  have hpos : ¬ ((arrived socket h : Nat) : Int) ≤ 0 := by
    have := (four_le_of_headerEnd hh).1
    unfold arrived
    omega
  rw [blankLine_headText hh hp] at hd
  refine ⟨tok, l, _, s', htok, hl, rfl, ?_, ?_, hbytes, hend, harr⟩
  · rw [headText] at hd
    simp only [receiveHttpMessage, hbuf, if_true, hr, if_neg hpos, hd, headText]
  · simp only [declaredBody, hd]

/-- Without an announced body the message is returned as soon as its header is complete. -/
theorem receive_noBody (hbuf : mem.buffer = true) {h : Nat}
    (hh : headerEnd socket.bytes = some h) (hle : h ≤ defaultBufferSize)
    (hacc : AcceptsHead parseLine mem.message (headText socket h))
    (hd : declaredBody parseLine mem.message (headText socket h) = none) :
    ∃ tok l headers socket', strtok crlf (headText socket h) = some tok ∧
      parseLine tok.text = .line l ∧
      headers = headersOfText mem.message.headers.junk ((headText socket h).take h) ∧
      receiveHttpMessage (deserializeHttpHeader parseLine) mem socket =
        ⟨.returned (HTTPMessage.raw ⟨l, headers, none, contentLength headers⟩), socket', none⟩ ∧
      contentLength headers ≤ 0 ∧ socket'.bytes = socket.bytes.drop (arrived socket h) ∧
      socket'.ending = socket.ending := by
  obtain ⟨tok, l, headers, s', htok, hl, hheaders, hr, hdecl, hbytes, hend, -⟩ :=
    receive_of_accepts hbuf hh hle hacc
  have hnpos : ¬ 0 < contentLength headers := by
    intro hpos
    rw [hd, if_pos hpos] at hdecl
    simp at hdecl
  refine ⟨tok, l, headers, s', htok, hl, hheaders, ?_, by omega, hbytes, hend⟩
  rw [hr]
  simp only [receiveBody, if_neg hnpos, HTTPMessage.raw]

/-- A block for the announced body is allocated unless `malloc` fails or its size does not
fit `int`. -/
def BodyAllocated (mem : ReceiveMemory) (n : Nat) : Prop := mem.body = true ∧ n + 1 < 2 ^ 31

private theorem bodyAllocated_iff {mem : ReceiveMemory} {headers : List Header} {n : Nat}
    (hn : contentLength headers = n) :
    (mem.body = true ∧ 0 < toInt32 (contentLength headers + 1)) ↔ BodyAllocated mem n := by
  have hlt := contentLength_lt headers
  rw [hn] at hlt ⊢
  refine and_congr_right fun _ => ⟨fun hpos => ?_, fun hlt' => ?_⟩
  · -- the one length whose successor wraps around is the largest `int`
    by_contra hge
    have : (n : Int) + 1 = 2 ^ 31 := by omega
    rw [this] at hpos
    exact absurd hpos (by decide)
  · rw [toInt32_eq_self (by omega) (by omega)]
    omega

private theorem declaredBody_eq_some {headers : List Header} {n : Nat}
    (h : (if 0 < contentLength headers then some (contentLength headers).toNat else none) =
      some n) : contentLength headers = n ∧ 0 < n := by
  split at h
  · simp only [Option.some.injEq] at h
    omega
  · simp at h

theorem receive_noBlock (hbuf : mem.buffer = true) {h n : Nat}
    (hh : headerEnd socket.bytes = some h) (hle : h ≤ defaultBufferSize)
    (hacc : AcceptsHead parseLine mem.message (headText socket h))
    (hd : declaredBody parseLine mem.message (headText socket h) = some n)
    (halloc : ¬ BodyAllocated mem n) :
    (receiveHttpMessage (deserializeHttpHeader parseLine) mem socket).outcome = .null ∧
      (receiveHttpMessage (deserializeHttpHeader parseLine) mem socket).block = none := by
  obtain ⟨tok, l, headers, s', -, -, -, hr, hdecl, -, -, -⟩ :=
    receive_of_accepts hbuf hh hle hacc
  obtain ⟨hn, hpos⟩ := declaredBody_eq_some (hdecl.symm.trans hd)
  rw [hr, receiveBody]
  simp only [if_pos (by omega : 0 < contentLength headers),
    if_neg (mt (bodyAllocated_iff hn).mp halloc), freeAndReject, RawMessage.freeable]
  exact ⟨rfl, trivial⟩

/-- An announced body of `n` bytes: it is complete when the stream has `n` bytes behind the
header block, and it also counts as complete when the peer closes after some byte behind
those read with the header. -/
theorem receive_body (hbuf : mem.buffer = true) {h n : Nat}
    (hh : headerEnd socket.bytes = some h) (hle : h ≤ defaultBufferSize)
    (hacc : AcceptsHead parseLine mem.message (headText socket h))
    (hd : declaredBody parseLine mem.message (headText socket h) = some n)
    (halloc : BodyAllocated mem n) :
    ∃ tok l headers socket' block, strtok crlf (headText socket h) = some tok ∧
      parseLine tok.text = .line l ∧
      headers = headersOfText mem.message.headers.junk ((headText socket h).take h) ∧
      contentLength headers = n ∧ 0 < n ∧
      receiveHttpMessage (deserializeHttpHeader parseLine) mem socket =
        ⟨if h + n ≤ socket.bytes.length ∨
            (socket.ending = .closed ∧ arrived socket h < socket.bytes.length)
          then .returned (HTTPMessage.raw ⟨l, headers, some (block.read n), n⟩) else .null,
          socket', some block⟩ ∧
      (h + n ≤ socket.bytes.length → block.read n = (socket.bytes.drop h).take n) ∧
      block.size = n + 1 ∧ (block.InBounds ↔ arrived socket h ≤ h + n + 1) ∧
      socket'.bytes = socket.bytes.drop (max (arrived socket h) (h + n)) ∧
      socket'.ending = socket.ending := by
  obtain ⟨tok, l, headers, s', htok, hl, hheaders, hr, hdecl, hbytes, hend, harr⟩ :=
    receive_of_accepts hbuf hh hle hacc
  obtain ⟨hn, hpos⟩ := declaredBody_eq_some (hdecl.symm.trans hd)
  -- what has arrived with the header is the beginning of the body
  have hge : h ≤ arrived socket h := by
    unfold arrived
    omega
  have hlen : (socket.bytes.take (arrived socket h)).length = arrived socket h := by
    simpa using harr
  have hextra : (socket.bytes.take (arrived socket h)).drop
      ((socket.bytes.take (arrived socket h)).length - (arrived socket h - h)) =
      (socket.bytes.drop h).take (arrived socket h - h) := by
    rw [hlen, show arrived socket h - (arrived socket h - h) = h by omega, List.drop_take]
  -- the size of the block is an `int` and its `malloc` succeeds
  have hcond := (bodyAllocated_iff hn).mpr halloc
  rw [hn] at hcond
  have hposn : (0 : Int) < n := by omega
  have hrest : s'.bytes.length = socket.bytes.length - arrived socket h := by
    rw [hbytes, List.length_drop]
  rw [hr]
  generalize hbuffer : socket.bytes.take (arrived socket h) = buffer at hlen hextra
  by_cases hfull : n ≤ arrived socket h - h
  · -- all of the body came with the header
    obtain ⟨hcomplete, hsock, hread, hsize, hin⟩ := readBody_of_le mem.junk s'
      (by omega : arrived socket h - h ≤ buffer.length) hfull
    refine ⟨tok, l, headers, s', _, htok, hl, hheaders, hn, hpos, ?_, fun _ => ?_, hsize,
      by rw [hin]; omega, ?_, hend⟩
    · rw [if_pos (Or.inl (by omega))]
      simp only [receiveBody, hn, if_pos hposn, if_pos hcond, Int.toNat_natCast, hcomplete, hsock,
        if_true, HTTPMessage.raw]
    · rw [hread, hextra, List.take_take]
      congr 1
      omega
    · rw [hbytes]
      congr 1
      omega
  · -- `recvall` is asked for the rest
    obtain ⟨hcomplete, hsock, hend', hread, hsize, hin⟩ := readBody_of_lt mem.junk s'
      (by omega : arrived socket h - h ≤ buffer.length) (by omega : _ < n)
    -- the bytes that are left in the stream, counted from its beginning
    have hcomplete' : (readBody mem.junk buffer (arrived socket h - h) n s').complete =
        decide (h + n ≤ socket.bytes.length ∨
          (socket.ending = .closed ∧ arrived socket h < socket.bytes.length)) := by
      rw [hcomplete, hend]
      refine decide_eq_decide.mpr (or_congr (by omega) (and_congr_right fun _ => ?_))
      rw [ne_eq, ← List.length_eq_zero_iff]
      omega
    refine ⟨tok, l, headers, _, _, htok, hl, hheaders, hn, hpos, ?_, fun hc => ?_, hsize,
      iff_of_true hin (by omega), ?_, hend'.trans hend⟩
    · simp only [receiveBody, hn, if_pos hposn, if_pos hcond, Int.toNat_natCast, hcomplete',
        freeAndReject, RawMessage.freeable, HTTPMessage.raw, decide_eq_true_eq,
        Option.isSome_some, Bool.and_self, if_true]
    · rw [hread (by omega), hextra, hbytes, show socket.bytes.drop (arrived socket h) =
        (socket.bytes.drop h).drop (arrived socket h - h) by
          rw [List.drop_drop]; congr 1; omega]
      rw [← List.take_add]
      congr 1
      omega
    · rw [hsock, hbytes, List.drop_drop]
      congr 1
      omega

/-- The three ways a call goes: no header text, a rejected one, an accepted one. -/
theorem receive_trichotomy (parseLine : List UInt8 → ParsedLine L) (mem : ReceiveMemory)
    (socket : ByteSource UInt8) :
    (mem.buffer = true → headerText socket = none) ∨
      (mem.buffer = true ∧ ∃ text, headerText socket = some text ∧
        ¬ AcceptsHead parseLine mem.message text) ∨
      (mem.buffer = true ∧ ∃ h, headerEnd socket.bytes = some h ∧ h ≤ defaultBufferSize ∧
        headerText socket = some (headText socket h) ∧
        AcceptsHead parseLine mem.message (headText socket h)) := by
  by_cases hbuf : mem.buffer = true
  · cases ht : headerText socket with
    | none => exact Or.inl fun _ => rfl
    | some text =>
      by_cases hacc : AcceptsHead parseLine mem.message text
      · obtain ⟨p, hp, -⟩ := hacc.block
        obtain ⟨h, hh, hle, rfl⟩ := headerText_of_blankLine ht (by simp [hp])
        exact Or.inr (Or.inr ⟨hbuf, h, hh, hle, rfl, hacc⟩)
      · exact Or.inr (Or.inl ⟨hbuf, text, rfl, hacc⟩)
  · exact Or.inl fun hb => absurd hb hbuf

theorem headerText_of_le {h : Nat} (hh : headerEnd socket.bytes = some h)
    (hle : h ≤ defaultBufferSize) : headerText socket = some (headText socket h) := by
  simp [headerText, hh, hle]

theorem declaredBody_of_not_accepts {mem : DeserializeMemory} {text : List UInt8}
    (h : ¬ AcceptsHead parseLine mem text) : declaredBody parseLine mem text = none := by
  unfold declaredBody
  split
  · exact absurd ‹_› (deserialize_ne_returned h _)
  · rfl

/-- Whatever the body, an accepted text gives NULL or a complete message. -/
theorem receive_outcome_of_accepts (hbuf : mem.buffer = true) {text : List UInt8}
    (ht : headerText socket = some text) (hacc : AcceptsHead parseLine mem.message text) :
    (receiveHttpMessage (deserializeHttpHeader parseLine) mem socket).outcome = .null ∨
      ∃ m : HTTPMessage L,
        (receiveHttpMessage (deserializeHttpHeader parseLine) mem socket).outcome =
          .returned m.raw := by
  obtain ⟨p, hp, -⟩ := hacc.block
  obtain ⟨h, hh, hle, rfl⟩ := headerText_of_blankLine ht (by simp [hp])
  cases hd : declaredBody parseLine mem.message (headText socket h) with
  | none =>
    obtain ⟨_, _, _, _, -, -, -, hr, -⟩ := receive_noBody hbuf hh hle hacc hd
    exact Or.inr ⟨_, by rw [hr]⟩
  | some n =>
    by_cases halloc : BodyAllocated mem n
    · obtain ⟨_, _, _, _, _, -, -, -, -, -, hr, -⟩ :=
        receive_body hbuf hh hle hacc hd halloc
      rw [hr]
      simp only
      split
      · exact Or.inr ⟨_, rfl⟩
      · exact Or.inl rfl
    · exact Or.inl (receive_noBlock hbuf hh hle hacc hd halloc).1

/-- An accepted text stays inside the arrays. -/
theorem receive_inArrays_of_accepts (hbuf : mem.buffer = true) {text : List UInt8}
    (ht : headerText socket = some text) (hacc : AcceptsHead parseLine mem.message text) :
    (receiveHttpMessage (deserializeHttpHeader parseLine) mem socket).outcome ≠
      .fault .arrayOverrun := by
  intro hf
  obtain hnull | ⟨m, hm⟩ := receive_outcome_of_accepts hbuf ht hacc
  · rw [hnull] at hf
    cases hf
  · rw [hm] at hf
    cases hf

/-- The arrays are overrun exactly by a header text whose first line does not fit them. -/
theorem receive_overrun_iff (hbuf : mem.buffer = true) {text : List UInt8}
    (ht : headerText socket = some text) :
    (receiveHttpMessage (deserializeHttpHeader parseLine) mem socket).outcome =
        .fault .arrayOverrun ↔ OverrunsLine parseLine mem.message text := by
  by_cases hacc : AcceptsHead parseLine mem.message text
  · obtain ⟨tok, l, htok, hl⟩ := hacc.line
    refine iff_of_false (receive_inArrays_of_accepts hbuf ht hacc) ?_
    rintro ⟨-, tok', htok', hover⟩
    obtain rfl := Option.some.inj (htok.symm.trans htok')
    rw [hl] at hover
    cases hover
  · obtain ⟨⟨f, hf, hiff⟩, -⟩ := receive_of_not_accepts hbuf ht hacc
    rw [hf, ← hiff, Outcome.fault.injEq]

end Receive

end SelectServer
