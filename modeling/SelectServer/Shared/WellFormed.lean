import SelectServer.Shared.ReceiveSpec

/-!
# Receiving well-formed messages

A well-formed head is a first line without colon followed by well-formed headers. When the
stream starts with one, the receive functions return exactly its headers, and as body the
announced number of bytes behind it, for every segmentation (`receive_headBlock`).

The segmentation shows in what is left on the stream: the bytes read beyond the body are
gone.
-/

namespace SelectServer

open CLib

/-! ## Well-formed heads -/

/-- A header whose key has no colon, CR, LF or NUL, and whose value has no CR, LF or NUL. -/
structure Header.WellFormed (h : Header) : Prop where
  key : ∀ c ∈ h.key, c ≠ 58 ∧ c ≠ 13 ∧ c ≠ 10 ∧ c ≠ 0
  value : ∀ c ∈ h.value, c ≠ 13 ∧ c ≠ 10 ∧ c ≠ 0

/-- The line of a header, without its line ending. -/
def Header.line (h : Header) : List UInt8 := h.key ++ 58 :: 32 :: h.value

/-- The text of a head: first line, headers, empty line. -/
def headBlock (first : List UInt8) (headers : List Header) : List UInt8 :=
  lineBlock (first :: headers.map Header.line)

theorem Header.text_eq_line (h : Header) : h.text = h.line ++ crlf := by
  have hsep : keyValueSeparator = [58, 32] := by decide
  have hend : lineEnding = crlf := by decide
  simp [Header.text, Header.line, hsep, hend]

/-- The text that the serialisers build is a head block. -/
theorem headBlock_eq (first : List UInt8) (headers : List Header) :
    headBlock first headers =
      first ++ lineEnding ++ headersText headers ++ lineEnding := by
  have hend : lineEnding = crlf := by decide
  have hflat : (headers.map Header.line).flatMap (· ++ crlf) = headers.flatMap Header.text := by
    rw [List.flatMap_map]
    exact List.flatMap_congr fun h _ => h.text_eq_line.symm
  simp [headBlock, lineBlock, headersText, hend, hflat]

theorem Header.WellFormed.isLine {h : Header} (hw : h.WellFormed) : IsLine h.line := by
  refine ⟨by simp [Header.line], ?_, ?_, ?_⟩ <;>
    simp only [Header.line, List.mem_append, List.mem_cons, not_or] <;>
    refine ⟨fun hm => ?_, by decide, by decide, fun hm => ?_⟩
  · exact (hw.key _ hm).2.1 rfl
  · exact (hw.value _ hm).1 rfl
  · exact (hw.key _ hm).2.2.1 rfl
  · exact (hw.value _ hm).2.1 rfl
  · exact (hw.key _ hm).2.2.2 rfl
  · exact (hw.value _ hm).2.2 rfl

/-- A header line is parsed back, wherever it stands. -/
theorem Header.WellFormed.headerOfLine {h : Header} (hw : h.WellFormed) (junk : List UInt8)
    (tail : Option (List UInt8)) : headerOfLine junk ⟨h.line, tail⟩ = some h := by
  have hcolon : 58 ∉ h.key := fun hm => (hw.key _ hm).1 rfl
  have hkey : (h.key ++ 58 :: 32 :: h.value).takeWhile (· != 58) = h.key := by
    rw [List.takeWhile_append_of_pos]
    · simp
    · intro c hc
      simpa using (hw.key c hc).1
  have hzero : 0 ∉ h.value := fun hm => (hw.value _ hm).2.2 rfl
  simp [SelectServer.headerOfLine, Header.line, strchr_append_cons hcolon, hkey,
    cstr_append hzero]

theorem headerOfLine_of_notMem {l : List UInt8} (h : 58 ∉ l) (junk : List UInt8)
    (tail : Option (List UInt8)) : headerOfLine junk ⟨l, tail⟩ = none := by
  simp [headerOfLine, strchr_eq_none h]

private theorem headersOfText_lines {headers : List Header} (h : ∀ x ∈ headers, x.WellFormed)
    (junk : List UInt8) : headersOfText junk (lineBlock (headers.map Header.line)) = headers := by
  induction headers with
  | nil => simp [headersOfText, show tokens crlf crlf = [] from tokens_lineBlock_nil]
  | cons x xs ih =>
    have hx := h x List.mem_cons_self
    have hxs := ih fun y hy => h y (List.mem_cons_of_mem _ hy)
    simp only [headersOfText] at hxs ⊢
    rw [List.map_cons, tokens_lineBlock_cons hx.isLine, List.filterMap_cons,
      hx.headerOfLine, hxs]

/-- The headers of a head block are the ones it was made of. -/
theorem headersOfText_headBlock {first : List UInt8} {headers : List Header}
    (hfirst : IsLine first) (hcolon : 58 ∉ first) (h : ∀ x ∈ headers, x.WellFormed)
    (junk : List UInt8) : headersOfText junk (headBlock first headers) = headers := by
  have hlines := headersOfText_lines h junk
  simp only [headersOfText, headBlock] at hlines ⊢
  -- the parser is given the first line too, and skips it for want of a colon
  rw [tokens_lineBlock_cons hfirst, List.filterMap_cons, headerOfLine_of_notMem hcolon, hlines]

/-! ## Receiving them -/

section Lines

variable {L : Type} {parseLine : List UInt8 → ParsedLine L} {mem : ReceiveMemory}
  {socket : ByteSource UInt8} {first t : List UInt8} {lines : List (List UInt8)} {l : L}

theorem four_le_length_lineBlock (hfirst : first ≠ []) (lines : List (List UInt8)) :
    4 ≤ (lineBlock (first :: lines)).length := by
  have hpos := List.length_pos_iff.mpr hfirst
  have hlen := two_le_length_lineBlock lines
  rw [length_lineBlock_cons]
  omega

/-- The header block of a stream that starts with a block of lines ends with it. -/
theorem headerEnd_lineBlock (h : ∀ x ∈ first :: lines, IsLine x)
    (hs : socket.bytes = lineBlock (first :: lines) ++ t) :
    headerEnd socket.bytes = some (lineBlock (first :: lines)).length := by
  have hfour := four_le_length_lineBlock (h first List.mem_cons_self).ne_nil lines
  rw [headerEnd, hs, cstr_append (zero_notMem_lineBlock h), strstr_lineBlock (by simp) h,
    Option.map_some]
  congr 1
  omega

theorem headText_lineBlock (h : ∀ x ∈ first :: lines, IsLine x)
    (hs : socket.bytes = lineBlock (first :: lines) ++ t) :
    ∃ t', headText socket (lineBlock (first :: lines)).length =
      lineBlock (first :: lines) ++ t' := by
  -- the read that completes the head may bring more, of which the C string keeps a prefix
  refine ⟨cstr (t.take (arrived socket (lineBlock (first :: lines)).length -
    (lineBlock (first :: lines)).length)), ?_⟩
  rw [headText, hs, List.take_append, List.take_of_length_le (by unfold arrived; omega),
    cstr_append (zero_notMem_lineBlock h)]

theorem accepts_lineBlock (hmem : mem.message.Succeeds) (h : ∀ x ∈ first :: lines, IsLine x)
    (hparse : parseLine first = .line l) (hs : socket.bytes = lineBlock (first :: lines) ++ t) :
    AcceptsHead parseLine mem.message
      (headText socket (lineBlock (first :: lines)).length) := by
  obtain ⟨h1, h2, h3, h4⟩ := hmem
  obtain ⟨t', ht'⟩ := headText_lineBlock h hs
  rw [ht']
  refine ⟨⟨h1, h2, h3⟩,
    ⟨_, l, strtok_lineBlock_cons (h first List.mem_cons_self) _ t', hparse⟩,
    ⟨_, strstr_lineBlock (by simp) h t', ?_⟩⟩
  rw [deserializeHeaders_ok h4]
  rfl

end Lines

section

variable {L : Type} {parseLine : List UInt8 → ParsedLine L} {mem : ReceiveMemory}
  {socket : ByteSource UInt8} {first t : List UInt8} {headers : List Header} {l : L}

private theorem isLine_head (hfirst : IsLine first) (hw : ∀ x ∈ headers, x.WellFormed) :
    ∀ x ∈ first :: headers.map Header.line, IsLine x := by
  intro x hx
  rcases List.mem_cons.mp hx with rfl | hx
  · exact hfirst
  · obtain ⟨h, hh, rfl⟩ := List.mem_map.mp hx
    exact (hw h hh).isLine

theorem four_le_length_headBlock (hfirst : IsLine first) (headers : List Header) :
    4 ≤ (headBlock first headers).length :=
  four_le_length_lineBlock hfirst.ne_nil _

theorem cstr_headBlock_append (hfirst : IsLine first) (hw : ∀ x ∈ headers, x.WellFormed)
    (t : List UInt8) :
    cstr (headBlock first headers ++ t) = headBlock first headers ++ cstr t :=
  cstr_append (zero_notMem_lineBlock (isLine_head hfirst hw)) t

theorem strstr_headBlock_append (hfirst : IsLine first) (hw : ∀ x ∈ headers, x.WellFormed)
    (t : List UInt8) : strstr doubleEndLine (headBlock first headers ++ t) =
      some ((headBlock first headers).length - 4) :=
  strstr_lineBlock (by simp) (isLine_head hfirst hw) t

/-- A stream that starts with a well-formed head and an announced body of `n` bytes gives
exactly that message. What the reads took beyond the body is no longer on the stream. -/
theorem receive_headBlock (hmem : mem.Succeeds) (hfirst : IsLine first) (hcolon : 58 ∉ first)
    (hw : ∀ x ∈ headers, x.WellFormed) (hparse : parseLine first = .line l)
    (hs : socket.bytes = headBlock first headers ++ t)
    (hlen : (headBlock first headers).length ≤ defaultBufferSize) {n : Nat}
    (hn : contentLength headers = n) (hlt : n + 1 < 2 ^ 31) (ht : n ≤ t.length) :
    (receiveHttpMessage (deserializeHttpHeader parseLine) mem socket).outcome =
        .returned (HTTPMessage.raw ⟨l, headers, if n = 0 then none else some (t.take n), n⟩) ∧
      (receiveHttpMessage (deserializeHttpHeader parseLine) mem socket).socket.bytes =
        t.drop (max (arrived socket (headBlock first headers).length -
          (headBlock first headers).length) n) ∧
      (receiveHttpMessage (deserializeHttpHeader parseLine) mem socket).socket.ending =
        socket.ending := by
  have hlines := isLine_head hfirst hw
  have hh : headerEnd socket.bytes = some (headBlock first headers).length :=
    headerEnd_lineBlock hlines hs
  have hacc : AcceptsHead parseLine mem.message
      (headText socket (headBlock first headers).length) :=
    accepts_lineBlock hmem.2.1 hlines hparse hs
  obtain ⟨t', ht'⟩ : ∃ t', headText socket (headBlock first headers).length =
      headBlock first headers ++ t' := headText_lineBlock hlines hs
  have hline : ∀ tok l', strtok crlf (headText socket (headBlock first headers).length) =
      some tok → parseLine tok.text = .line l' → l' = l := by
    intro tok l' htok hl'
    rw [ht', headBlock, strtok_lineBlock_cons hfirst] at htok
    obtain rfl := Option.some.inj htok
    simpa [hparse] using hl'.symm
  have hheaders : headersOfText mem.message.headers.junk
      ((headText socket (headBlock first headers).length).take
        (headBlock first headers).length) = headers := by
    rw [ht', List.take_left, headersOfText_headBlock hfirst hcolon hw]
  -- what is left of the stream is counted from the end of the head
  have hdrop : ∀ k, (headBlock first headers).length ≤ k → socket.bytes.drop k =
      t.drop (k - (headBlock first headers).length) := by
    intro k hk
    rw [hs, List.drop_append, List.drop_of_length_le hk, List.nil_append]
  have harr : (headBlock first headers).length ≤
      arrived socket (headBlock first headers).length := by
    unfold arrived
    omega
  cases hd : declaredBody parseLine mem.message
      (headText socket (headBlock first headers).length) with
  | none =>
    obtain ⟨tok, l', hs', s', htok, hl', rfl, hr, hle, hbytes, hend⟩ :=
      receive_noBody hmem.1 hh hlen hacc hd
    obtain rfl := hline tok l' htok hl'
    rw [hheaders] at hr hle
    obtain rfl : n = 0 := by omega
    rw [hr]
    refine ⟨by simp [hn], ?_, hend⟩
    rw [hbytes, hdrop _ harr]
    congr 1
    omega
  | some m =>
    -- the announced length is `n`, since the parsed headers are the ones sent
    have hm : m = n := by
      obtain ⟨_, _, _, _, -, -, heq, -, hdecl, -⟩ := receive_of_accepts hmem.1 hh hlen hacc
      rw [hd, heq, hheaders, hn] at hdecl
      split at hdecl
      · simpa using Option.some.inj hdecl
      · simp at hdecl
    subst hm
    obtain ⟨tok, l', hs', s', block, htok, hl', rfl, -, hpos, hr, hread, -, -, hbytes, hend⟩ :=
      receive_body hmem.1 hh hlen hacc hd ⟨hmem.2.2, hlt⟩
    obtain rfl := hline tok l' htok hl'
    have hfull : (headBlock first headers).length + m ≤ socket.bytes.length := by
      rw [hs, List.length_append]
      omega
    have hbody : block.read m = t.take m := by
      rw [hread hfull, hs, List.drop_left]
    rw [hheaders] at hr
    rw [hr]
    refine ⟨?_, ?_, hend⟩
    · simp only [if_pos (Or.inl hfull), hbody, if_neg (by omega : ¬ m = 0)]
    · rw [hbytes, hdrop _ (by omega)]
      congr 1
      omega

end

end SelectServer
