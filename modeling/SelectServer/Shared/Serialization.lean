import SelectServer.Shared.RoundTrip

/-!
# What the serialisers write

`serialize_headers` computes a length and writes a text, and the two agree as long as the
text is shorter than an `int` can tell (`headers_round_trip`, with the way back).

The two serialisers of a message compute a size, allocate a buffer of it and report it. For a
request the buffer has no room for the terminator that `strcat` writes; for a response the
status code is counted as `sizeof(int)` characters, however many it has
(`serialized_exactly_iff`).
-/

namespace SelectServer

open CLib

/-! ## Header lists -/

/-- `serialize_headers` returns the text of the headers and its exact length, and the text is
parsed to the same headers, with their number. -/
def HeadersRoundTrip (alloc : Bool) (junk : Nat → UInt8) (mem : HeadersMemory)
    (headers : List Header) : Prop :=
  serializeHeaders alloc junk headers =
      .returned ((headersText headers).length, headersText headers) ∧
    deserializeHeaders mem (headersText headers) = ⟨some headers, some headers.length⟩

section HeaderLists

variable {headers : List Header}

theorem headersText_cons (x : Header) (xs : List Header) :
    headersText (x :: xs) = x.line ++ 13 :: 10 :: headersText xs := by
  simp [headersText, Header.text_eq_line, crlf]

theorem headersOfText_headersText (h : ∀ x ∈ headers, x.WellFormed) (junk : List UInt8) :
    headersOfText junk (headersText headers) = headers := by
  induction headers with
  | nil => rfl
  | cons x xs ih =>
    have hx := h x List.mem_cons_self
    have hxs := ih fun y hy => h y (List.mem_cons_of_mem _ hy)
    rw [headersOfText] at hxs ⊢
    rw [headersText_cons, tokens_line hx.isLine.ne_nil hx.isLine.notMem_crlf (by simp [crlf]),
      tokens_cons_delim (by simp [crlf]), List.filterMap_cons, hx.headerOfLine, hxs]

/-- A line and its ending count once. -/
theorem countLineEndings_line {l : List UInt8} (hl : IsLine l) (inRun : Bool)
    (rest : List UInt8) :
    countLineEndings inRun (l ++ 13 :: 10 :: rest) = 1 + countLineEndings true rest := by
  obtain ⟨c, cs, rfl⟩ := List.exists_cons_of_ne_nil hl.ne_nil
  have hcr := hl.no_cr
  have hlf := hl.no_lf
  -- behind its first character the line does not go on with a run
  have hrest : ∀ cs : List UInt8, 13 ∉ cs → 10 ∉ cs →
      countLineEndings false (cs ++ 13 :: 10 :: rest) = 1 + countLineEndings true rest := by
    intro cs hcr hlf
    induction cs with
    | nil => simp [countLineEndings]
    | cons d ds ih =>
      simp only [List.mem_cons, not_or] at hcr hlf
      have hd : ¬ (d = 13 ∨ d = 10) := by
        rintro (rfl | rfl)
        · exact hcr.1 rfl
        · exact hlf.1 rfl
      rw [List.cons_append, countLineEndings, if_neg hd, ih hcr.2 hlf.2]
  simp only [List.mem_cons, not_or] at hcr hlf
  have hc : ¬ (c = 13 ∨ c = 10) := by
    rintro (rfl | rfl)
    · exact hcr.1 rfl
    · exact hlf.1 rfl
  rw [List.cons_append, countLineEndings, if_neg hc, hrest cs hcr.2 hlf.2]

/-- The first pass of the parser counts the headers. -/
theorem countLineEndings_headersText (h : ∀ x ∈ headers, x.WellFormed) (inRun : Bool) :
    countLineEndings inRun (headersText headers) = headers.length := by
  induction headers generalizing inRun with
  | nil => rfl
  | cons x xs ih =>
    rw [headersText_cons, countLineEndings_line (h x List.mem_cons_self).isLine,
      ih fun y hy => h y (List.mem_cons_of_mem _ hy), List.length_cons, Nat.add_comm]

/-- The loop comes to its end, in an array with room for its headers, exactly if they can all be
copied. -/
theorem deserializeHeadersLoop_done_iff (junk : List UInt8) (alloc : Nat → HeaderAlloc)
    (toks : List Token) (k : Nat) {arr : HeaderArray} (hwf : arr.WellFormed)
    (hroom : arr.headerIndex + (toks.filterMap (headerOfLine junk)).length ≤ arr.headerCount) :
    (∃ arr', deserializeHeadersLoop junk alloc toks k arr = .done arr') ↔
      ∀ i < (toks.filterMap (headerOfLine junk)).length, (alloc (k + i)).copies = true := by
  induction toks generalizing k arr with
  | nil => exact iff_of_true ⟨arr, rfl⟩ fun i hi => absurd hi (Nat.not_lt_zero i)
  | cons tok toks ih =>
    rw [List.filterMap_cons] at hroom ⊢
    cases hline : headerOfLine junk tok with
    | none =>
      simp only [hline] at hroom
      simp only [deserializeHeadersLoop, hline]
      exact ih k hwf hroom
    | some hd =>
      simp only [hline, List.length_cons] at hroom
      simp only [deserializeHeadersLoop, hline, List.length_cons]
      have hlt : arr.headerIndex < arr.headerCount := by omega
      have hret := addHeader_ret_eq_zero_iff (alloc k) hlt hd.key hd.value
      have hcount := addHeader_headerCount (alloc k) arr hd.key hd.value
      rw [if_neg hlt.not_ge] at hcount
      cases hadd : addHeader (alloc k) arr hd.key hd.value with
      | mk ret arr' =>
        rw [hadd] at hret hcount
        by_cases hzero : ret = 0
        · subst hzero
          obtain ⟨hwf', hindex, -⟩ := addHeader_of_ret_zero hadd hwf
          rw [if_pos rfl, ih (k + 1) hwf' (by rw [hindex, hcount]; omega)]
          -- the header in front of the others has been copied
          constructor
          · intro hall i hi
            rcases i with _ | i
            · exact hret.mp rfl
            · rw [← Nat.add_assoc, Nat.add_right_comm]
              exact hall i (by omega)
          · intro hall i hi
            rw [Nat.add_right_comm]
            exact hall (i + 1) (by omega)
        · rw [if_neg hzero]
          apply iff_of_false
          · rintro ⟨arr'', hdone⟩
            cases hdone
          · exact fun hall => hzero (hret.mpr (hall 0 (Nat.succ_pos _)))

/-- The parser gives the headers back exactly if it has memory for them. -/
theorem deserializeHeaders_headersText_iff (mem : HeadersMemory)
    (h : ∀ x ∈ headers, x.WellFormed) :
    deserializeHeaders mem (headersText headers) = ⟨some headers, some headers.length⟩ ↔
      mem.Holds headers.length := by
  have hheaders := headersOfText_headersText h mem.junk
  rw [headersOfText] at hheaders
  have hcount := countLineEndings_headersText h false
  have hdone := deserializeHeadersLoop_done_iff mem.junk mem.alloc
    (tokens crlf (headersText headers)) 0 (createHeaders_wellFormed (max 1 headers.length))
    (by rw [hheaders, Nat.zero_add]; exact le_max_right 1 _)
  rw [hheaders] at hdone
  simp only [Nat.zero_add] at hdone
  constructor
  · intro hparsed
    rw [deserializeHeaders, hcount] at hparsed
    cases hblocks : mem.headers && mem.headersCopy with
    | false => simp [hblocks] at hparsed
    | true =>
      obtain ⟨hfirst, hcopy⟩ := Bool.and_eq_true_iff.mp hblocks
      cases hloop : deserializeHeadersLoop mem.junk mem.alloc (tokens crlf (headersText headers))
          0 ⟨some (createHeaders (max 1 headers.length)), 0, max 1 headers.length⟩ with
      | done arr => exact ⟨hfirst, hcopy, hdone.mp ⟨arr, hloop⟩⟩
      | failed arr => simp [hblocks, hloop] at hparsed
  · intro hmem
    obtain ⟨arr, hloop⟩ := hdone.mpr hmem.copies
    have hsome : (deserializeHeaders mem (headersText headers)).headers = some arr.contents := by
      simp [deserializeHeaders, hcount, hmem.headers, hmem.headersCopy, hloop]
    -- what it returns is what the text contains
    obtain ⟨hcontents, hnumber⟩ := deserializeHeaders_some hsome
    rw [headersOfText_headersText h] at hcontents
    rw [hcontents] at hsome hnumber
    cases hd : deserializeHeaders mem (headersText headers) with
    | mk headers' count =>
      rw [hd] at hsome hnumber
      obtain rfl : headers' = some headers := hsome
      obtain rfl : count = some headers.length := hnumber
      rfl

/-- Headers come back from their text, the length of which is the one returned, exactly if that
length is an `int` and the allocations succeed that are made on the way. -/
theorem headers_round_trip_iff (alloc : Bool) (junk : Nat → UInt8) (mem : HeadersMemory)
    (h : ∀ x ∈ headers, x.WellFormed) :
    HeadersRoundTrip alloc junk mem headers ↔
      (headersText headers).length < 2 ^ 31 ∧ alloc = true ∧ mem.Holds headers.length := by
  rw [HeadersRoundTrip, deserializeHeaders_headersText_iff mem h,
    serializeHeaders_eq_returned_iff, and_iff_left rfl, and_comm (a := alloc = true), and_assoc]

end HeaderLists

/-- An empty key, an empty value, and a value with colons and blanks. -/
def unusualHeaders : List Header :=
  [⟨[], []⟩, ⟨bytes "Host", bytes "  a: b:"⟩, ⟨bytes "a b", []⟩]

theorem headers_round_trip_unusualHeaders :
    HeadersRoundTrip true (fun _ => 0) ReceiveMemory.ideal.message.headers unusualHeaders := by
  refine (headers_round_trip_iff true (fun _ => 0) _ ?_).mpr ⟨by decide, rfl,
    ReceiveMemory.ideal_succeeds.2.1.2.2.2.holds _⟩
  intro x hx
  simp only [unusualHeaders, List.mem_cons, List.not_mem_nil, or_false] at hx
  rcases hx with rfl | rfl | rfl
  · exact ⟨by decide, by decide⟩
  · exact ⟨by decide, by decide⟩
  · exact ⟨by decide, by decide⟩

/-- A header without value whose key has `n` characters. -/
def longHeader (n : Nat) : Header := ⟨List.replicate n 65, []⟩

theorem longHeader_wellFormed (n : Nat) : (longHeader n).WellFormed := by
  refine ⟨fun c hc => ?_, by simp [longHeader]⟩
  rw [List.eq_of_mem_replicate hc]
  decide

theorem length_longHeader (n : Nat) : (headersText [longHeader n]).length = n + 4 := by
  have hsep : keyValueSeparator.length = 2 := by decide
  have hend : lineEnding.length = 2 := by decide
  simp [headersText, Header.text, longHeader, hsep, hend]

/-- With a key of `2 ^ 32` characters the size that is added up is 4, and the text does not fit
the five bytes that are allocated for it. -/
theorem headers_round_trip_overflow :
    (longHeader (2 ^ 32)).WellFormed ∧ headersSize [longHeader (2 ^ 32)] = 4 ∧
      serializeHeaders true (fun _ => 0) [longHeader (2 ^ 32)] = .fault .blockOverrun ∧
      ¬ HeadersRoundTrip true (fun _ => 0) ReceiveMemory.ideal.message.headers
        [longHeader (2 ^ 32)] := by
  have hlength := length_longHeader (2 ^ 32)
  have hwf := longHeader_wellFormed (2 ^ 32)
  generalize longHeader (2 ^ 32) = x at hlength hwf ⊢
  have hsize : headersSize [x] = 4 := by
    rw [headersSize_eq_toInt32, hlength]
    decide
  have hfault : serializeHeaders true (fun _ => 0) [x] = .fault .blockOverrun := by
    rw [serializeHeaders_of_le (hlength ▸ by decide), hsize]
    rfl
  refine ⟨hwf, hsize, hfault, fun h => ?_⟩
  have hreturned := h.1
  rw [hfault] at hreturned
  cases hreturned

/-! ## Messages -/

/-- The size that is returned is the length of the message, the bytes that are sent are the
message, and everything written while it is built lies inside the buffers. -/
structure SerializedExactly (headers : List Header) (message : List UInt8) (s : Serialized) :
    Prop where
  size : s.size = message.length
  bytes : s.bytes = message
  headersInBounds : ((headersText headers).length : Int) ≤ headersSize headers
  inBounds : s.block.InBounds

/-- The bytes of a response: status line, headers, blank line, and as much of the body as its
length says. -/
def HTTPMessage.responseBytes (r : HTTPResponse) : List UInt8 :=
  r.responseHead ++ r.content.take r.bodyLength.toNat

/-- A response that `create_http_response` accepts, with a body of at least the length that is
assigned to it. -/
structure HTTPMessage.Created (r : HTTPResponse) : Prop where
  statusCode_pos : 0 < r.line.statusCode
  statusCode_lt : r.line.statusCode < 2 ^ 31
  bodyLength_nonneg : 0 ≤ r.bodyLength
  bodyLength_le : ∀ b, r.body = some b → r.bodyLength ≤ b.length

/-- The terminator behind the last line ending does not fit the buffer of a request. -/
theorem serializeHttpRequestHeader_overflows {mem : SerializeMemory} {request : HTTPRequest}
    {s : Serialized} (hs : serializeHttpRequestHeader mem request = .returned s) :
    ¬ s.block.InBounds := by
  intro hbounds
  obtain ⟨hsize, hnonneg, -⟩ := serializeHttpRequestHeader_bytes hs
  have hle := toInt32_le_natCast request.head.length
  rw [← hsize] at hle
  obtain ⟨-, -, -, rfl⟩ := serializeHttpRequestHeader_eq_returned_iff.mp hs
  dsimp only at hle hnonneg
  have hlast := ((Block.inBounds_store_iff _ _ _).mp hbounds).2
  simp only [Block.size_store, Block.size_malloc, List.length_append,
    List.length_singleton] at hlast
  -- the size is at most the length of the head
  have hhead := congrArg List.length request.head_eq
  simp only [List.length_append] at hhead
  omega

section Responses

variable {response : HTTPResponse}

theorem responseBytes_eq (response : HTTPResponse) :
    response.responseBytes = response.line.text ++ headersText response.headers ++
      lineEnding ++ response.copied := by
  rw [HTTPMessage.responseBytes, HTTPMessage.responseHead, HTTPMessage.copied,
    HTTPMessage.content]
  cases response.body with
  | none => simp
  | some body => rfl

theorem HTTPMessage.Created.bodyLength_eq (h : response.Created)
    (hbody : response.body.isSome) : response.bodyLength = response.copied.length := by
  obtain ⟨body, hb⟩ := Option.isSome_iff_exists.mp hbody
  have hle := h.bodyLength_le body hb
  have hnonneg := h.bodyLength_nonneg
  simp only [HTTPMessage.copied, hb, List.length_take]
  omega

/-- The computed size counts the status code as four characters. -/
theorem sizeWithBody_add (h : response.Created) :
    response.sizeWithBody response.copied.length +
        (decimal response.line.statusCode.toNat).length =
      response.responseBytes.length + 4 := by
  obtain ⟨n, hn⟩ := Int.eq_ofNat_of_zero_le h.statusCode_pos.le
  have hblank : (bytes " ").length = 1 := by decide
  have hend : lineEnding.length = 2 := by decide
  rw [responseBytes_eq]
  simp only [HTTPMessage.sizeWithBody, ResponseLine.text, hn, formatInt_natCast,
    Int.toNat_natCast, List.length_append, hblank, hend]
  omega

/-- The size is that with the bytes of the body that are copied, as an `int`. -/
theorem HTTPMessage.Created.offered_eq (h : response.Created) :
    response.offered = toInt32 (response.sizeWithBody response.copied.length) := by
  have hbody : (if response.body.isSome then response.bodyLength else 0) =
      (response.copied.length : Int) := by
    cases hb : response.body with
    | none =>
      have hcopied : response.copied = [] := by rw [HTTPMessage.copied, hb]
      simp [hcopied]
    | some body =>
      rw [Option.isSome_some, if_pos rfl]
      exact h.bodyLength_eq (by rw [hb, Option.isSome_some])
  rw [HTTPMessage.offered_eq, hbody, HTTPMessage.sizeWithBody, HTTPMessage.sizeWithBody]
  push_cast
  rw [add_zero]

/-- A positive `int` is written with one to ten digits. -/
theorem HTTPMessage.Created.length_code (h : response.Created) :
    1 ≤ (decimal response.line.statusCode.toNat).length ∧
      (decimal response.line.statusCode.toNat).length ≤ 10 := by
  have hlt := h.statusCode_lt
  refine ⟨List.length_pos_iff.mpr (decimal_ne_nil _), ?_⟩
  apply length_decimal_le (by norm_num)
  omega

theorem HTTPMessage.Created.length_code_eq_four_iff (h : response.Created) :
    (decimal response.line.statusCode.toNat).length = 4 ↔
      1000 ≤ response.line.statusCode ∧ response.line.statusCode ≤ 9999 := by
  have hpos : 0 < response.line.statusCode.toNat := by
    have := h.statusCode_pos
    omega
  have hthree := lt_length_decimal_iff (k := 3) hpos
  have hfour := lt_length_decimal_iff (k := 4) hpos
  constructor
  · intro heq
    rw [heq] at hthree hfour
    omega
  · intro hcode
    omega

/-- A response is serialised to its bytes exactly if its status code has four digits and its
length is an `int`, given the memory. -/
theorem serialized_response_iff (h : response.Created) (mem : SerializeMemory) :
    (∃ s, serializeHttpResponse mem response = .returned s ∧
        SerializedExactly response.headers response.responseBytes s) ↔
      mem.Succeeds ∧ (1000 ≤ response.line.statusCode ∧ response.line.statusCode ≤ 9999) ∧
        response.responseBytes.length < 2 ^ 31 := by
  have hsum := sizeWithBody_add h
  rw [← h.length_code_eq_four_iff]
  constructor
  · rintro ⟨s, hs, hexact⟩
    obtain ⟨hone, hten⟩ := h.length_code
    have hsize := hexact.size
    obtain ⟨hmem, -, -, -, rfl⟩ := serializeHttpResponse_eq_returned_iff.mp hs
    have hoffered : response.offered = response.responseBytes.length := hsize
    rw [h.offered_eq] at hoffered
    have hlt := (toInt32_bounds (response.sizeWithBody response.copied.length)).2
    rw [hoffered] at hlt
    refine ⟨hmem, ?_, by omega⟩
    -- a difference of less than the modulus would show in the size
    have hzero : (4 : Int) - (decimal response.line.statusCode.toNat).length = 0 := by
      apply eq_zero_of_toInt32_add (z := response.responseBytes.length)
      · have heq : (response.responseBytes.length : Int) +
            (4 - (decimal response.line.statusCode.toNat).length) =
              response.sizeWithBody response.copied.length := by omega
        rw [heq, hoffered]
      · rw [abs_lt]
        constructor <;> omega
    omega
  · rintro ⟨hmem, hfour, hlt⟩
    rw [hfour, Nat.add_left_inj] at hsum
    obtain ⟨s, hs, hsize, -, hhold, hbounds⟩ :=
      serializeHttpResponse_spec hmem h.bodyLength_eq (hsum ▸ hlt)
    rw [← responseBytes_eq, hsum] at hbounds
    rw [← responseBytes_eq] at hhold
    rw [hsum] at hsize
    refine ⟨s, hs, hsize, ?_, ?_, hbounds.mpr le_rfl⟩
    · rw [Serialized.bytes, hsize, Int.toNat_natCast, hhold.read]
    · rw [responseBytes_eq] at hlt
      simp only [List.length_append] at hlt
      exact (headersSize_eq (by omega)).ge

end Responses

/-- No request is serialised inside its buffer. A response is serialised to its bytes, inside its
buffers, exactly if there is memory for it, its status code has four digits and the bytes fit an
`int`. -/
theorem serialized_exactly_iff (mem : SerializeMemory) :
    (∀ request, ¬ ∃ s, serializeHttpRequestHeader mem request = .returned s ∧
        SerializedExactly request.headers request.head s) ∧
      ∀ response : HTTPResponse, response.Created →
        ((∃ s, serializeHttpResponse mem response = .returned s ∧
            SerializedExactly response.headers response.responseBytes s) ↔
          mem.Succeeds ∧ (1000 ≤ response.line.statusCode ∧ response.line.statusCode ≤ 9999) ∧
            response.responseBytes.length < 2 ^ 31) := by
  constructor
  · rintro request ⟨s, hs, hexact⟩
    exact serializeHttpRequestHeader_overflows hs hexact.inBounds
  · intro response h
    exact serialized_response_iff h mem

/-- A response with a body; what the two serialisers do with it depends on its status code. -/
def responseWithCode (code : Int) : HTTPResponse :=
  ⟨⟨defaultHttpVersion, code, bytes "OK"⟩, [⟨bytes "Content-Length", bytes "2"⟩],
    some (bytes "hi"), 2⟩

theorem responseWithCode_created {code : Int} (hpos : 0 < code) (hlt : code < 2 ^ 31) :
    (responseWithCode code).Created where
  statusCode_pos := hpos
  statusCode_lt := hlt
  bodyLength_nonneg := Int.natCast_nonneg 2
  bodyLength_le := by
    intro b hb
    obtain rfl := Option.some.inj hb
    rfl

theorem serialized_exactly_1000 :
    ∃ s, serializeHttpResponse (.filled 58) (responseWithCode 1000) = .returned s ∧
      SerializedExactly (responseWithCode 1000).headers (responseWithCode 1000).responseBytes s :=
  ((serialized_exactly_iff (.filled 58)).2 _ (responseWithCode_created (by decide)
    (by decide))).mpr ⟨SerializeMemory.filled_succeeds 58, ⟨by decide, by decide⟩,
      by decide +kernel⟩

/-- A request as the client builds it. -/
def getRequest : HTTPRequest :=
  ⟨⟨bytes "GET", bytes "/", defaultHttpVersion⟩, [⟨bytes "Host", bytes "localhost"⟩], none, 0⟩

/-- The terminator of the request lies behind its buffer, and the response with status code 200
is sent with a byte too many. -/
theorem serialized_exactly_200 :
    (¬ ∃ s, serializeHttpRequestHeader (.filled 58) getRequest = .returned s ∧
        SerializedExactly getRequest.headers getRequest.head s) ∧
      (responseWithCode 200).Created ∧
        ¬ ∃ s, serializeHttpResponse (.filled 58) (responseWithCode 200) = .returned s ∧
          SerializedExactly (responseWithCode 200).headers
            (responseWithCode 200).responseBytes s := by
  have hcreated := responseWithCode_created (by decide : 0 < (200 : Int)) (by decide)
  refine ⟨?_, hcreated, fun h => ?_⟩
  · rintro ⟨s, hs, hexact⟩
    exact serializeHttpRequestHeader_overflows hs hexact.inBounds
  · have hcode := ((serialized_response_iff hcreated (.filled 58)).mp h).2.1
    exact absurd hcode.1 (by decide)

end SelectServer
