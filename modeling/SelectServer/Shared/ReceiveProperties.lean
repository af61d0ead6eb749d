import SelectServer.Shared.ReceiveSpec

/-!
# Safety and error handling of the receive functions

Three properties of `receive_http_request` and `receive_http_response`, each with the exact
set of streams and segmentations on which it holds:

- every byte stored for the body lands in the block allocated for it;
- a body is only returned when all of it was received, and an early close gives NULL;
- the result is NULL or a complete message, and no run reads a field of a NULL message or a
  field that was never assigned.
-/

namespace SelectServer

open CLib

variable {L : Type}

/-! ## Stores to the body -/

/-- Every store to the body's block of `body_length + 1` bytes lies inside it. -/
def BodyStoresInBounds (r : Receive L) : Prop := ∀ b ∈ r.block, b.InBounds

/-- The read that completes the blank line brings at most one byte more than the announced
body. -/
def ExtraFits (parseLine : List UInt8 → ParsedLine L) (mem : DeserializeMemory)
    (socket : ByteSource UInt8) : Prop :=
  ∀ h n, headerEnd socket.bytes = some h → h ≤ defaultBufferSize →
    declaredBody parseLine mem (headText socket h) = some n → arrived socket h ≤ h + n + 1

private theorem receive_inBounds_iff (parseLine : List UInt8 → ParsedLine L) (mem : ReceiveMemory)
    (socket : ByteSource UInt8) :
    BodyStoresInBounds (receiveHttpMessage (deserializeHttpHeader parseLine) mem socket) ↔
      (mem.buffer = true → mem.body = true → ExtraFits parseLine mem.message socket) := by
  -- without a block nothing is stored
  have hnoBlock : ∀ {r : Receive L}, r.block = none → BodyStoresInBounds r := by
    intro r hr b hb
    simp [hr] at hb
  rcases receive_trichotomy parseLine mem socket with hno | ⟨hbuf, text, ht, hrej⟩ |
    ⟨hbuf, h, hh, hle, ht, hacc⟩
  · refine iff_of_true (hnoBlock (receive_of_no_text _ hno).2) fun hbuf _ h n hh hle _ => ?_
    have hnone := hno hbuf
    simp [headerText_of_le hh hle] at hnone
  · refine iff_of_true (hnoBlock (receive_of_not_accepts hbuf ht hrej).2)
      fun _ _ h n hh hle hd => ?_
    obtain rfl : text = headText socket h := by
      simpa [headerText_of_le hh hle] using ht.symm
    simp [declaredBody_of_not_accepts hrej] at hd
  · -- an accepted text: the size of the block is what the text announces
    have hcap : arrived socket h ≤ max h defaultBufferSize := by
      unfold arrived
      omega
    cases hd : declaredBody parseLine mem.message (headText socket h) with
    | none =>
      obtain ⟨_, _, _, _, -, -, -, hr, -⟩ := receive_noBody hbuf hh hle hacc hd
      refine iff_of_true (hnoBlock (by rw [hr])) fun _ _ h' n hh' _ hd' => ?_
      obtain rfl : h = h' := by simpa [hh] using hh'
      simp [hd] at hd'
    | some n =>
      by_cases halloc : BodyAllocated mem n
      · obtain ⟨_, _, _, _, block, -, -, -, -, -, hr, -, -, hin, -⟩ :=
          receive_body hbuf hh hle hacc hd halloc
        -- the one block is that of the body
        have hprop : BodyStoresInBounds
            (receiveHttpMessage (deserializeHttpHeader parseLine) mem socket) ↔
              block.InBounds := by
          simp [BodyStoresInBounds, hr]
        rw [hprop, hin]
        constructor
        · intro hfits _ _ h' n' hh' _ hd'
          obtain rfl : h = h' := by simpa [hh] using hh'
          obtain rfl : n = n' := by simpa [hd] using hd'
          exact hfits
        · intro hfits
          exact hfits hbuf halloc.1 h n hh hle hd
      · have hblock := (receive_noBlock hbuf hh hle hacc hd halloc).2
        refine iff_of_true (hnoBlock hblock) fun _ hbody h' n' hh' _ hd' => ?_
        -- a body too long for `int` is longer than the buffer
        obtain rfl : h = h' := by simpa [hh] using hh'
        obtain rfl : n = n' := by simpa [hd] using hd'
        have hbig : ¬ n + 1 < 2 ^ 31 := fun hlt => halloc ⟨hbody, hlt⟩
        simp only [defaultBufferSize] at hcap hle
        omega

/-- Every byte copied into a message body lands in `[0, body_length]` exactly when the read
that completes the header block brings at most `body_length + 1` bytes behind it. -/
theorem bodyStores_inBounds_iff (mem : ReceiveMemory) (socket : ByteSource UInt8) :
    (BodyStoresInBounds (receiveHttpRequest mem socket) ↔
      (mem.buffer = true → mem.body = true → ExtraFits parseRequestLine mem.message socket)) ∧
    (BodyStoresInBounds (receiveHttpResponse mem socket) ↔
      (mem.buffer = true → mem.body = true → ExtraFits parseResponseLine mem.message socket)) :=
  ⟨receive_inBounds_iff parseRequestLine mem socket,
    receive_inBounds_iff parseResponseLine mem socket⟩

/-- Three bytes behind the header block of a request that announces a body of one. -/
theorem bodyStores_overflow : ¬ BodyStoresInBounds (receiveHttpRequest ReceiveMemory.ideal
    ⟨[bytes "GET / HTTP/1.1\r\nContent-Length: 1\r\n\r\nabc"], .closed⟩) := by
  unfold BodyStoresInBounds
  decide

/-! ## Early close -/

/-- A returned message with a body has exactly the announced bytes behind the blank line. -/
def ReturnsWholeBody (r : Receive L) (socket : ByteSource UInt8) : Prop :=
  ∀ m : HTTPMessage L, r.outcome = .returned m.raw → 0 < m.bodyLength →
    ∃ h, headerEnd socket.bytes = some h ∧ h + m.bodyLength.toNat ≤ socket.bytes.length ∧
      m.body = some ((socket.bytes.drop h).take m.bodyLength.toNat)

/-- The stream ends before the blank line, or before the last byte of the announced body. -/
def ClosedEarly (parseLine : List UInt8 → ParsedLine L) (mem : DeserializeMemory)
    (socket : ByteSource UInt8) : Prop :=
  strstr doubleEndLine socket.bytes = none ∨
    ∃ h n, headerEnd socket.bytes = some h ∧
      declaredBody parseLine mem (headText socket h) = some n ∧ socket.bytes.length < h + n

/-- When the stream ends early, it does so where the code notices: a header without blank
line within the buffer; a body behind a header block that fits the buffer, with no byte
arriving after the read that completes the block (unless that read fails). -/
structure EarlyCloseNoticed (parseLine : List UInt8 → ParsedLine L) (mem : ReceiveMemory)
    (socket : ByteSource UInt8) : Prop where
  header : strstr doubleEndLine socket.bytes = none → socket.bytes.length < defaultBufferSize
  body : ∀ h n, headerEnd socket.bytes = some h →
    declaredBody parseLine mem.message (headText socket h) = some n →
    socket.bytes.length < h + n → h ≤ defaultBufferSize ∧
      (BodyAllocated mem n → socket.ending = .closed →
        socket.bytes.length ≤ arrived socket h)

/-- No word of a first line is stored behind its array, a body is returned whole, and an early
close gives NULL. -/
structure NoticesClose (parseLine : List UInt8 → ParsedLine L) (mem : DeserializeMemory)
    (socket : ByteSource UInt8) (r : Receive L) : Prop where
  inArrays : r.outcome ≠ .fault .arrayOverrun
  whole : ReturnsWholeBody r socket
  closed : ClosedEarly parseLine mem socket → r.outcome = .null

private theorem headerEnd_eq_none {stream : List UInt8} (h : strstr doubleEndLine stream = none) :
    headerEnd stream = none := by
  have hpre : cstr stream = stream.take (cstr stream).length :=
    List.prefix_iff_eq_take.mp (cstr_isPrefix stream)
  rw [headerEnd, hpre, strstr_take_of_none _ doubleEndLine_ne_nil h, Option.map_none]

/-- Behind a complete header block a stream closes early exactly when it is shorter than
header block and body. -/
private theorem closedEarly_iff {parseLine : List UInt8 → ParsedLine L} {mem : DeserializeMemory}
    {socket : ByteSource UInt8} {h n : Nat} (hh : headerEnd socket.bytes = some h)
    (hd : declaredBody parseLine mem (headText socket h) = some n) :
    ClosedEarly parseLine mem socket ↔ socket.bytes.length < h + n := by
  constructor
  · rintro (hs | ⟨h', n', hh', hd', hlt⟩)
    · simp [headerEnd_eq_none hs] at hh
    · obtain rfl : h = h' := by simpa [hh] using hh'
      obtain rfl : n = n' := by simpa [hd] using hd'
      exact hlt
  · exact fun hlt => Or.inr ⟨h, n, hh, hd, hlt⟩

/-- There, an early close is noticed exactly when nothing arrives after the read that
completes the block. -/
private theorem earlyCloseNoticed_iff {parseLine : List UInt8 → ParsedLine L} {mem : ReceiveMemory}
    {socket : ByteSource UInt8} {h n : Nat} (hh : headerEnd socket.bytes = some h)
    (hle : h ≤ defaultBufferSize)
    (hd : declaredBody parseLine mem.message (headText socket h) = some n) :
    EarlyCloseNoticed parseLine mem socket ↔ (socket.bytes.length < h + n →
      BodyAllocated mem n → socket.ending = .closed →
        socket.bytes.length ≤ arrived socket h) := by
  constructor
  · exact fun hc hlt => (hc.body h n hh hd hlt).2
  · intro hc
    refine ⟨fun hs => ?_, fun h' n' hh' hd' hlt => ?_⟩
    · simp [headerEnd_eq_none hs] at hh
    · obtain rfl : h = h' := by simpa [hh] using hh'
      obtain rfl : n = n' := by simpa [hd] using hd'
      exact ⟨hle, hc hlt⟩

/-- Without a header text the stream has no blank line and ends within the buffer. -/
private theorem earlyCloseNoticed_of_no_text {parseLine : List UInt8 → ParsedLine L}
    {mem : ReceiveMemory} {socket : ByteSource UInt8} (hnone : headerText socket = none) :
    EarlyCloseNoticed parseLine mem socket := by
  unfold headerText at hnone
  split at hnone
  · split at hnone <;> simp at hnone
  · rename_i hh
    split at hnone
    · simp at hnone
    · exact ⟨fun _ => by omega, fun h n hh' => by simp [hh] at hh'⟩

/-- For a rejected text, closing early and closing where it is noticed exclude each other. -/
private theorem closedEarly_iff_of_not_accepts {parseLine : List UInt8 → ParsedLine L}
    {mem : ReceiveMemory} {socket : ByteSource UInt8} {text : List UInt8}
    (ht : headerText socket = some text) (hrej : ¬ AcceptsHead parseLine mem.message text) :
    ¬ ClosedEarly parseLine mem.message socket ↔ EarlyCloseNoticed parseLine mem socket := by
  constructor
  · intro hearly
    refine ⟨fun hs => absurd (Or.inl hs) hearly, fun h n hh hd hlt => ?_⟩
    exact absurd (Or.inr ⟨h, n, hh, hd, hlt⟩) hearly
  · rintro ⟨hheader, hbody⟩ (hs | ⟨h, n, hh, hd, hlt⟩)
    · have hlt := hheader hs
      simp [headerText, headerEnd_eq_none hs, Nat.not_le.mpr hlt] at ht
    · obtain ⟨hle, -⟩ := hbody h n hh hd hlt
      obtain rfl : text = headText socket h := by
        simpa [headerText_of_le hh hle] using ht.symm
      simp [declaredBody_of_not_accepts hrej] at hd

/-- Where no body is announced, nothing can close early behind the header block. -/
private theorem not_closedEarly_of_noBody {parseLine : List UInt8 → ParsedLine L}
    {mem : ReceiveMemory} {socket : ByteSource UInt8} {h : Nat}
    (hh : headerEnd socket.bytes = some h)
    (hd : declaredBody parseLine mem.message (headText socket h) = none) :
    ¬ ClosedEarly parseLine mem.message socket ∧ EarlyCloseNoticed parseLine mem socket := by
  have hsome : strstr doubleEndLine socket.bytes ≠ none := by
    intro hs
    simp [headerEnd_eq_none hs] at hh
  have hnever : ∀ h' n, headerEnd socket.bytes = some h' →
      declaredBody parseLine mem.message (headText socket h') ≠ some n := by
    intro h' n hh'
    obtain rfl : h = h' := by simpa [hh] using hh'
    simp [hd]
  constructor
  · rintro (hs | ⟨h', n, hh', hd', -⟩)
    · exact hsome hs
    · exact hnever h' n hh' hd'
  · exact ⟨fun hs => absurd hs hsome, fun h' n hh' hd' => absurd hd' (hnever h' n hh')⟩

/-- An announced body is returned whole, or NULL when the peer closes before its end, unless
the short count of `recvall` passes for success. -/
private theorem wholeBody_of_allocated {parseLine : List UInt8 → ParsedLine L} {mem : ReceiveMemory}
    {socket : ByteSource UInt8} (hbuf : mem.buffer = true) {h n : Nat}
    (hh : headerEnd socket.bytes = some h) (hle : h ≤ defaultBufferSize)
    (hacc : AcceptsHead parseLine mem.message (headText socket h))
    (hd : declaredBody parseLine mem.message (headText socket h) = some n)
    (halloc : BodyAllocated mem n) :
    (ReturnsWholeBody (receiveHttpMessage (deserializeHttpHeader parseLine) mem socket) socket ∧
      (socket.bytes.length < h + n →
        (receiveHttpMessage (deserializeHttpHeader parseLine) mem socket).outcome = .null)) ↔
      (socket.bytes.length < h + n → socket.ending = .closed →
        socket.bytes.length ≤ arrived socket h) := by
  obtain ⟨tok, l, headers, s', block, -, -, -, -, -, hr, hread, -, -, -⟩ :=
    receive_body hbuf hh hle hacc hd halloc
  by_cases hshort : socket.bytes.length < h + n
  · by_cases hmore : socket.ending = .closed ∧ arrived socket h < socket.bytes.length
    · -- the short count of `recvall` passes for success
      rw [if_pos (Or.inr hmore)] at hr
      refine iff_of_false (fun hboth => ?_) fun hc => ?_
      · have hnull := hboth.2 hshort
        simp [hr] at hnull
      · have := hc hshort hmore.1
        omega
    · -- nothing arrived behind the header, or `recv` failed: that is noticed
      rw [if_neg (not_or.mpr ⟨by omega, hmore⟩)] at hr
      refine iff_of_true ⟨by simp [ReturnsWholeBody, hr], fun _ => by rw [hr]⟩
        fun _ hclosed => ?_
      exact Nat.not_lt.mp fun hlt => hmore ⟨hclosed, hlt⟩
  · -- the whole body arrived
    rw [if_pos (Or.inl (by omega))] at hr
    refine iff_of_true ⟨fun m hm _ => ?_, fun hlt => absurd hlt hshort⟩
      fun hlt => absurd hlt hshort
    simp only [hr, Outcome.returned.injEq, HTTPMessage.raw, RawMessage.mk.injEq,
      Option.some.injEq] at hm
    obtain ⟨-, -, -, hbody, hlength⟩ := hm
    refine ⟨h, hh, by omega, ?_⟩
    rw [← hbody, ← hlength, hread (by omega), Int.toNat_natCast]

/-- The two clauses about the body, where the first line of the text fits its arrays. -/
private theorem receive_wholeBody_iff {parseLine : List UInt8 → ParsedLine L}
    {mem : ReceiveMemory} {socket : ByteSource UInt8} {text : List UInt8}
    (hbuf : mem.buffer = true) (ht : headerText socket = some text) :
    (ReturnsWholeBody (receiveHttpMessage (deserializeHttpHeader parseLine) mem socket) socket ∧
      (ClosedEarly parseLine mem.message socket →
        (receiveHttpMessage (deserializeHttpHeader parseLine) mem socket).outcome = .null)) ↔
      EarlyCloseNoticed parseLine mem socket := by
  by_cases hacc : AcceptsHead parseLine mem.message text
  · obtain ⟨p, hp, -⟩ := hacc.block
    obtain ⟨h, hh, hle, rfl⟩ := headerText_of_blankLine ht (by simp [hp])
    cases hd : declaredBody parseLine mem.message (headText socket h) with
    | none =>
      obtain ⟨tok, l, headers, _, -, -, -, hr, hneg, -⟩ := receive_noBody hbuf hh hle hacc hd
      obtain ⟨hnever, hnoticed⟩ := not_closedEarly_of_noBody hh hd
      refine iff_of_true ⟨?_, fun hearly => absurd hearly hnever⟩ hnoticed
      intro m hm hpos
      simp only [hr, Outcome.returned.injEq, HTTPMessage.raw, RawMessage.mk.injEq,
        Option.some.injEq] at hm
      omega
    | some n =>
      rw [closedEarly_iff hh hd, earlyCloseNoticed_iff hh hle hd]
      by_cases halloc : BodyAllocated mem n
      · rw [wholeBody_of_allocated hbuf hh hle hacc hd halloc]
        simp only [halloc, true_implies]
      · have hnull := (receive_noBlock hbuf hh hle hacc hd halloc).1
        apply iff_of_true
        · exact ⟨by simp [ReturnsWholeBody, hnull], fun _ => hnull⟩
        · exact fun _ ha => absurd ha halloc
  · -- a rejected text ends in a fault, which is not NULL
    obtain ⟨⟨f, hf, -⟩, -⟩ := receive_of_not_accepts hbuf ht hacc
    have hwhole : ReturnsWholeBody
        (receiveHttpMessage (deserializeHttpHeader parseLine) mem socket) socket := by
      simp [ReturnsWholeBody, hf]
    simp only [hwhole, true_and, hf, reduceCtorEq, imp_false]
    exact closedEarly_iff_of_not_accepts ht hacc

private theorem receive_noticesClose_iff (parseLine : List UInt8 → ParsedLine L)
    (mem : ReceiveMemory) (socket : ByteSource UInt8) :
    NoticesClose parseLine mem.message socket
        (receiveHttpMessage (deserializeHttpHeader parseLine) mem socket) ↔
      (mem.buffer = true →
        (∀ text, headerText socket = some text → ¬ OverrunsLine parseLine mem.message text) ∧
          EarlyCloseNoticed parseLine mem socket) := by
  by_cases hno : mem.buffer = true → headerText socket = none
  · have hnull := (receive_of_no_text parseLine hno).1
    apply iff_of_true
    · exact ⟨by simp [hnull], by simp [ReturnsWholeBody, hnull], fun _ => hnull⟩
    · intro hbuf
      refine ⟨fun text ht => ?_, earlyCloseNoticed_of_no_text (hno hbuf)⟩
      exact absurd (ht.symm.trans (hno hbuf)) (Option.some_ne_none text)
  · obtain ⟨hbuf, hsome⟩ := Classical.not_imp.mp hno
    obtain ⟨text, ht⟩ := Option.ne_none_iff_exists'.mp hsome
    have hover : (receiveHttpMessage (deserializeHttpHeader parseLine) mem socket).outcome =
        .fault .arrayOverrun ↔ OverrunsLine parseLine mem.message text :=
      receive_overrun_iff hbuf ht
    have hbody : _ ↔ EarlyCloseNoticed parseLine mem socket := receive_wholeBody_iff hbuf ht
    simp only [hbuf, true_implies, ← hbody, ht, Option.some.injEq, forall_eq', ← hover]
    exact ⟨fun h => ⟨h.inArrays, h.whole, h.closed⟩, fun h => ⟨h.1, h.2.1, h.2.2⟩⟩

/-- NULL or a message with all fields set, without a fault; NULL whenever the deserialiser
does not make a message of the header text. -/
structure RejectsCleanly (deserialize : DeserializeMemory → List UInt8 → Outcome (RawMessage L))
    (mem : ReceiveMemory) (socket : ByteSource UInt8) (r : Receive L) : Prop where
  noFault : ∀ f, r.outcome ≠ .fault f
  complete : ∀ raw, r.outcome = .returned raw → ∃ m : HTTPMessage L, raw = m.raw
  rejected : ∀ text, headerText socket = some text →
    (∀ raw, deserialize mem.message text ≠ .returned raw) → r.outcome = .null

private theorem receive_rejectsCleanly_iff (parseLine : List UInt8 → ParsedLine L)
    (mem : ReceiveMemory) (socket : ByteSource UInt8) :
    RejectsCleanly (deserializeHttpHeader parseLine) mem socket
        (receiveHttpMessage (deserializeHttpHeader parseLine) mem socket) ↔
      (mem.buffer = true → ∀ text, headerText socket = some text →
        AcceptsHead parseLine mem.message text) := by
  rcases receive_trichotomy parseLine mem socket with hno | ⟨hbuf, text, ht, hrej⟩ |
    ⟨hbuf, h, hh, hle, ht, hacc⟩
  · have hnull := (receive_of_no_text parseLine hno).1
    refine iff_of_true ⟨by simp [hnull], by simp [hnull], fun _ _ _ => hnull⟩
      fun hbuf text ht => ?_
    simp [hno hbuf] at ht
  · -- a rejected text is never handled cleanly
    obtain ⟨⟨f, hf, -⟩, -⟩ := receive_of_not_accepts hbuf ht hrej
    exact iff_of_false (fun hc => hc.noFault f hf) fun hc => hrej (hc hbuf text ht)
  · have honly : ∀ text, headerText socket = some text → text = headText socket h := by
      intro text ht'
      simpa [ht] using ht'.symm
    have hret : ∃ raw, deserializeHttpHeader parseLine mem.message (headText socket h) =
        .returned raw := by
      obtain ⟨_, _, _, -, -, -, hd⟩ := deserialize_of_accepts hacc
      exact ⟨_, hd⟩
    have hout := receive_outcome_of_accepts hbuf ht hacc
    refine iff_of_true ⟨fun f hf => ?_, fun raw hraw => ?_, fun text ht' hnot => ?_⟩
      fun _ text ht' => (honly text ht') ▸ hacc
    · rcases hout with hout | ⟨m, hout⟩ <;> simp [hout] at hf
    · rcases hout with hout | ⟨m, hout⟩
      · simp [hout] at hraw
      · exact ⟨m, by simpa [hout] using hraw.symm⟩
    · obtain ⟨raw, hd⟩ := hret
      exact absurd hd (honly text ht' ▸ hnot raw)

/-- The receive functions return NULL or a complete message, without touching a NULL message
or an unassigned field, exactly when every header text they read is one their deserialiser
accepts. -/
theorem rejectsCleanly_iff (mem : ReceiveMemory) (socket : ByteSource UInt8) :
    (RejectsCleanly deserializeHttpRequestHeader mem socket (receiveHttpRequest mem socket) ↔
      (mem.buffer = true → ∀ text, headerText socket = some text →
        AcceptsHead parseRequestLine mem.message text)) ∧
    (RejectsCleanly deserializeHttpResponseHeader mem socket (receiveHttpResponse mem socket) ↔
      (mem.buffer = true → ∀ text, headerText socket = some text →
        AcceptsHead parseResponseLine mem.message text)) :=
  ⟨receive_rejectsCleanly_iff parseRequestLine mem socket,
    receive_rejectsCleanly_iff parseResponseLine mem socket⟩

/-- A request line of two words: the message is NULL, and `find_header_value` is given its
headers. -/
theorem rejectsCleanly_two_words :
    ¬ RejectsCleanly deserializeHttpRequestHeader ReceiveMemory.ideal
      ⟨[bytes "GET /\r\n\r\n"], .closed⟩
      (receiveHttpRequest ReceiveMemory.ideal ⟨[bytes "GET /\r\n\r\n"], .closed⟩) :=
  fun h => h.noFault .nullMessage (by decide)

end SelectServer
