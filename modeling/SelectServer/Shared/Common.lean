import SelectServer.CLib.Streams

/-!
# Transfer loops of `shared/common.c`

`recvall_with_flags` and `sendall_with_flags`: the loops that turn partial `recv` and
`send` calls into transfers of a whole buffer. The receiving loop is an instance of
`CLib.fill`, which gives its result for every segmentation of the stream.
-/

namespace SelectServer

open CLib

/-! ## Receiving -/

/-- What `recvall` leaves behind: its result, the bytes it stored and the socket. -/
structure Recvall where
  ret : Int
  received : List UInt8
  socket : ByteSource UInt8
  deriving DecidableEq, Repr

/-- The loop of `recvall_with_flags`, with `total_received` the length of `received`. -/
def recvallLoop (len : Nat) : Nat → List UInt8 → Nat → ByteSource UInt8 → Recvall
  | 0, received, _, socket => ⟨received.length, received, socket⟩
  | fuel + 1, received, bytesLeft, socket =>
    if received.length < len then
      match socket.read bytesLeft with
      | (.ended .failed, socket') => ⟨-1, received, socket'⟩
      -- a close is no error here: the count so far is reported
      | (.ended .closed, socket') => ⟨received.length, received, socket'⟩
      | (.data bs, socket') =>
        recvallLoop len fuel (received ++ bs) (bytesLeft - bs.length) socket'
    else ⟨received.length, received, socket⟩

/-- `recvall_with_flags`: every `recv` that does not end the loop stores at least one byte,
so `len` rounds are enough. -/
def recvallWithFlags (socket : ByteSource UInt8) (len : Nat) : Recvall :=
  recvallLoop len len [] len socket

/-- `recvall`. -/
def recvall (socket : ByteSource UInt8) (len : Nat) : Recvall := recvallWithFlags socket len

/-- The result of `recvall` in terms of the generic reading loop. -/
def Recvall.ofFilled (f : Filled UInt8) : Recvall where
  ret := if f.status = .ended .failed then -1 else f.buffer.length
  received := f.buffer
  socket := f.source

theorem recvallLoop_eq_fill (len : Nat) {fuel : Nat} {received : List UInt8} {bytesLeft : Nat}
    (socket : ByteSource UInt8) (h : bytesLeft = len - received.length) :
    recvallLoop len fuel received bytesLeft socket =
      .ofFilled (fill len (fun _ => false) fuel received socket) := by
  induction fuel generalizing received bytesLeft socket with
  | zero => simp [recvallLoop, fill, Recvall.ofFilled]
  | succ fuel ih =>
    subst h
    simp only [recvallLoop, fill]
    split
    · cases hr : socket.read (len - received.length) with
      | mk res socket' =>
        cases res with
        | data bs =>
          have hleft : len - received.length - bs.length = len - (received ++ bs).length := by
            simp only [List.length_append]
            omega
          simpa using ih socket' hleft
        | ended e => cases e <;> simp [Recvall.ofFilled]
    · simp [Recvall.ofFilled]

/-- `recvall` stores what the stream delivers, up to `len` bytes. It reports the number of
bytes stored, an early close included; only a failing `recv` gives `-1`. -/
theorem recvall_spec (socket : ByteSource UInt8) (len : Nat) :
    ∃ socket', recvall socket len =
        ⟨if len ≤ socket.bytes.length ∨ socket.ending = .closed
          then min len socket.bytes.length else -1, socket.bytes.take len, socket'⟩ ∧
      socket'.bytes = socket.bytes.drop len ∧ socket'.ending = socket.ending := by
  obtain ⟨s', hfill, hbytes, hend⟩ := fill_exhausts len (fun _ => false) len [] socket
    (by simp) (by simp) (by simp)
  refine ⟨s', ?_, by simpa using hbytes, hend⟩
  rw [recvall, recvallWithFlags, recvallLoop_eq_fill len socket (by simp), hfill]
  by_cases hlen : len ≤ socket.bytes.length
  · simp [Recvall.ofFilled, hlen]
  · cases he : socket.ending <;> simp [Recvall.ofFilled, hlen]

/-- With enough bytes to come, `recvall` fills its buffer. -/
theorem recvall_full {socket : ByteSource UInt8} {len : Nat} (h : len ≤ socket.bytes.length) :
    ∃ socket', recvall socket len = ⟨len, socket.bytes.take len, socket'⟩ ∧
      socket'.bytes = socket.bytes.drop len ∧ socket'.ending = socket.ending := by
  obtain ⟨socket', hrecv, hrest⟩ := recvall_spec socket len
  rw [if_pos (Or.inl h), min_eq_left (by exact_mod_cast h)] at hrecv
  exact ⟨socket', hrecv, hrest⟩

/-- At a close `recvall` reports what came before it. -/
theorem recvall_closed {socket : ByteSource UInt8} {len : Nat} (h : socket.bytes.length ≤ len)
    (hclosed : socket.ending = .closed) :
    ∃ socket', recvall socket len = ⟨socket.bytes.length, socket.bytes, socket'⟩ := by
  obtain ⟨socket', hrecv, -, -⟩ := recvall_spec socket len
  rw [if_pos (Or.inr hclosed), min_eq_right (by exact_mod_cast h),
    List.take_of_length_le h] at hrecv
  exact ⟨socket', hrecv⟩

/-- With too few bytes to come, `recvall` does not report a full buffer. -/
theorem recvall_short {socket : ByteSource UInt8} {len : Nat} (h : socket.bytes.length < len) :
    (recvall socket len).ret < len := by
  obtain ⟨socket', hrecv, -, -⟩ := recvall_spec socket len
  rw [hrecv]
  simp only
  split <;> omega

/-! ## Sending -/

/-- The answer of the kernel to one `send`. -/
inductive SendResult
  | accepted (k : Nat)
  | failed
  deriving DecidableEq, Repr

/-- What `sendall` leaves behind: its result, the bytes handed to the kernel and the
answers not used up. -/
structure Sendall where
  ret : Int
  wire : List UInt8
  script : List SendResult
  deriving DecidableEq, Repr

/-- The loop of `sendall_with_flags`, with `total_sent = sent`. A `send` accepts between one
byte and all that is offered; a kernel whose script has run out accepts all of it. -/
def sendallLoop (data : List UInt8) : List SendResult → Nat → Sendall
  | [], sent => ⟨data.length, data.drop sent, []⟩
  | r :: script, sent =>
    if sent < data.length then
      match r with
      | .failed => ⟨-1, [], script⟩
      | .accepted k =>
        let bytesSent := max 1 (min k (data.length - sent))
        let rest := sendallLoop data script (sent + bytesSent)
        { rest with wire := (data.drop sent).take bytesSent ++ rest.wire }
    else ⟨sent, [], r :: script⟩

/-- `sendall`. -/
def sendall (data : List UInt8) (script : List SendResult) : Sendall := sendallLoop data script 0

private theorem sendallLoop_spec (data : List UInt8) {script : List SendResult}
    (h : .failed ∉ script) {sent : Nat} (hle : sent ≤ data.length) :
    (sendallLoop data script sent).ret = data.length ∧
      (sendallLoop data script sent).wire = data.drop sent := by
  induction script generalizing sent with
  | nil => simp [sendallLoop]
  | cons r script ih =>
    simp only [sendallLoop]
    by_cases hlt : sent < data.length
    · cases r with
      | failed => simp at h
      | accepted k =>
        -- no more is accepted than is offered
        have hnext : sent + max 1 (min k (data.length - sent)) ≤ data.length := by omega
        obtain ⟨hret, hwire⟩ := ih (fun hm => h (List.mem_cons_of_mem _ hm)) hnext
        simp only [if_pos hlt, hret, hwire, true_and]
        rw [← List.drop_drop, List.take_append_drop]
    · have heq : sent = data.length := by omega
      simp [heq]

/-- When no `send` fails, `sendall` hands over every byte once and in order, however the
kernel splits the transfer. -/
theorem sendall_spec (data : List UInt8) {script : List SendResult} (h : .failed ∉ script) :
    (sendall data script).ret = data.length ∧ (sendall data script).wire = data := by
  simpa [sendall] using sendallLoop_spec data h (Nat.zero_le _)

private theorem sendallLoop_whole (data : List UInt8) (script : List SendResult) {sent : Nat}
    (hle : sent ≤ data.length) (hret : 0 ≤ (sendallLoop data script sent).ret) :
    (sendallLoop data script sent).ret = data.length ∧
      (sendallLoop data script sent).wire = data.drop sent := by
  induction script generalizing sent with
  | nil => simp [sendallLoop]
  | cons r script ih =>
    simp only [sendallLoop] at hret ⊢
    by_cases hlt : sent < data.length
    · rw [if_pos hlt] at hret ⊢
      cases r with
      | failed => simp at hret
      | accepted k =>
        have hnext : sent + max 1 (min k (data.length - sent)) ≤ data.length := by omega
        obtain ⟨hret, hwire⟩ := ih hnext hret
        simp only [hret, hwire, true_and]
        rw [← List.drop_drop, List.take_append_drop]
    · have heq : sent = data.length := by omega
      simp [heq]

/-- A `sendall` that reports no error has handed over every byte. -/
theorem sendall_whole {data : List UInt8} {script : List SendResult}
    (hret : 0 ≤ (sendall data script).ret) :
    (sendall data script).ret = data.length ∧ (sendall data script).wire = data := by
  simpa [sendall] using sendallLoop_whole data script (Nat.zero_le _) hret

/-- A `send` fails before `n` bytes are accepted; each one in front of it takes at least one. -/
def CutShort (script : List SendResult) (n : Nat) : Prop :=
  ∃ (taken : List Nat) (rest : List SendResult),
    script = taken.map .accepted ++ .failed :: rest ∧ (taken.map (max 1)).sum < n

theorem not_cutShort_nil (n : Nat) : ¬ CutShort [] n := by
  rintro ⟨taken, rest, hscript, -⟩
  exact List.append_ne_nil_of_right_ne_nil _ (List.cons_ne_nil _ _) hscript.symm

theorem cutShort_failed_iff {script : List SendResult} {n : Nat} :
    CutShort (.failed :: script) n ↔ 0 < n := by
  constructor
  · rintro ⟨taken, rest, -, hlt⟩
    omega
  · exact fun hpos => ⟨[], script, rfl, hpos⟩

theorem cutShort_accepted_iff {k : Nat} {script : List SendResult} {n : Nat} :
    CutShort (.accepted k :: script) n ↔ CutShort script (n - max 1 k) := by
  constructor
  · rintro ⟨taken, rest, hscript, hlt⟩
    cases taken with
    | nil => simp at hscript
    | cons k' taken =>
      simp only [List.map_cons, List.cons_append, List.cons.injEq, SendResult.accepted.injEq]
        at hscript
      obtain ⟨rfl, rfl⟩ := hscript
      rw [List.map_cons, List.sum_cons] at hlt
      exact ⟨taken, rest, rfl, by omega⟩
  · rintro ⟨taken, rest, rfl, hlt⟩
    refine ⟨k :: taken, rest, rfl, ?_⟩
    rw [List.map_cons, List.sum_cons]
    omega

private theorem sendallLoop_cutShort (data : List UInt8) (script : List SendResult) (sent : Nat) :
    (sendallLoop data script sent).ret < 0 ↔ CutShort script (data.length - sent) := by
  induction script generalizing sent with
  | nil =>
    refine iff_of_false ?_ (not_cutShort_nil _)
    simp [sendallLoop]
  | cons r script ih =>
    simp only [sendallLoop]
    by_cases hlt : sent < data.length
    · rw [if_pos hlt]
      cases r with
      | failed =>
        rw [cutShort_failed_iff]
        exact iff_of_true (by simp) (by omega)
      | accepted k =>
        -- an answer that accepts more than is offered ends the loop
        have hleft : data.length - (sent + max 1 (min k (data.length - sent))) =
            data.length - sent - max 1 k := by omega
        rw [cutShort_accepted_iff, ← hleft]
        exact ih _
    · rw [if_neg hlt, show data.length - sent = 0 by omega]
      refine iff_of_false (by simp) ?_
      rintro ⟨taken, rest, -, hsum⟩
      exact Nat.not_lt_zero _ hsum

/-- `sendall` reports an error exactly if a `send` fails before the last byte is accepted. -/
theorem sendall_fails_iff (data : List UInt8) (script : List SendResult) :
    (sendall data script).ret < 0 ↔ CutShort script data.length := by
  rw [sendall, sendallLoop_cutShort, Nat.sub_zero]

end SelectServer
