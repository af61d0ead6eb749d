import SelectServer.CLib.Numbers
import SelectServer.Shared.PacketWrites

/-!
# The transfer loops call by call

`recvall_with_flags` and `sendall_with_flags` with the variables they count in, a `ssize_t`
and a `size_t` that are updated separately, and with every `recv` and `send` they make. The
kernel is arbitrary: a function from its state and the number of bytes it is asked for to an
answer that is a possible one (`RecvAnswer`, `SendAnswer`). Every call asks for what is
missing, and the results are those of the loops over a socket and a script
(`recvallWithFlagsCalls_socket`, `sendallWithFlagsCalls_script`).
-/

namespace SelectServer

open CLib

variable {σ τ : Type*}

/-- Of some calls and the last one, with the results `ret`, only the last may have failed. -/
theorem failed_concat {α : Type*} {ret : α → Int} {calls : List α} (hpos : ∀ c ∈ calls, 0 < ret c)
    (last : α) : ∀ c ∈ calls ++ [last], ret c < 0 → ret last = ret c := by
  rw [List.forall_mem_append, List.forall_mem_singleton]
  exact ⟨fun c hc hneg => absurd (hpos c hc) (not_lt.mpr hneg.le), fun _ => rfl⟩

/-! ## Receiving -/

/-- The answer of the kernel to a `recv` of `requested` bytes. -/
inductive RecvAnswer (requested : Nat)
  | data (bs : List UInt8) (pos : 0 < bs.length) (le : bs.length ≤ requested)
  | closed
  | failed (ret : Int) (neg : ret < 0)

/-- What `recv` returns. -/
def RecvAnswer.ret {requested : Nat} : RecvAnswer requested → Int
  | .data bs _ _ => bs.length
  | .closed => 0
  | .failed ret _ => ret

/-- What `recv` stores. -/
def RecvAnswer.bytes {requested : Nat} : RecvAnswer requested → List UInt8
  | .data bs _ _ => bs
  | .closed | .failed _ _ => []

/-- A `recv` call with its answer. -/
structure RecvCall where
  requested : Nat
  answer : RecvAnswer requested

/-- The bytes that some calls have delivered. -/
def receivedBy (calls : List RecvCall) : List UInt8 := calls.flatMap fun c => c.answer.bytes

/-- What `recvall_with_flags` leaves behind: its result, the buffer, and the calls it has made. -/
structure RecvallRun (σ : Type*) where
  ret : Int
  buffer : Block
  calls : List RecvCall
  kernel : σ

/-- The loop of `recvall_with_flags`, with `total_received` and `bytes_left`. The condition
compares `total_received`, converted to `size_t`, with `len`. -/
def recvallCallsLoop (recv : σ → (n : Nat) → RecvAnswer n × σ) (len : Nat) :
    Nat → Int → Nat → Block → List RecvCall → σ → Option (RecvallRun σ)
  | 0, _, _, _, _, _ => none
  | fuel + 1, totalReceived, bytesLeft, buffer, calls, kernel =>
    if toSize totalReceived < len then
      let (answer, kernel) := recv kernel bytesLeft
      let calls := calls ++ [⟨bytesLeft, answer⟩]
      match answer with
      | .failed ret _ => some ⟨ret, buffer, calls, kernel⟩
      | .closed =>
        some ⟨totalReceived, buffer.store totalReceived.toNat [0], calls, kernel⟩
      | .data bs _ _ =>
        recvallCallsLoop recv len fuel (toSSize (totalReceived + bs.length))
          (toSize (bytesLeft - bs.length)) (buffer.store totalReceived.toNat bs) calls kernel
    else some ⟨totalReceived, buffer.store totalReceived.toNat [0], calls, kernel⟩

/-- `recvall_with_flags`. Every round but the last one delivers a byte, so `len + 1` rounds
are enough. -/
def recvallWithFlagsCalls (recv : σ → (n : Nat) → RecvAnswer n × σ) (buffer : Block)
    (kernel : σ) (len : Nat) : Option (RecvallRun σ) :=
  recvallCallsLoop recv len (len + 1) 0 len buffer [] kernel

/-- Each call requests, of `len` bytes, what the calls in front of it have left, and that is
not nothing. -/
def RequestsMissing (len : Nat) (calls : List RecvCall) : Prop :=
  ∀ i (h : i < calls.length), 0 < calls[i].requested ∧
    calls[i].requested = len - (receivedBy (calls.take i)).length

/-- The result that `recvall_with_flags` promises. -/
structure RecvallRun.Correct (r : RecvallRun σ) (len : Nat) : Prop where
  requests : RequestsMissing len r.calls
  /-- The loop goes on behind a positive answer only. -/
  goesOn : ∀ i (h : i + 1 < r.calls.length), 0 < r.calls[i].answer.ret
  /-- A negative answer is the result. -/
  failed : ∀ c ∈ r.calls, c.answer.ret < 0 → r.ret = c.answer.ret
  /-- Else the result is the number of bytes received, which are in the buffer with a NUL
  behind them, and either there are `len` of them or the connection has been closed. -/
  received : (∀ c ∈ r.calls, 0 ≤ c.answer.ret) →
    r.ret = (receivedBy r.calls).length ∧ r.buffer.Holds 0 (receivedBy r.calls ++ [0]) ∧
      ((receivedBy r.calls).length = len ∨ ∃ c ∈ r.calls, c.answer.ret = 0)
  bounded : (receivedBy r.calls).length ≤ len

@[simp] theorem receivedBy_append (xs ys : List RecvCall) :
    receivedBy (xs ++ ys) = receivedBy xs ++ receivedBy ys := List.flatMap_append

@[simp] theorem receivedBy_singleton (c : RecvCall) : receivedBy [c] = c.answer.bytes :=
  List.flatMap_singleton _ _

theorem requestsMissing_nil (len : Nat) : RequestsMissing len [] :=
  fun i h => absurd h (Nat.not_lt_zero i)

/-- One call more, for what is missing. -/
theorem RequestsMissing.concat {len : Nat} {calls : List RecvCall} (h : RequestsMissing len calls)
    (hlt : (receivedBy calls).length < len)
    (answer : RecvAnswer (len - (receivedBy calls).length)) :
    RequestsMissing len (calls ++ [⟨len - (receivedBy calls).length, answer⟩]) := by
  intro i hi
  by_cases hold : i < calls.length
  · -- a call that was there before
    rw [List.getElem_append_left hold, List.take_append_of_le_length hold.le]
    exact h i hold
  · have hlast : i = calls.length := by
      rw [List.length_append, List.length_singleton] at hi
      omega
    subst hlast
    rw [List.getElem_concat_length rfl, List.take_left]
    exact ⟨Nat.sub_pos_of_lt hlt, rfl⟩

/-- Only the last of the calls may be the one that ends the loop. -/
theorem goesOn_concat {calls : List RecvCall} (h : ∀ c ∈ calls, 0 < c.answer.ret)
    (last : RecvCall) (i : Nat) (hi : i + 1 < (calls ++ [last]).length) :
    0 < (calls ++ [last])[i].answer.ret := by
  have hold : i < calls.length := by
    rw [List.length_append, List.length_singleton] at hi
    omega
  rw [List.getElem_append_left hold]
  exact h _ (List.getElem_mem hold)

/-- A run that ends with a terminator. -/
theorem RecvallRun.correct_of_terminated {len : Nat} {buffer : Block} {calls : List RecvCall}
    (kernel : σ) (hrequests : RequestsMissing len calls)
    (hgoesOn : ∀ i (h : i + 1 < calls.length), 0 < calls[i].answer.ret)
    (hnonneg : ∀ c ∈ calls, 0 ≤ c.answer.ret) (hholds : buffer.Holds 0 (receivedBy calls))
    (hle : (receivedBy calls).length ≤ len)
    (hend : (receivedBy calls).length = len ∨ ∃ c ∈ calls, c.answer.ret = 0) :
    RecvallRun.Correct ⟨(receivedBy calls).length,
      buffer.store (receivedBy calls).length [0], calls, kernel⟩ len where
  requests := hrequests
  goesOn := hgoesOn
  failed c hc hneg := absurd (hnonneg c hc) (Int.not_le.mpr hneg)
  received _ := ⟨rfl, hholds.concat [0] (Nat.zero_add _), hend⟩
  bounded := hle

/-- The loop from any round on: the calls so far have all been answered with bytes, which are
at the start of the buffer, and both counters agree with them. -/
theorem recvallCallsLoop_correct (recv : σ → (n : Nat) → RecvAnswer n × σ) {len : Nat}
    (hlen : len < 2 ^ 63) (fuel : Nat) {buffer : Block} {calls : List RecvCall} (kernel : σ)
    (hrequests : RequestsMissing len calls) (hpos : ∀ c ∈ calls, 0 < c.answer.ret)
    (hholds : buffer.Holds 0 (receivedBy calls)) (hle : (receivedBy calls).length ≤ len)
    (hfuel : len - (receivedBy calls).length < fuel) :
    ∃ r, recvallCallsLoop recv len fuel (receivedBy calls).length
        (len - (receivedBy calls).length) buffer calls kernel = some r ∧ r.Correct len := by
  induction fuel generalizing buffer calls kernel with
  | zero => omega
  | succ fuel ih =>
    have htotal : toSize ((receivedBy calls).length : Int) = (receivedBy calls).length :=
      toSize_natCast (by omega)
    rw [recvallCallsLoop, htotal, Int.toNat_natCast]
    by_cases hlt : (receivedBy calls).length < len
    · rw [if_pos hlt]
      cases hr : recv kernel (len - (receivedBy calls).length) with
      | mk answer kernel' =>
        -- the call asked for what was missing, and it is the last one unless it returned bytes
        have hrequests' := hrequests.concat hlt answer
        have hgoesOn := goesOn_concat hpos ⟨len - (receivedBy calls).length, answer⟩
        cases answer with
        | failed ret neg =>
          refine ⟨_, rfl, hrequests', hgoesOn, failed_concat hpos _, ?_, ?_⟩
          · intro hall
            exact absurd (hall _ (List.mem_append_right _ (List.mem_singleton_self _)))
              (Int.not_le.mpr neg)
          · simpa [RecvAnswer.bytes] using hle
        | closed =>
          have hsame : receivedBy (calls ++ [⟨len - (receivedBy calls).length, .closed⟩]) =
              receivedBy calls := by simp [RecvAnswer.bytes]
          refine ⟨_, rfl, ?_⟩
          -- no call has failed, so the result is the count
          have hnonneg : ∀ c ∈ calls ++ [⟨len - (receivedBy calls).length, .closed⟩],
              0 ≤ c.answer.ret :=
            List.forall_mem_append.mpr
              ⟨fun c hc => (hpos c hc).le, List.forall_mem_singleton.mpr le_rfl⟩
          have hcorrect := RecvallRun.correct_of_terminated kernel' hrequests' hgoesOn hnonneg
            (by rwa [hsame]) (by rwa [hsame])
            (.inr ⟨_, List.mem_append_right _ (List.mem_singleton_self _), rfl⟩)
          rwa [hsame] at hcorrect
        | data bs pos le =>
          -- both counters move by the number of bytes, and nothing wraps around
          have hlength : (receivedBy (calls ++ [⟨len - (receivedBy calls).length,
              .data bs pos le⟩])).length = (receivedBy calls).length + bs.length := by
            simp [RecvAnswer.bytes]
          have htotal' : toSSize (((receivedBy calls).length : Int) + bs.length) =
              ((receivedBy calls).length + bs.length : Nat) := by
            rw [← Nat.cast_add]
            exact toSSize_natCast (by omega)
          have hleft : toSize (((len - (receivedBy calls).length : Nat) : Int) - bs.length) =
              len - ((receivedBy calls).length + bs.length) := by
            rw [← Nat.cast_sub le, toSize_natCast (by omega)]
            omega
          simp only [htotal', hleft, ← hlength]
          refine ih kernel' hrequests' ?_ ?_ (by omega) (by omega)
          · apply List.forall_mem_append.mpr ⟨hpos, List.forall_mem_singleton.mpr ?_⟩
            exact Int.natCast_pos.mpr pos
          · rw [receivedBy_append, receivedBy_singleton]
            exact hholds.concat bs (Nat.zero_add _)
    · rw [if_neg hlt]
      -- all bytes are there
      have hfull : (receivedBy calls).length = len := by omega
      exact ⟨_, rfl, RecvallRun.correct_of_terminated kernel hrequests
        (fun i h => hpos _ (List.getElem_mem _)) (fun c hc => (hpos c hc).le) hholds hle
        (.inl hfull)⟩

/-! ## Sending -/

/-- The answer of the kernel to a `send` of `offered` bytes: it accepts some of them, or fails. -/
inductive SendAnswer (offered : Nat)
  | accepted (k : Nat) (pos : 0 < k) (le : k ≤ offered)
  | failed (ret : Int) (neg : ret < 0)

/-- What `send` returns. -/
def SendAnswer.ret {offered : Nat} : SendAnswer offered → Int
  | .accepted k _ _ => k
  | .failed ret _ => ret

/-- How many bytes the kernel has taken. -/
def SendAnswer.taken {offered : Nat} : SendAnswer offered → Nat
  | .accepted k _ _ => k
  | .failed _ _ => 0

/-- A `send` call: where in the buffer its bytes start, how many it offers, and the answer. -/
structure SendCall where
  offset : Nat
  offered : Nat
  answer : SendAnswer offered

/-- What some calls have handed over of a buffer. -/
def handedOver (data : List UInt8) (calls : List SendCall) : List UInt8 :=
  calls.flatMap fun c => (data.drop c.offset).take c.answer.taken

/-- What `sendall_with_flags` leaves behind. -/
structure SendallRun (σ : Type*) where
  ret : Int
  calls : List SendCall
  kernel : σ

/-- The loop of `sendall_with_flags`, with `total_sent`; what it returns at its end is
converted to `ssize_t`. -/
def sendallCallsLoop (send : σ → (n : Nat) → SendAnswer n × σ) (len : Nat) :
    Nat → Nat → List SendCall → σ → Option (SendallRun σ)
  | 0, _, _, _ => none
  | fuel + 1, totalSent, calls, kernel =>
    if totalSent < len then
      let (answer, kernel) := send kernel (len - totalSent)
      let calls := calls ++ [⟨totalSent, len - totalSent, answer⟩]
      match answer with
      | .failed ret _ => some ⟨ret, calls, kernel⟩
      | .accepted k _ _ =>
        sendallCallsLoop send len fuel (toSize (totalSent + k : Nat)) calls kernel
    else some ⟨toSSize totalSent, calls, kernel⟩

/-- `sendall_with_flags`. -/
def sendallWithFlagsCalls (send : σ → (n : Nat) → SendAnswer n × σ) (kernel : σ) (len : Nat) :
    Option (SendallRun σ) :=
  sendallCallsLoop send len (len + 1) 0 [] kernel

/-- The result that `sendall_with_flags` promises for a buffer of `len` bytes. -/
structure SendallRun.Correct (r : SendallRun σ) (data : List UInt8) (len : Nat) : Prop where
  /-- A negative answer is the result. -/
  failed : ∀ c ∈ r.calls, c.answer.ret < 0 → r.ret = c.answer.ret
  /-- Else every byte has been handed over, once and in order. -/
  sent : (∀ c ∈ r.calls, 0 < c.answer.ret) →
    r.ret = len ∧ handedOver data r.calls = data.take len
  /-- What has been handed over is the beginning of the buffer in any case. -/
  handed_over : handedOver data r.calls <+: data.take len

theorem handedOver_append (data : List UInt8) (xs ys : List SendCall) :
    handedOver data (xs ++ ys) = handedOver data xs ++ handedOver data ys := List.flatMap_append

/-- The next call hands over what stands next in the buffer. -/
theorem handedOver_concat {data : List UInt8} {calls : List SendCall} {sent : Nat}
    (h : handedOver data calls = data.take sent) {offered : Nat} (answer : SendAnswer offered) :
    handedOver data (calls ++ [⟨sent, offered, answer⟩]) =
      data.take (sent + answer.taken) := by
  rw [handedOver_append, h, List.take_add]
  exact congrArg (data.take sent ++ ·) (List.flatMap_singleton _ _)

/-- The loop from any round on: the calls so far have handed over the first `sent` bytes. -/
theorem sendallCallsLoop_correct (send : σ → (n : Nat) → SendAnswer n × σ) {len : Nat}
    (hlen : len < 2 ^ 63) (data : List UInt8) (fuel : Nat) {sent : Nat} {calls : List SendCall}
    (kernel : σ) (hpos : ∀ c ∈ calls, 0 < c.answer.ret)
    (hsent : handedOver data calls = data.take sent) (hle : sent ≤ len)
    (hfuel : len - sent < fuel) :
    ∃ r, sendallCallsLoop send len fuel sent calls kernel = some r ∧ r.Correct data len := by
  induction fuel generalizing sent calls kernel with
  | zero => omega
  | succ fuel ih =>
    rw [sendallCallsLoop]
    by_cases hlt : sent < len
    · rw [if_pos hlt]
      cases hs : send kernel (len - sent) with
      | mk answer kernel' =>
        have hsent' := handedOver_concat hsent answer
        cases answer with
        | failed ret neg =>
          refine ⟨_, rfl, failed_concat hpos _, ?_, ?_⟩
          · intro hall
            exact absurd (hall _ (List.mem_append_right _ (List.mem_singleton_self _)))
              (not_lt.mpr neg.le)
          · rw [hsent']
            exact List.take_prefix_take_left (by simpa [SendAnswer.taken] using hle)
        | accepted k pos le =>
          have htotal : toSize ((sent + k : Nat) : Int) = sent + k := toSize_natCast (by omega)
          rw [SendAnswer.taken] at hsent'
          simp only [htotal]
          refine ih kernel' ?_ hsent' (by omega) (by omega)
          apply List.forall_mem_append.mpr ⟨hpos, List.forall_mem_singleton.mpr ?_⟩
          exact Int.natCast_pos.mpr pos
    · rw [if_neg hlt]
      obtain rfl : sent = len := by omega
      refine ⟨_, rfl, fun c hc hneg => absurd (hpos c hc) (not_lt.mpr hneg.le), ?_, ?_⟩
      · intro _
        refine ⟨?_, ?_⟩
        · rw [toSSize_natCast hlen]
        · exact hsent
      · rw [hsent]

/-- The answers of a socket. -/
def socketRecv (socket : ByteSource UInt8) (n : Nat) : RecvAnswer n × ByteSource UInt8 :=
  match h : socket.read n with
  | (.data bs, socket') =>
    if hpos : 0 < bs.length then (.data bs hpos (ByteSource.length_le_of_read h), socket')
    else (.closed, socket')
  | (.ended .closed, socket') => (.closed, socket')
  | (.ended .failed, socket') => (.failed (-1) (by decide), socket')

/-- The answers of a script. -/
def scriptSend (script : List SendResult) (n : Nat) : SendAnswer n × List SendResult :=
  if h : 0 < n then
    match script with
    | [] => (.accepted n h le_rfl, [])
    | .failed :: script => (.failed (-1) (by decide), script)
    | .accepted k :: script => (.accepted (max 1 (min k n)) (by omega) (by omega), script)
  else (.failed (-1) (by decide), script)

theorem socketRecv_data {socket socket' : ByteSource UInt8} {n : Nat} {bs : List UInt8}
    (h : socket.read n = (.data bs, socket')) (hpos : 0 < bs.length) :
    socketRecv socket n = (.data bs hpos (ByteSource.length_le_of_read h), socket') := by
  unfold socketRecv
  split
  all_goals
    rename_i hread
    cases h.symm.trans hread
  rw [dif_pos hpos]

theorem socketRecv_closed {socket socket' : ByteSource UInt8} {n : Nat}
    (h : socket.read n = (.ended .closed, socket')) :
    socketRecv socket n = (.closed, socket') := by
  unfold socketRecv
  split
  all_goals
    rename_i hread
    cases h.symm.trans hread
  rfl

theorem socketRecv_failed {socket socket' : ByteSource UInt8} {n : Nat}
    (h : socket.read n = (.ended .failed, socket')) :
    socketRecv socket n = (.failed (-1) (by decide), socket') := by
  unfold socketRecv
  split
  all_goals
    rename_i hread
    cases h.symm.trans hread
  rfl

/-- Over a socket the loop is the one that stores into a block and knows no calls. -/
theorem recvallCallsLoop_socket {len : Nat} (hlen : len < 2 ^ 63) (fuel : Nat) {total : Nat}
    (hle : total ≤ len) (hfuel : len - total ≤ fuel) (buffer : Block) (calls : List RecvCall)
    (socket : ByteSource UInt8) :
    ∃ calls', recvallCallsLoop socketRecv len (fuel + 1) total (len - total) buffer calls socket =
      some ⟨(recvallIntoLoop len fuel total buffer socket).ret,
        (recvallIntoLoop len fuel total buffer socket).block, calls',
        (recvallIntoLoop len fuel total buffer socket).socket⟩ := by
  have htotal : toSize (total : Int) = total := toSize_natCast (by omega)
  induction fuel generalizing total buffer calls socket with
  | zero =>
    rw [recvallCallsLoop, htotal, if_neg (by omega)]
    exact ⟨calls, rfl⟩
  | succ fuel ih =>
    rw [recvallCallsLoop, recvallIntoLoop, htotal]
    by_cases hlt : total < len
    · rw [if_pos hlt, if_pos hlt]
      cases hread : socket.read (len - total) with
      | mk res socket' =>
        cases res with
        | ended e =>
          cases e with
          | closed =>
            rw [socketRecv_closed hread]
            exact ⟨_, rfl⟩
          | failed =>
            rw [socketRecv_failed hread]
            exact ⟨_, rfl⟩
        | data bs =>
          have hpos := ByteSource.length_pos_of_read hread (Nat.sub_pos_of_lt hlt)
          have hbs := ByteSource.length_le_of_read hread
          have htotal' : toSSize ((total : Int) + bs.length) = (total + bs.length : Nat) := by
            rw [← Nat.cast_add]
            exact toSSize_natCast (by omega)
          have hleft : toSize (((len - total : Nat) : Int) - bs.length) =
              len - (total + bs.length) := by
            rw [← Nat.cast_sub hbs, toSize_natCast (by omega)]
            omega
          simp only [socketRecv_data hread hpos, htotal', hleft]
          exact ih (by omega) (by omega) _ _ socket' (toSize_natCast (by omega))
    · rw [if_neg hlt, if_neg hlt]
      exact ⟨calls, rfl⟩

/-- `recvall` over a socket is `recvallInto`, with the calls it makes. -/
theorem recvallWithFlagsCalls_socket {len : Nat} (hlen : len < 2 ^ 63) (buffer : Block)
    (socket : ByteSource UInt8) :
    ∃ calls, recvallWithFlagsCalls socketRecv buffer socket len =
      some ⟨(recvallInto buffer socket len).ret, (recvallInto buffer socket len).block, calls,
        (recvallInto buffer socket len).socket⟩ :=
  recvallCallsLoop_socket hlen len (Nat.zero_le _) le_rfl buffer [] socket

theorem sendallLoop_done (data : List UInt8) (script : List SendResult) :
    sendallLoop data script data.length = ⟨data.length, [], script⟩ := by
  cases script <;> simp [sendallLoop]

/-- The run that ends as the loop over the script does, behind some calls that have been made. -/
def SendallRun.ExtendsTo (r : SendallRun (List SendResult)) (data : List UInt8)
    (calls : List SendCall) (q : Sendall) : Prop :=
  r.ret = q.ret ∧ handedOver data r.calls = handedOver data calls ++ q.wire ∧ r.kernel = q.script

/-- Over a script the loop hands over the bytes that the one without calls does. -/
theorem sendallCallsLoop_script {data : List UInt8} (hlen : data.length < 2 ^ 63) (fuel : Nat)
    {sent : Nat} (hle : sent ≤ data.length) (hfuel : data.length - sent ≤ fuel)
    (calls : List SendCall) (script : List SendResult) :
    ∃ r, sendallCallsLoop scriptSend data.length (fuel + 1) sent calls script = some r ∧
      r.ExtendsTo data calls (sendallLoop data script sent) := by
  induction fuel generalizing sent calls script with
  | zero =>
    obtain rfl : sent = data.length := by omega
    rw [sendallCallsLoop, if_neg (lt_irrefl _), toSSize_natCast hlen, sendallLoop_done]
    exact ⟨_, rfl, rfl, (List.append_nil _).symm, rfl⟩
  | succ fuel ih =>
    rw [sendallCallsLoop]
    by_cases hlt : sent < data.length
    · have hpos : 0 < data.length - sent := Nat.sub_pos_of_lt hlt
      rw [if_pos hlt]
      cases script with
      | nil =>
        -- the kernel takes the rest, and the next round ends the loop
        have htotal : toSize ((sent + (data.length - sent) : Nat) : Int) = data.length := by
          rw [toSize_natCast (by omega)]
          omega
        simp only [scriptSend, dif_pos hpos, htotal]
        obtain ⟨r, hr, hret, hwire, hkernel⟩ := ih le_rfl (by omega)
          (calls ++ [⟨sent, data.length - sent, .accepted (data.length - sent) hpos le_rfl⟩]) []
        refine ⟨r, hr, ?_, ?_, ?_⟩
        · rw [hret, sendallLoop_done, sendallLoop]
        · rw [hwire, sendallLoop_done, sendallLoop, handedOver_append]
          simp [handedOver, SendAnswer.taken]
        · rw [hkernel, sendallLoop_done, sendallLoop]
      | cons answer script =>
        simp only [sendallLoop, if_pos hlt]
        cases answer with
        | failed =>
          simp only [scriptSend, dif_pos hpos]
          exact ⟨_, rfl, rfl, by simp [handedOver, SendAnswer.taken], rfl⟩
        | accepted k =>
          -- the kernel takes some bytes at least, and no more than it was offered
          have htotal : toSize ((sent + max 1 (min k (data.length - sent)) : Nat) : Int) =
              sent + max 1 (min k (data.length - sent)) := toSize_natCast (by omega)
          simp only [scriptSend, dif_pos hpos, htotal]
          have hnext : sent + max 1 (min k (data.length - sent)) ≤ data.length := by omega
          obtain ⟨r, hr, hret, hwire, hkernel⟩ := ih hnext (by omega)
            (calls ++ [⟨sent, data.length - sent, .accepted
              (max 1 (min k (data.length - sent))) (by omega) (by omega)⟩]) script
          refine ⟨r, hr, hret, ?_, hkernel⟩
          rw [hwire, handedOver_append, List.append_assoc]
          simp [handedOver, SendAnswer.taken]
    · obtain rfl : sent = data.length := by omega
      rw [if_neg hlt, toSSize_natCast hlen, sendallLoop_done]
      exact ⟨_, rfl, rfl, (List.append_nil _).symm, rfl⟩

/-- `sendall` over a script, with the calls it makes. -/
theorem sendallWithFlagsCalls_script {data : List UInt8} (hlen : data.length < 2 ^ 63)
    (script : List SendResult) :
    ∃ r, sendallWithFlagsCalls scriptSend script data.length = some r ∧
      r.ExtendsTo data [] (sendall data script) :=
  sendallCallsLoop_script hlen data.length (Nat.zero_le _) le_rfl [] script

end SelectServer
