import SelectServer.Shared.SimplePacket
import SelectServer.Server.HttpWrite
import SelectServer.Systems.Transition
import SelectServer.Systems.Turns

/-!
# The simple TCP handlers of `server/server.c`

`handle_client_simple_read` receives a packet into the record of its client;
`handle_client_simple_write` answers `PONG` when that packet contains `PING`, and sends a
greeting otherwise. Select decides which of them a pass runs.

A connection is modelled with the log of the frames it read and sent. What was read and
asks for an answer is what the record holds (`simplePass_inv`), so a `PONG` is only sent to
a `PING` (`pong_solicited`), and each `PING` is answered before the next read exactly if no
read finds one waiting (`pings_answered`).
-/

namespace SelectServer

open CLib Systems

/-! ## Constants -/

/-- `THREAD_RESULT_CLOSED`. -/
def threadResultClosed : Int := 1

/-- The request of a client. -/
def ping : List UInt8 := bytes "PING"

/-- The answer to it. -/
def pong : List UInt8 := bytes "PONG"

/-- The initial message of the server. -/
def greeting : List UInt8 := bytes "Hola, soy el server"

/-! ## State and environment -/

/-- `Client_Tcp_Data`, less the address that is only logged. -/
structure ClientTcpData where
  clientSockfd : Int
  packet : Option SimplePacket
  deriving DecidableEq, Repr

/-- How a handler ends: NULL, a `Thread_Result` with the record it leaves, or undefined
behaviour. -/
inductive HandlerResult (α : Type)
  | null
  | returned (value : Int) (data : α)
  | fault
  deriving DecidableEq, Repr

/-- A run of the read handler: its result and what is left of the stream. -/
structure SimpleRead where
  outcome : HandlerResult ClientTcpData
  socket : ByteSource UInt8
  deriving DecidableEq, Repr

/-- The answers of the system to the write handler: its `malloc` calls and `send`. -/
structure SimpleWriteEnv where
  threadResult : Bool
  memory : PacketMemory
  buffer : Bool
  script : List SendResult
  deriving DecidableEq, Repr

/-- No call fails. -/
def SimpleWriteEnv.Succeeds (env : SimpleWriteEnv) : Prop :=
  env.threadResult = true ∧ env.memory.Succeeds ∧ env.buffer = true ∧ .failed ∉ env.script

/-- A system in which no call fails. -/
def SimpleWriteEnv.ideal : SimpleWriteEnv := ⟨true, .ideal, true, []⟩

/-- A run of the write handler: its result and the bytes handed over. -/
structure SimpleWrite where
  outcome : HandlerResult ClientTcpData
  wire : List UInt8
  deriving DecidableEq, Repr

/-! ## The handlers -/

/-- `handle_client_simple_read`. -/
def handleClientSimpleRead (threadResult : Bool) (memory : PacketMemory)
    (arg : Option ClientTcpData) (socket : ByteSource UInt8) : SimpleRead :=
  match arg with
  | none => ⟨.null, socket⟩
  | some data =>
    if threadResult then
      let r := recvSimplePacket memory data.packet socket
      if r.ret = 0 then ⟨.returned threadResultClosed { data with packet := none }, r.socket⟩
      else if r.ret < 0 then
        ⟨.returned threadResultError { data with packet := none }, r.socket⟩
      else ⟨.returned threadResultSuccess { data with packet := r.packet }, r.socket⟩
    else ⟨.null, socket⟩

/-- The text contains `PING`. -/
def containsPing (s : List UInt8) : Bool := (strstr ping s).isSome

/-- The condition of the write handler: a packet whose string contains `PING`. -/
def pingPending (packet : Option SimplePacket) : Bool :=
  match packet with
  | none => false
  | some packet => containsPing (cstr packet.data)

/-- The common part of both branches: a packet is created and sent. -/
def sendMessage (env : SimpleWriteEnv) (data : ClientTcpData) (message : List UInt8) :
    SimpleWrite :=
  match createSimplePacket env.memory (some message) with
  | none => ⟨.returned threadResultError { data with packet := none }, []⟩
  | some packet =>
    match sendSimplePacket env.buffer packet env.script with
    | .fault => ⟨.fault, []⟩
    | .returned ret wire _ =>
      if ret < 0 then ⟨.returned threadResultError { data with packet := none }, wire⟩
      else ⟨.returned threadResultSuccess { data with packet := some packet }, wire⟩

/-- `handle_client_simple_write`. -/
def handleClientSimpleWrite (env : SimpleWriteEnv) (arg : Option ClientTcpData) : SimpleWrite :=
  match arg with
  | none => ⟨.null, []⟩
  | some data =>
    if env.threadResult then
      if pingPending data.packet then
        -- the packet is freed before the answer is created
        sendMessage env { data with packet := none } pong
      else sendMessage env data greeting
    else ⟨.null, []⟩

/-! ## What the handlers do -/

theorem pong_fits : FitsFrame pong := ⟨by decide, by decide, by decide⟩

theorem greeting_fits : FitsFrame greeting := ⟨by decide, by decide, by decide⟩

theorem pingPending_stringPacket {s : List UInt8} (h : FitsFrame s) :
    pingPending (some (stringPacket s)) = containsPing s := by
  rw [pingPending, stringPacket, cstr_append_nul, cstr_eq_self h.no_nul]

/-- What the read handler leaves of a stream and of a record. -/
theorem handleClientSimpleRead_cases (threadResult : Bool) (memory : PacketMemory)
    (data : ClientTcpData) (socket : ByteSource UInt8) :
    let r := handleClientSimpleRead threadResult memory (some data) socket
    r.outcome = .null ∨
      r.outcome = .returned threadResultClosed { data with packet := none } ∨
      r.outcome = .returned threadResultError { data with packet := none } ∨
      ∃ n, r.outcome = .returned threadResultSuccess
        { data with packet := some ⟨n, payload socket.bytes ++ [0]⟩ } := by
  simp only [handleClientSimpleRead]
  cases threadResult with
  | false => exact Or.inl rfl
  | true =>
    refine Or.inr ?_
    rcases lt_trichotomy (recvSimplePacket memory data.packet socket).ret 0 with hlt | heq | hgt
    · simp [hlt, hlt.ne]
    · simp [heq]
    · obtain ⟨n, hn⟩ := recvSimplePacket_pos hgt
      refine Or.inr (Or.inr ⟨n, ?_⟩)
      simp [hgt.ne', hgt.le.not_gt, hn]

/-- The read handler reports success only for a packet it received. -/
theorem handleClientSimpleRead_success {threadResult : Bool} {memory : PacketMemory}
    {data data' : ClientTcpData} {socket : ByteSource UInt8}
    (h : (handleClientSimpleRead threadResult memory (some data) socket).outcome =
      .returned threadResultSuccess data') :
    let r := recvSimplePacket memory data.packet socket
    0 < r.ret ∧ data' = { data with packet := r.packet } ∧
      (handleClientSimpleRead threadResult memory (some data) socket).socket = r.socket := by
  cases threadResult with
  | false => simp [handleClientSimpleRead] at h
  | true =>
    rcases lt_trichotomy (recvSimplePacket memory data.packet socket).ret 0 with hlt | heq | hgt
    · simp [handleClientSimpleRead, hlt, hlt.ne, threadResultError, threadResultSuccess] at h
    · simp [handleClientSimpleRead, heq, threadResultClosed, threadResultSuccess] at h
    · simp only [handleClientSimpleRead, if_true, if_neg hgt.ne', if_neg hgt.le.not_gt] at h ⊢
      injection h with _ hdata
      exact ⟨hgt, hdata.symm, trivial⟩

/-- What the common part of the write handler does with a string that fits: an error, or the
frame of the string is sent and its packet kept. -/
theorem sendMessage_cases (env : SimpleWriteEnv) (data : ClientTcpData) {message : List UInt8}
    (h : FitsFrame message) :
    let r := sendMessage env data message
    r.outcome = .returned threadResultError { data with packet := none } ∨
      r = ⟨.returned threadResultSuccess { data with packet := some (stringPacket message) },
        stringFrame message⟩ := by
  simp only [sendMessage, createSimplePacket_of_fits h]
  by_cases hmem : (env.memory.packet && env.memory.data) = true
  · obtain ⟨ret, wire, script', hsend, hwire⟩ := sendSimplePacket_string h env.buffer env.script
    rw [if_pos hmem]
    simp only [hsend]
    by_cases hret : ret < 0
    · exact Or.inl (by rw [if_pos hret])
    · exact Or.inr (by rw [if_neg hret, hwire (not_lt.mp hret)])
  · exact Or.inl (by rw [if_neg hmem])

theorem sendMessage_ok {env : SimpleWriteEnv} (henv : env.Succeeds) (data : ClientTcpData)
    {message : List UInt8} (h : FitsFrame message) :
    sendMessage env data message =
      ⟨.returned threadResultSuccess { data with packet := some (stringPacket message) },
        stringFrame message⟩ := by
  obtain ⟨-, ⟨hpacket, hdata⟩, hbuffer, hscript⟩ := henv
  obtain ⟨script', hsend⟩ := sendSimplePacket_string_ok h hscript
  have hret : ¬ (4 + (message.length : Int) < 0) := by omega
  simp only [sendMessage, createSimplePacket_of_fits h, hpacket, hdata, hbuffer, Bool.and_self,
    if_true, hsend, if_neg hret]

/-- What the write handler says to a record. -/
def reply (data : ClientTcpData) : List UInt8 :=
  if pingPending data.packet then pong else greeting

theorem reply_fits (data : ClientTcpData) : FitsFrame (reply data) := by
  unfold reply
  split
  · exact pong_fits
  · exact greeting_fits

theorem pingPending_reply (data : ClientTcpData) :
    pingPending (some (stringPacket (reply data))) = false := by
  rw [pingPending_stringPacket (reply_fits data)]
  unfold reply
  split <;> decide

theorem handleClientSimpleWrite_eq (env : SimpleWriteEnv) (data : ClientTcpData) :
    handleClientSimpleWrite env (some data) =
      if env.threadResult then
        sendMessage env (if pingPending data.packet then { data with packet := none } else data)
          (reply data)
      else ⟨.null, []⟩ := by
  unfold handleClientSimpleWrite reply
  cases hping : pingPending data.packet <;>
    simp only [hping, if_true, Bool.false_eq_true, if_false]

/-- What the write handler leaves of a record. -/
theorem handleClientSimpleWrite_cases (env : SimpleWriteEnv) (data : ClientTcpData) :
    let r := handleClientSimpleWrite env (some data)
    r.outcome = .null ∨
      r.outcome = .returned threadResultError { data with packet := none } ∨
      r = ⟨.returned threadResultSuccess { data with packet := some (stringPacket (reply data)) },
        stringFrame (reply data)⟩ := by
  simp only [handleClientSimpleWrite_eq]
  cases env.threadResult with
  | false => exact Or.inl rfl
  | true =>
    refine Or.inr ?_
    have hcases := sendMessage_cases env
      (if pingPending data.packet then { data with packet := none } else data) (reply_fits data)
    by_cases hping : pingPending data.packet = true
    · simpa [hping] using hcases
    · simpa [hping] using hcases

theorem handleClientSimpleWrite_ok {env : SimpleWriteEnv} (henv : env.Succeeds)
    (data : ClientTcpData) : handleClientSimpleWrite env (some data) =
      ⟨.returned threadResultSuccess { data with packet := some (stringPacket (reply data)) },
        stringFrame (reply data)⟩ := by
  rw [handleClientSimpleWrite_eq, if_pos henv.1, sendMessage_ok henv _ (reply_fits data)]
  by_cases hping : pingPending data.packet = true
  · simp [hping]
  · simp [hping]

/-! ## A connection -/

/-- A connection: the record of the client, its stream, whether `handle_connections` still
has it, and the frames that were read and sent. -/
structure SimpleConnection where
  data : ClientTcpData
  socket : ByteSource UInt8
  isOpen : Bool
  log : List (Turn (List UInt8) (List UInt8))
  deriving DecidableEq, Repr

/-- A connection that was just accepted. -/
def SimpleConnection.accepted (sockfd : Int) (socket : ByteSource UInt8) : SimpleConnection :=
  ⟨⟨sockfd, none⟩, socket, true, []⟩

/-- A pass of the loop of `handle_connections` over the connection. -/
inductive SimplePass
  | read (threadResult : Bool) (memory : PacketMemory)
  | write (env : SimpleWriteEnv)
  deriving DecidableEq, Repr

/-- What `handle_connections` makes of the result of a handler; `event` is what the handler
did if it reports success. NULL ends the loop, an error or a close the connection. -/
def SimpleConnection.finish (s : SimpleConnection) (outcome : HandlerResult ClientTcpData)
    (event : Turn (List UInt8) (List UInt8)) : Option SimpleConnection :=
  match outcome with
  | .fault => none
  | .null => some { s with isOpen := false }
  | .returned value data =>
    if value = threadResultError ∨ value = threadResultClosed then
      some { s with data := data, isOpen := false }
    else some { s with data := data, log := s.log ++ [event] }

theorem SimpleConnection.finish_success (s : SimpleConnection) (data : ClientTcpData)
    (event : Turn (List UInt8) (List UInt8)) :
    s.finish (.returned threadResultSuccess data) event =
      some { s with data := data, log := s.log ++ [event] } := by
  rw [SimpleConnection.finish, if_neg (by decide)]

/-- One pass over an open connection. -/
def simplePass (s : SimpleConnection) : SimplePass → Option SimpleConnection
  | .read threadResult memory =>
    if s.isOpen then
      let r := handleClientSimpleRead threadResult memory (some s.data) s.socket
      { s with socket := r.socket }.finish r.outcome (.read (payload s.socket.bytes))
    else none
  | .write env =>
    if s.isOpen then
      let r := handleClientSimpleWrite env (some s.data)
      s.finish r.outcome (.sent r.wire)
    else none

/-- The frame of the answer. -/
def isPong (wire : List UInt8) : Bool := wire == stringFrame pong

/-! ## What a pass does -/

variable {s s' : SimpleConnection}

/-- A pass ends the connection and reads and sends nothing, or it reads a frame into the
record, or it sends the answer to what the record holds. -/
theorem simplePass_cases {pass : SimplePass} (h : simplePass s pass = some s') :
    (s'.isOpen = false ∧ s'.log = s.log) ∨
    (∃ threadResult memory, pass = .read threadResult memory ∧
      s'.log = s.log ++ [.read (payload s.socket.bytes)] ∧
      pingPending s'.data.packet = containsPing (cstr (payload s.socket.bytes))) ∨
    (s'.log = s.log ++ [.sent (stringFrame (reply s.data))] ∧
      pingPending s'.data.packet = false) := by
  cases pass with
  | read threadResult memory =>
    simp only [simplePass, Option.ite_none_right_eq_some] at h
    obtain ⟨-, h⟩ := h
    rcases handleClientSimpleRead_cases threadResult memory s.data s.socket with
      hnull | hclosed | herror | ⟨n, hsuccess⟩
    · rw [hnull] at h
      obtain rfl := Option.some.inj h
      exact Or.inl ⟨rfl, rfl⟩
    · rw [hclosed] at h
      obtain rfl := Option.some.inj h
      exact Or.inl ⟨rfl, rfl⟩
    · rw [herror] at h
      obtain rfl := Option.some.inj h
      exact Or.inl ⟨rfl, rfl⟩
    · rw [hsuccess] at h
      obtain rfl := Option.some.inj h
      refine Or.inr (Or.inl ⟨threadResult, memory, rfl, rfl, ?_⟩)
      show containsPing (cstr (payload s.socket.bytes ++ [0])) = _
      rw [cstr_append_nul]
  | write env =>
    simp only [simplePass, Option.ite_none_right_eq_some] at h
    obtain ⟨-, h⟩ := h
    rcases handleClientSimpleWrite_cases env s.data with hnull | herror | hsuccess
    · rw [hnull] at h
      obtain rfl := Option.some.inj h
      exact Or.inl ⟨rfl, rfl⟩
    · rw [herror] at h
      obtain rfl := Option.some.inj h
      exact Or.inl ⟨rfl, rfl⟩
    · rw [hsuccess] at h
      obtain rfl := Option.some.inj h
      exact Or.inr (Or.inr ⟨rfl, pingPending_reply s.data⟩)

theorem isOpen_of_simplePass {pass : SimplePass} (h : simplePass s pass = some s') :
    s.isOpen = true := by
  cases pass with
  | read => exact (Option.ite_none_right_eq_some.mp h).1
  | write => exact (Option.ite_none_right_eq_some.mp h).1

theorem isPong_reply (data : ClientTcpData) :
    isPong (stringFrame (reply data)) = pingPending data.packet := by
  unfold reply
  cases pingPending data.packet <;> decide

/-! ## Runs -/

/-- The log is in turn, and what it leaves to be answered is what the record holds. -/
structure TracksPings (asks : List UInt8 → Bool) (strict : Prop) (s : SimpleConnection) :
    Prop where
  inTurn : InTurn asks isPong (fun _ _ => True) strict none s.log
  pending : s.isOpen = true → (pending asks isPong s.log).isSome = pingPending s.data.packet

theorem tracksPings_accepted (asks : List UInt8 → Bool) (strict : Prop) (sockfd : Int)
    (socket : ByteSource UInt8) :
    TracksPings asks strict (SimpleConnection.accepted sockfd socket) :=
  ⟨trivial, fun _ => rfl⟩

/-- A read pass finds no request waiting, if `strict`, and a frame that asks for an answer
does so in front of its first NUL. -/
def ReadsInTurn (asks : List UInt8 → Bool) (strict : Prop) (s : SimpleConnection) :
    SimplePass → Prop
  | .read _ _ => (strict → pingPending s.data.packet = false) ∧
      asks (payload s.socket.bytes) = containsPing (cstr (payload s.socket.bytes))
  | .write _ => True

theorem simplePass_inv {asks : List UInt8 → Bool} {strict : Prop} {pass : SimplePass}
    (h : TracksPings asks strict s) (hcond : ReadsInTurn asks strict s pass)
    (hstep : simplePass s pass = some s') : TracksPings asks strict s' := by
  have hpending := h.pending (isOpen_of_simplePass hstep)
  rcases simplePass_cases hstep with ⟨hopen, hlog⟩ | ⟨threadResult, memory, rfl, hlog, hslot⟩ |
    ⟨hlog, hslot⟩
  · refine ⟨hlog ▸ h.inTurn, fun hopen' => ?_⟩
    rw [hopen] at hopen'
    exact absurd hopen' Bool.false_ne_true
  · obtain ⟨hfree, hasks⟩ := hcond
    refine ⟨?_, fun _ => ?_⟩
    · rw [hlog]
      apply h.inTurn.concat_read
      intro hstrict
      rw [hfree hstrict] at hpending
      simpa using hpending
    · rw [hlog, pending_read, hslot, hasks]
      cases containsPing (cstr (payload s.socket.bytes)) <;> rfl
  · refine ⟨?_, fun _ => ?_⟩
    · rw [hlog]
      apply h.inTurn.concat_sent
      intro hpong
      rw [isPong_reply, ← hpending] at hpong
      obtain ⟨a, ha⟩ := Option.isSome_iff_exists.mp hpong
      exact ⟨a, ha, trivial⟩
    · rw [hlog, pending_sent, isPong_reply, hslot]
      cases hping : pingPending s.data.packet
      · simpa [hping] using hpending
      · rfl

/-- Only `PONG` and the greeting are sent. -/
def SendsReplies (s : SimpleConnection) : Prop :=
  ∀ b, .sent b ∈ s.log → b = stringFrame pong ∨ b = stringFrame greeting

theorem SendsReplies.step {pass : SimplePass} (h : SendsReplies s)
    (hstep : simplePass s pass = some s') : SendsReplies s' := by
  intro b hb
  rcases simplePass_cases hstep with ⟨-, hlog⟩ | ⟨-, -, -, hlog, -⟩ | ⟨hlog, -⟩
  · exact h b (hlog ▸ hb)
  · rw [hlog, List.mem_append, List.mem_singleton] at hb
    exact h b (hb.resolve_right (by simp))
  · rw [hlog, List.mem_append, List.mem_singleton] at hb
    rcases hb with hb | hb
    · exact h b hb
    · obtain rfl := Turn.sent.inj hb
      unfold reply
      split
      · exact Or.inl rfl
      · exact Or.inr rfl

/-- A `PONG` is only sent to a frame whose string contains `PING`, in every run. -/
theorem pong_solicited {sockfd : Int} {socket : ByteSource UInt8} {passes : List SimplePass}
    (hrun : run simplePass (.accepted sockfd socket) passes = some s) :
    Solicited (fun a => containsPing (cstr a)) isPong (fun _ _ => True) s.log := by
  have hmeets : Meets simplePass (ReadsInTurn (fun a => containsPing (cstr a)) False)
      (.accepted sockfd socket) passes := by
    apply meets_of_forall_mem
    intro s pass _
    cases pass with
    | read => exact ⟨False.elim, rfl⟩
    | write => trivial
  have hinv := run_invariant_of_meets (fun _ _ _ => simplePass_inv)
    (tracksPings_accepted _ False sockfd socket) hmeets hrun
  exact solicited_of_inTurn hinv.inTurn

/-- A read pass finds no `PING` waiting, and the frame it reads has its `PING`, if any, in
front of its first NUL. -/
def PingAnswered (s : SimpleConnection) : SimplePass → Prop
  | .read _ _ => pingPending s.data.packet = false ∧
      (containsPing (payload s.socket.bytes) = true →
        containsPing (cstr (payload s.socket.bytes)) = true)
  | .write _ => True

instance (s : SimpleConnection) : ∀ pass, Decidable (PingAnswered s pass)
  | .read _ _ => inferInstanceAs (Decidable (_ ∧ _))
  | .write _ => isTrue trivial

/-- What a client and its `PING`s can expect: each of those read is answered by exactly one
`PONG` before the next frame is read, nothing else is, and the last one, if it is not
answered yet, is answered by the next write that does not fail. -/
structure AnswersPings (s : SimpleConnection) : Prop where
  answered : AnsweredOnce containsPing isPong (fun _ _ => True) s.log
  solicited : Solicited containsPing isPong (fun _ _ => True) s.log
  kept : s.isOpen = true → (pending containsPing isPong s.log).isSome = true →
    ∀ env : SimpleWriteEnv, env.Succeeds → ∃ s', simplePass s (.write env) = some s' ∧
      s'.log = s.log ++ [.sent (stringFrame pong)]

/-- The text in front of a terminator contains `PING` only if the whole text does. -/
theorem containsPing_of_cstr {a : List UInt8} (h : containsPing (cstr a) = true) :
    containsPing a = true :=
  strstr_isSome_of_infix (by decide) (cstr_isPrefix a).isInfix h

/-- In every run in which each read finds no `PING` waiting (and no frame hides one behind a
NUL) each `PING` that was read is answered exactly once, before the next frame is read. -/
theorem pings_answered (sockfd : Int) (socket : ByteSource UInt8) (passes : List SimplePass)
    (s : SimpleConnection)
    (hmeets : Meets simplePass PingAnswered (.accepted sockfd socket) passes)
    (hrun : run simplePass (.accepted sockfd socket) passes = some s) : AnswersPings s := by
  have hstep : ∀ s pass s', TracksPings containsPing True s → PingAnswered s pass →
      simplePass s pass = some s' → TracksPings containsPing True s' := by
    intro s pass s' h hcond hstep
    apply simplePass_inv h _ hstep
    cases pass with
    | read =>
      refine ⟨fun _ => hcond.1, ?_⟩
      rw [Bool.eq_iff_iff]
      exact ⟨hcond.2, containsPing_of_cstr⟩
    | write => trivial
  have hinv := run_invariant_of_meets hstep (tracksPings_accepted _ True sockfd socket) hmeets
    hrun
  refine ⟨answeredOnce_of_inTurn hinv.inTurn, solicited_of_inTurn hinv.inTurn, ?_⟩
  intro hopen hpending env henv
  rw [hinv.pending hopen] at hpending
  have hreply : reply s.data = pong := if_pos hpending
  have hstep : simplePass s (.write env) = some
      { s with data := { s.data with packet := some (stringPacket pong) },
               log := s.log ++ [.sent (stringFrame pong)] } := by
    simp only [simplePass, if_pos hopen, handleClientSimpleWrite_ok henv, hreply]
    apply SimpleConnection.finish_success
  exact ⟨_, hstep, rfl⟩

/-- `PING`, its answer, another `PING`. -/
def pingTurns : List SimplePass := [.read true .ideal, .write .ideal, .read true .ideal]

/-- Two `PING`s in one segment. -/
def twoPings : ByteSource UInt8 := ⟨[stringFrame ping ++ stringFrame ping], .closed⟩

theorem pings_answered_pingTurns :
    ∃ s, run simplePass (.accepted 4 twoPings) pingTurns = some s ∧ AnswersPings s := by
  have hmeets : Meets simplePass PingAnswered (.accepted 4 twoPings) pingTurns := by decide
  have hsome : (run simplePass (.accepted 4 twoPings) pingTurns).isSome = true := by decide
  obtain ⟨s, hs⟩ := Option.isSome_iff_exists.mp hsome
  exact ⟨s, hs, pings_answered 4 twoPings pingTurns s hmeets hs⟩

/-- The second of two `PING`s is read before the first one is answered. -/
theorem pings_unanswered :
    ∃ s, run simplePass (.accepted 4 twoPings)
        [.read true .ideal, .read true .ideal, .write .ideal, .write .ideal] = some s ∧
      s.log = [.read ping, .read ping, .sent (stringFrame pong), .sent (stringFrame greeting)] ∧
      ¬ AnswersPings s := by
  have hlog : (run simplePass (.accepted 4 twoPings)
      [.read true .ideal, .read true .ideal, .write .ideal, .write .ideal]).map
        SimpleConnection.log = some [.read ping, .read ping, .sent (stringFrame pong),
          .sent (stringFrame greeting)] := by decide +kernel
  obtain ⟨s, hs, hlog⟩ := Option.map_eq_some_iff.mp hlog
  refine ⟨s, hs, hlog, fun h => ?_⟩
  have hcount := h.answered [] ping [] ping
    [.sent (stringFrame pong), .sent (stringFrame greeting)] hlog (by decide) (by simp)
  simp at hcount

end SelectServer
