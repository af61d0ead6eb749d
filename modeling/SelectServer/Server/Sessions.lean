import Mathlib.Logic.Function.Basic
import SelectServer.Server.Heartbeat
import SelectServer.Server.HttpTurns
import SelectServer.Server.Descriptors
import SelectServer.Systems.Sessions

/-!
# The whole server

The loop of `Connections` with the handlers of the three protocols in place of their results.
The records of the clients and the streams behind their descriptors are indexed by descriptor,
and descriptors are used again. What a handler is given, and what becomes of its client, is
decided by the tables that the loop keeps.

Each connection has a number. Whatever the interleaving, what was read and sent over one
connection is what the handlers of its protocol read and send when nothing else is served
(`server_refines_sessions`). What was proved about a connection on its own then holds on the
server, for all connections at once.
-/

namespace SelectServer

open CLib Systems

/-! ## One connection -/

/-- A connection with the handlers of its protocol. -/
inductive ClientConnection
  | simple (c : SimpleConnection)
  | http (c : HttpConnection)
  deriving DecidableEq

/-- What a worker does with a connection. -/
inductive ClientPass
  | simple (pass : SimplePass)
  | http (pass : HttpPass)

/-- One pass over a connection, by a handler of its protocol. -/
def clientPass : ClientConnection → ClientPass → Option ClientConnection
  | .simple c, .simple pass => (simplePass c pass).map .simple
  | .http c, .http pass => (httpPass c pass).map .http
  | _, _ => none

/-- A connection as accept returns it. -/
structure Arrival where
  protocol : Protocol
  fd : Nat
  stream : ByteSource UInt8
  deriving DecidableEq

/-- The connection before its first pass. -/
def Arrival.connection (a : Arrival) : ClientConnection :=
  match a.protocol with
  | .tcp => .simple (.accepted a.fd a.stream)
  | .http => .http (.accepted a.fd a.stream)

/-! ## State and environment -/

/-- `handle_connections` with what its tables refer to: the records of the two arrays, the
streams behind the descriptors and the record of the heartbeats. The connections are listed as
they were accepted, and what their handlers read and sent is logged under their numbers. -/
structure Server where
  loop : LoopState
  clients : Nat → ClientTcpData
  httpClients : Nat → ClientHttpData
  streams : Nat → ByteSource UInt8
  heartbeat : HeartbeatServer
  arrivals : List Arrival
  simpleLog : Nat → List (Turn (List UInt8) (List UInt8))
  httpLog : Nat → List (Turn HTTPRequest (List UInt8))

/-- The server in front of its first select. -/
def Server.initial (l : ListeningSockets) : Server where
  loop := .initial l
  clients := fun _ => ⟨0, none⟩
  httpClients := fun _ => ⟨0, none, none⟩
  streams := fun _ => ⟨[], .closed⟩
  heartbeat := .initial l.udp
  arrivals := []
  simpleLog := fun _ => []
  httpLog := fun _ => []

/-- The answers of the system at one descriptor: to accept and to the allocation of a record,
to `threadpool_add`, and to the handler that runs. -/
structure VisitEnv where
  accepted : Option Nat
  port : Nat
  alloc : Bool
  stream : ByteSource UInt8
  added : Bool
  threadResult : Bool
  packetMemory : PacketMemory
  simpleWrite : SimpleWriteEnv
  receiveMemory : ReceiveMemory
  httpWrite : WriteEnv
  heartbeat : HeartbeatEnv
  recvfrom : RecvFrom
  sendto : Bool

/-- What the loop itself uses of them, with what becomes of the task. -/
def VisitEnv.answers (env : VisitEnv) (task : TaskOutcome) : Answers where
  accepted := env.accepted
  port := env.port
  alloc := env.alloc
  task := task

/-- The pass of a handler for a client. -/
def VisitEnv.pass (env : VisitEnv) : Protocol → Direction → ClientPass
  | .tcp, .read => .simple (.read env.threadResult env.packetMemory)
  | .tcp, .write => .simple (.write env.simpleWrite)
  | .http, .read => .http (.read env.threadResult env.receiveMemory)
  | .http, .write => .http (.write env.httpWrite)

/-- The pass of a handler for the UDP socket. -/
def VisitEnv.udpPass (env : VisitEnv) : Direction → HeartbeatPass
  | .read => .read env.heartbeat env.recvfrom
  | .write => .write env.heartbeat env.sendto

/-! ## The handlers -/

/-- A task that the loop makes of a descriptor. -/
inductive LoopTask
  | heartbeat (direction : Direction)
  | client (p : Protocol) (direction : Direction)
  deriving DecidableEq, Repr

/-- The task that the branches of the loop make of descriptor `i`, if they make one. -/
def taskAt (l : ListeningSockets) (s : LoopState) (i : Nat) : Option LoopTask :=
  if i ∈ s.readFds then
    if i = l.tcp ∨ i = l.http then none
    else if i = l.udp then some (.heartbeat .read)
    else some (.client (protocolAt s.tables i) .read)
  else if i ∈ s.writeFds then
    if i = l.udp then some (.heartbeat .write)
    else some (.client (protocolAt s.tables i) .write)
  else none

/-- The listening socket that accepts at descriptor `i`. -/
def acceptsAt (l : ListeningSockets) (s : LoopState) (i : Nat) : Option Protocol :=
  if i ∈ s.readFds then
    if i = l.tcp then some .tcp else if i = l.http then some .http else none
  else none

/-- The kernel connects a client, and the record made for it is empty. -/
def Server.arrive (s : Server) (p : Protocol) (fd : Nat) (stream : ByteSource UInt8) : Server :=
  let s := { s with
    streams := Function.update s.streams fd stream
    arrivals := s.arrivals ++ [Arrival.mk p fd stream] }
  match p with
  | .tcp => { s with clients := Function.update s.clients fd ⟨fd, none⟩ }
  | .http => { s with httpClients := Function.update s.httpClients fd ⟨fd, none, none⟩ }

/-- A listening socket accepts at descriptor `i`, or nothing does. -/
def Server.accept (l : ListeningSockets) (s : Server) (i : Nat) (env : VisitEnv) : Server :=
  match acceptsAt l s.loop i, env.accepted with
  | some p, some fd => s.arrive p fd env.stream
  | _, _ => s

/-- The results after which the loop drops a client. -/
def EndsClient (value : Int) : Prop := value = threadResultError ∨ value = threadResultClosed

instance (value : Int) : Decidable (EndsClient value) := inferInstanceAs (Decidable (_ ∨ _))

/-- What a simple handler leaves of the record at `i`, with its result. What it has read or sent
before it ends the client is not noted. -/
def Server.finishSimple (s : Server) (i : Nat) (outcome : HandlerResult ClientTcpData)
    (event : Turn (List UInt8) (List UInt8)) : Option (Option Int × Server) :=
  match outcome with
  | .fault => none
  | .null => some (none, s)
  | .returned value data =>
    let s := { s with clients := Function.update s.clients i data }
    match s.loop.tables.opened i with
    | some c =>
      if EndsClient value then some (some value, s)
      else some (some value, { s with
        simpleLog := Function.update s.simpleLog c.serial (s.simpleLog c.serial ++ [event]) })
    | none => some (some value, s)

/-- What an HTTP handler leaves of the record at `i`, with its result. Of a client that it ends
nothing is noted here either. -/
def Server.finishHttp (s : Server) (i : Nat) (outcome : Handled)
    (events : List (Turn HTTPRequest (List UInt8))) : Option (Option Int × Server) :=
  match outcome with
  | .fault | .spins => none
  | .null => some (none, s)
  | .returned value data =>
    let s := { s with httpClients := Function.update s.httpClients i data }
    match s.loop.tables.opened i with
    | some c =>
      if EndsClient value then some (some value, s)
      else some (some value, { s with
        httpLog := Function.update s.httpLog c.serial (s.httpLog c.serial ++ events) })
    | none => some (some value, s)

/-- What a heartbeat handler leaves, with its result. -/
def Server.finishHeartbeat (s : Server) (outcome : HandlerResult HeartbeatData)
    (events : List (Turn (Option Received) Ack)) : Option (Option Int × Server) :=
  let s := { s with heartbeat := s.heartbeat.finish outcome events }
  match outcome with
  | .fault => none
  | .null => some (none, s)
  | .returned value _ => some (some value, s)

/-- A worker runs a task; there is no result where the handler does not return. The handler of
a client is given the element of its array. -/
def Server.runTask (s : Server) (i : Nat) (env : VisitEnv) : LoopTask → Option (Option Int × Server)
  | .heartbeat .read =>
    s.finishHeartbeat (handleClientHeartbeatRead env.heartbeat env.recvfrom
      (some s.heartbeat.data)) [.read (readOf env.heartbeat env.recvfrom)]
  | .heartbeat .write =>
    let r := handleClientHeartbeatWrite env.heartbeat env.sendto (some s.heartbeat.data)
    s.finishHeartbeat r.outcome (r.ack.toList.map .sent)
  | .client .tcp .read =>
    let arg := (s.loop.tables.entries .tcp i).map fun _ => s.clients i
    let r := handleClientSimpleRead env.threadResult env.packetMemory arg (s.streams i)
    { s with streams := Function.update s.streams i r.socket }.finishSimple i r.outcome
      (.read (payload (s.streams i).bytes))
  | .client .tcp .write =>
    let arg := (s.loop.tables.entries .tcp i).map fun _ => s.clients i
    let r := handleClientSimpleWrite env.simpleWrite arg
    s.finishSimple i r.outcome (.sent r.wire)
  | .client .http .read =>
    let arg := (s.loop.tables.entries .http i).map fun _ => s.httpClients i
    let r := handleClientHttpRead env.threadResult env.receiveMemory arg (s.streams i)
    { s with streams := Function.update s.streams i r.socket }.finishHttp i r.outcome
      (r.outcome.request.toList.map .read)
  | .client .http .write =>
    let arg := (s.loop.tables.entries .http i).map fun _ => s.httpClients i
    let r := handleClientHttpWrite env.httpWrite arg
    s.finishHttp i r.outcome (r.sends.map .sent)

/-! ## The loop -/

/-- An event of the server. -/
inductive ServerEvent
  | interrupt
  | select (ret : Int) (readFds writeFds exceptFds : Finset Nat)
  | visit (env : VisitEnv)
  | leave

/-- The loop makes a step. -/
def Server.moves (l : ListeningSockets) (s : Server) (event : Event) : Option Server :=
  (loopStep l s.loop event).map fun loop => { s with loop }

/-- One event of the server. A visit runs the task of its descriptor, if there is one and
`threadpool_add` takes it, and the loop goes on with its result. -/
def serverStep (l : ListeningSockets) (s : Server) : ServerEvent → Option Server
  | .interrupt => s.moves l .interrupt
  | .select ret readFds writeFds exceptFds => s.moves l (.select ret readFds writeFds exceptFds)
  | .leave => s.moves l .leave
  | .visit env =>
    match s.loop.phase with
    | .scanning i =>
      match taskAt l s.loop i with
      | none => (s.accept l i env).moves l (.visit (env.answers .refused))
      | some task =>
        if env.added then
          (s.runTask i env task).bind fun r => r.2.moves l (.visit (env.answers (.done r.1)))
        else s.moves l (.visit (env.answers .refused))
    | _ => none

/-! ## What a handler does to a connection -/

/-- Whether `handle_connections` still has the connection. -/
def ClientConnection.isOpen : ClientConnection → Bool
  | .simple c => c.isOpen
  | .http c => c.isOpen

/-- The connection that descriptor `i` stands for, as the server has it. -/
def Server.view (s : Server) (i : Nat) (c : Connection) (isOpen : Bool) : ClientConnection :=
  match c.protocol with
  | .tcp => .simple ⟨s.clients i, s.streams i, isOpen, s.simpleLog c.serial⟩
  | .http => .http ⟨s.httpClients i, s.streams i, isOpen, s.httpLog c.serial⟩

/-- What was read and sent over a connection is what the server has under a number. -/
def ClientConnection.LoggedIn (s : Server) (n : Nat) : ClientConnection → Prop
  | .simple c => s.simpleLog n = c.log ∧ s.httpLog n = []
  | .http c => s.httpLog n = c.log ∧ s.simpleLog n = []

/-- A connection is put where descriptor `i` and number `n` refer to. -/
def Server.store (s : Server) (i n : Nat) : ClientConnection → Server
  | .simple c => { s with
      clients := Function.update s.clients i c.data
      streams := Function.update s.streams i c.socket
      simpleLog := Function.update s.simpleLog n c.log }
  | .http c => { s with
      httpClients := Function.update s.httpClients i c.data
      streams := Function.update s.streams i c.socket
      httpLog := Function.update s.httpLog n c.log }

variable {l : ListeningSockets} {s s' : Server}

theorem Server.finishSimple_eq {i n : Nat} {outcome : HandlerResult ClientTcpData}
    {event : Turn (List UInt8) (List UInt8)} {stream : ByteSource UInt8} {result : Option Int}
    (hopened : s.loop.tables.opened i = some ⟨.tcp, n⟩)
    (h : ({ s with streams := Function.update s.streams i stream } : Server).finishSimple i
      outcome event = some (result, s')) :
    ∃ c : SimpleConnection,
      ({ data := s.clients i, socket := stream, isOpen := true, log := s.simpleLog n } :
        SimpleConnection).finish outcome event = some c ∧
      s' = s.store i n (.simple c) ∧
      (c.isOpen = true ↔ ∃ value, result = some value ∧ ¬ EndsClient value) := by
  cases outcome with
  | fault => simp [Server.finishSimple] at h
  | null =>
    obtain ⟨rfl, rfl⟩ := Prod.mk.inj (Option.some.inj h)
    exact ⟨_, rfl, by simp [Server.store], by simp⟩
  | returned value data =>
    by_cases hends : EndsClient value
    · simp only [Server.finishSimple, hopened, if_pos hends, Option.some.injEq,
        Prod.mk.injEq] at h
      obtain ⟨rfl, rfl⟩ := h
      refine ⟨_, if_pos hends, by simp [Server.store], by simp [hends]⟩
    · simp only [Server.finishSimple, hopened, if_neg hends, Option.some.injEq,
        Prod.mk.injEq] at h
      obtain ⟨rfl, rfl⟩ := h
      refine ⟨_, if_neg hends, by simp [Server.store], by simp [hends]⟩

theorem Server.finishHttp_eq {i n : Nat} {outcome : Handled}
    {events : List (Turn HTTPRequest (List UInt8))} {stream : ByteSource UInt8}
    {result : Option Int} (hopened : s.loop.tables.opened i = some ⟨.http, n⟩)
    (h : ({ s with streams := Function.update s.streams i stream } : Server).finishHttp i
      outcome events = some (result, s')) :
    ∃ c : HttpConnection,
      ({ data := s.httpClients i, socket := stream, isOpen := true, log := s.httpLog n } :
        HttpConnection).finish outcome events = c ∧
      s' = s.store i n (.http c) ∧
      (c.isOpen = true ↔ ∃ value, result = some value ∧ ¬ EndsClient value) := by
  cases outcome with
  | fault => simp [Server.finishHttp] at h
  | spins => simp [Server.finishHttp] at h
  | null =>
    obtain ⟨rfl, rfl⟩ := Prod.mk.inj (Option.some.inj h)
    exact ⟨⟨s.httpClients i, stream, false, s.httpLog n⟩, rfl, by simp [Server.store], by simp⟩
  | returned value data =>
    by_cases hends : EndsClient value
    · simp only [Server.finishHttp, hopened, if_pos hends, Option.some.injEq,
        Prod.mk.injEq] at h
      obtain ⟨rfl, rfl⟩ := h
      exact ⟨_, if_pos hends, by simp [Server.store], by simp [hends]⟩
    · simp only [Server.finishHttp, hopened, if_neg hends, Option.some.injEq,
        Prod.mk.injEq] at h
      obtain ⟨rfl, rfl⟩ := h
      exact ⟨_, if_neg hends, by simp [Server.store], by simp [hends]⟩

/-- A handler that runs for a client makes the pass of its connection, and the loop keeps the
client if the handler does not end it. -/
theorem Server.runTask_client {p : Protocol} {d : Direction} {i n : Nat} {env : VisitEnv}
    {e : ClientEntry} {result : Option Int} (hentry : s.loop.tables.entries p i = some e)
    (hopened : s.loop.tables.opened i = some ⟨p, n⟩)
    (h : s.runTask i env (.client p d) = some (result, s')) :
    ∃ c, clientPass (s.view i ⟨p, n⟩ true) (env.pass p d) = some c ∧ s' = s.store i n c ∧
      (c.isOpen = true ↔ ∃ value, result = some value ∧ ¬ EndsClient value) := by
  have hsame : ({ s with streams := Function.update s.streams i (s.streams i) } : Server) = s := by
    rw [Function.update_eq_self]
  cases p with
  | tcp =>
    cases d with
    | read =>
      simp only [Server.runTask, hentry, Option.map_some] at h
      obtain ⟨c, hc, hs, hopen⟩ := Server.finishSimple_eq hopened h
      exact ⟨.simple c, by simpa [clientPass, Server.view, VisitEnv.pass, simplePass] using hc,
        hs, hopen⟩
    | write =>
      simp only [Server.runTask, hentry, Option.map_some] at h
      rw [← hsame] at h
      obtain ⟨c, hc, hs, hopen⟩ := Server.finishSimple_eq hopened h
      exact ⟨.simple c, by simpa [clientPass, Server.view, VisitEnv.pass, simplePass] using hc,
        hs, hopen⟩
  | http =>
    cases d with
    | read =>
      simp only [Server.runTask, hentry, Option.map_some] at h
      obtain ⟨c, hc, hs, hopen⟩ := Server.finishHttp_eq hopened h
      exact ⟨.http c, by simpa [clientPass, Server.view, VisitEnv.pass, httpPass] using hc,
        hs, hopen⟩
    | write =>
      simp only [Server.runTask, hentry, Option.map_some] at h
      rw [← hsame] at h
      obtain ⟨c, hc, hs, hopen⟩ := Server.finishHttp_eq hopened h
      exact ⟨.http c, by simpa [clientPass, Server.view, VisitEnv.pass, httpPass] using hc,
        hs, hopen⟩

/-- A handler that runs for the UDP socket makes the pass of the heartbeats. -/
theorem Server.runTask_heartbeat {d : Direction} {i : Nat} {env : VisitEnv}
    {result : Option Int} (hrunning : s.heartbeat.status = .running)
    (h : s.runTask i env (.heartbeat d) = some (result, s')) :
    ∃ heartbeat, heartbeatPass s.heartbeat (env.udpPass d) = some heartbeat ∧
      s' = { s with heartbeat } ∧ (result ≠ none → heartbeat.status = .running) := by
  have hfinish : ∀ outcome events,
      s.finishHeartbeat outcome events = some (result, s') →
      s' = { s with heartbeat := s.heartbeat.finish outcome events } ∧
        (result ≠ none → (s.heartbeat.finish outcome events).status = .running) := by
    intro outcome events hf
    cases outcome with
    | fault => simp [Server.finishHeartbeat] at hf
    | null =>
      obtain ⟨rfl, rfl⟩ := Prod.mk.inj (Option.some.inj hf)
      exact ⟨rfl, fun hne => absurd rfl hne⟩
    | returned value data =>
      obtain ⟨rfl, rfl⟩ := Prod.mk.inj (Option.some.inj hf)
      exact ⟨rfl, fun _ => hrunning⟩
  cases d with
  | read => exact ⟨_, if_pos hrunning, hfinish _ _ h⟩
  | write => exact ⟨_, if_pos hrunning, hfinish _ _ h⟩

/-- The task that a visit runs, with its descriptor. -/
def Server.runs (l : ListeningSockets) (s : Server) (env : VisitEnv) : Option (Nat × LoopTask) :=
  match s.loop.phase with
  | .scanning i => if env.added then (taskAt l s.loop i).map fun task => (i, task) else none
  | _ => none

/-! ## What one event does -/

/-- What one event makes of the server; `loop` is what the loop of `Connections` makes of its
own part. A client can be dropped without a task, and a task can be made of a client that is
then dropped. -/
inductive ServerMoved (l : ListeningSockets) (s : Server) : ServerEvent → Server → Prop
  /-- No connection has anything to do with it. -/
  | idle (event : ServerEvent) (loop : LoopState)
      (hopened : loop.tables.opened = s.loop.tables.opened)
      (haccepted : loop.tables.accepted = s.loop.tables.accepted) :
    ServerMoved l s event { s with loop }
  /-- A client is accepted. -/
  | accepted (env : VisitEnv) (loop : LoopState) (p : Protocol) (fd : Nat)
      (hopened : ∀ j, loop.tables.opened j =
        if j = fd then some ⟨p, s.loop.tables.accepted⟩ else s.loop.tables.opened j)
      (haccepted : loop.tables.accepted = s.loop.tables.accepted + 1) :
    ServerMoved l s (.visit env) { s.arrive p fd env.stream with loop }
  /-- A client is accepted, and its connection closed again. -/
  | rejected (env : VisitEnv) (loop : LoopState) (p : Protocol) (fd : Nat)
      (hfresh : s.loop.tables.opened fd = none)
      (hopened : loop.tables.opened = s.loop.tables.opened)
      (haccepted : loop.tables.accepted = s.loop.tables.accepted + 1) :
    ServerMoved l s (.visit env) { s.arrive p fd env.stream with loop }
  /-- A handler runs for a client that stays. -/
  | served (env : VisitEnv) (loop : LoopState) (p : Protocol) (d : Direction) (i n : Nat)
      (c : ClientConnection) (hruns : s.runs l env = some (i, .client p d))
      (hopen : s.loop.tables.opened i = some ⟨p, n⟩)
      (hpass : clientPass (s.view i ⟨p, n⟩ true) (env.pass p d) = some c)
      (hopened : loop.tables.opened = s.loop.tables.opened)
      (haccepted : loop.tables.accepted = s.loop.tables.accepted)
      (hlive : loop.phase ≠ .finished → c.isOpen = true) :
    ServerMoved l s (.visit env) { s.store i n c with loop }
  /-- A handler runs for a client that is dropped behind it. -/
  | ended (env : VisitEnv) (loop : LoopState) (p : Protocol) (d : Direction) (i n : Nat)
      (c : ClientConnection) (hruns : s.runs l env = some (i, .client p d))
      (hopen : s.loop.tables.opened i = some ⟨p, n⟩)
      (hpass : clientPass (s.view i ⟨p, n⟩ true) (env.pass p d) = some c)
      (hopened : ∀ j, loop.tables.opened j = if j = i then none else s.loop.tables.opened j)
      (haccepted : loop.tables.accepted = s.loop.tables.accepted) :
    ServerMoved l s (.visit env) { s.store i n c with loop }
  /-- A client is dropped. -/
  | dropped (env : VisitEnv) (loop : LoopState) (i : Nat)
      (hopened : ∀ j, loop.tables.opened j = if j = i then none else s.loop.tables.opened j)
      (haccepted : loop.tables.accepted = s.loop.tables.accepted) :
    ServerMoved l s (.visit env) { s with loop }
  /-- A handler runs for the UDP socket. -/
  | heartbeat (env : VisitEnv) (loop : LoopState) (d : Direction) (i : Nat)
      (heartbeat : HeartbeatServer) (hruns : s.runs l env = some (i, .heartbeat d))
      (hpass : heartbeatPass s.heartbeat (env.udpPass d) = some heartbeat)
      (hopened : loop.tables.opened = s.loop.tables.opened)
      (haccepted : loop.tables.accepted = s.loop.tables.accepted)
      (hlive : loop.phase ≠ .finished → heartbeat.status = .running) :
    ServerMoved l s (.visit env) { s with heartbeat, loop }

theorem LoopState.advance_stop {s : LoopState} {i : Nat} {v : Visited} (h : v.exit = .stop) :
    (s.advance i v).phase = .finished := by
  simp [LoopState.advance, h, LoopState.endPass]

@[simp] theorem LoopState.endPass_tables (s : LoopState) : s.endPass.tables = s.tables := rfl

/-- Freeing a record closes its connection, and no other one. -/
theorem Tables.Agree.opened_dropClient {t : Tables} (h : t.Agree l) {p : Protocol} {i : Nat}
    {e : ClientEntry} (he : t.entries p i = some e) (j : Nat) :
    (t.dropClient p i).opened j = if j = i then none else t.opened j := by
  rw [h.dropClient_eq he]
  rfl

theorem Tables.Agree.accepted_dropClient {t : Tables} (h : t.Agree l) {p : Protocol} {i : Nat}
    {e : ClientEntry} (he : t.entries p i = some e) :
    (t.dropClient p i).accepted = t.accepted := by
  rw [h.dropClient_eq he]
  rfl

/-! ### The branches of a visit -/

section Branches

variable {loop : LoopState} {i : Nat}

theorem visitFd_of_heartbeat {d : Direction} (h : taskAt l loop i = some (.heartbeat d))
    (a : Answers) : visitFd l loop i a = some (runHeartbeatTask loop.tables d i a.task) := by
  simp only [taskAt] at h
  split at h
  · rename_i hread
    simp only [Option.ite_none_left_eq_some, not_or] at h
    obtain ⟨⟨htcp, hhttp⟩, h⟩ := h
    split at h
    · rename_i hudp
      obtain rfl := LoopTask.heartbeat.inj (Option.some.inj h)
      rw [visitFd, forBody, if_pos hread, if_neg htcp, if_neg hhttp, if_pos hudp]
    · cases h
  · rename_i hread
    simp only [Option.ite_none_right_eq_some] at h
    obtain ⟨hwrite, h⟩ := h
    split at h
    · rename_i hudp
      obtain rfl := LoopTask.heartbeat.inj (Option.some.inj h)
      rw [visitFd, forBody, if_neg hread, if_pos hwrite, if_pos hudp]
    · cases h

theorem visitFd_of_client (hinv : loop.Inv l) {p : Protocol} {d : Direction}
    (h : taskAt l loop i = some (.client p d)) (a : Answers) :
    p = protocolAt loop.tables i ∧ i ∉ l.fds ∧ (i ∈ loop.readFds ∨ i ∈ loop.writeFds) ∧
      visitFd l loop i a = some (runClientTask loop.tables p d i a.task) := by
  simp only [taskAt] at h
  split at h
  · rename_i hread
    simp only [Option.ite_none_left_eq_some, not_or] at h
    obtain ⟨⟨htcp, hhttp⟩, h⟩ := h
    split at h
    · cases h
    · rename_i hudp
      obtain ⟨rfl, rfl⟩ := LoopTask.client.inj (Option.some.inj h)
      refine ⟨rfl, ListeningSockets.notMem_fds.mpr ⟨htcp, hudp, hhttp⟩, Or.inl hread, ?_⟩
      rw [visitFd, forBody, if_pos hread, if_neg htcp, if_neg hhttp, if_neg hudp]
  · rename_i hread
    simp only [Option.ite_none_right_eq_some] at h
    obtain ⟨hwrite, h⟩ := h
    split at h
    · cases h
    · rename_i hudp
      obtain ⟨rfl, rfl⟩ := LoopTask.client.inj (Option.some.inj h)
      -- a TCP listening socket is not found ready for writing alone
      have htcp : i ≠ l.tcp := fun heq => hread (hinv.listening i hwrite (Or.inl heq))
      have hhttp : i ≠ l.http := fun heq => hread (hinv.listening i hwrite (Or.inr heq))
      refine ⟨rfl, ListeningSockets.notMem_fds.mpr ⟨htcp, hudp, hhttp⟩, Or.inr hwrite, ?_⟩
      rw [visitFd, forBody, if_neg hread, if_pos hwrite, if_neg hudp]

/-- Without a task a listening socket accepts, or a client has an exception, or the tables stay
as they are. -/
theorem visitFd_of_no_task (h : taskAt l loop i = none) (a : Answers) :
    (∃ p, acceptsAt l loop i = some p ∧ visitFd l loop i a = acceptClient l loop.tables p a) ∨
    (acceptsAt l loop i = none ∧ i ∈ loop.exceptFds ∧ i ∉ l.fds ∧
      visitFd l loop i a = some (exceptClient loop.tables (protocolAt loop.tables i) i)) ∨
    (acceptsAt l loop i = none ∧ ∃ exit, visitFd l loop i a = some ⟨loop.tables, [], exit⟩) := by
  simp only [taskAt] at h
  split at h
  · rename_i hread
    refine Or.inl ?_
    split at h
    · rename_i hlistening
      by_cases htcp : i = l.tcp
      · exact ⟨.tcp, by rw [acceptsAt, if_pos hread, if_pos htcp],
          by rw [visitFd, forBody, if_pos hread, if_pos htcp]⟩
      · have hhttp : i = l.http := hlistening.resolve_left htcp
        exact ⟨.http, by rw [acceptsAt, if_pos hread, if_neg htcp, if_pos hhttp],
          by rw [visitFd, forBody, if_pos hread, if_neg htcp, if_pos hhttp]⟩
    · split at h <;> cases h
  · rename_i hread
    have haccepts : acceptsAt l loop i = none := if_neg hread
    refine Or.inr ?_
    split at h
    · split at h <;> cases h
    · rename_i hwrite
      by_cases hexcept : i ∈ loop.exceptFds
      · by_cases hclient : i ≠ l.tcp ∧ i ≠ l.udp ∧ i ≠ l.http
        · refine Or.inl ⟨haccepts, hexcept, ListeningSockets.notMem_fds.mpr hclient, ?_⟩
          rw [visitFd, forBody, if_neg hread, if_neg hwrite, if_pos hexcept, if_pos hclient]
        · refine Or.inr ⟨haccepts, .stop, ?_⟩
          rw [visitFd, forBody, if_neg hread, if_neg hwrite, if_pos hexcept, if_neg hclient]
      · refine Or.inr ⟨haccepts, .next, ?_⟩
        rw [visitFd, forBody, if_neg hread, if_neg hwrite, if_neg hexcept]

end Branches

@[simp] theorem Server.store_loop (s : Server) (i n : Nat) (c : ClientConnection) :
    (s.store i n c).loop = s.loop := by
  cases c <;> rfl

@[simp] theorem Server.arrive_loop (s : Server) (p : Protocol) (fd : Nat)
    (stream : ByteSource UInt8) : (s.arrive p fd stream).loop = s.loop := by
  cases p <;> rfl

theorem Server.moves_eq_some {event : Event} (h : s.moves l event = some s') :
    ∃ loop, loopStep l s.loop event = some loop ∧ s' = { s with loop } := by
  obtain ⟨loop, hloop, rfl⟩ := Option.map_eq_some_iff.mp h
  exact ⟨loop, hloop, rfl⟩

/-- A step of the loop that is a visit. -/
theorem LoopState.visit_eq_some {loop loop' : LoopState} {i : Nat} {a : Answers}
    (hphase : loop.phase = .scanning i) (h : loopStep l loop (.visit a) = some loop') :
    ∃ v, visitFd l loop i a = some v ∧ loop' = loop.advance i v := by
  simp only [loopStep, hphase, Option.ite_none_right_eq_some, Option.map_eq_some_iff] at h
  obtain ⟨-, v, hv, rfl⟩ := h
  exact ⟨v, hv, rfl⟩

/-- A visit without a task. -/
theorem moved_of_no_task (hinv : s.loop.Inv l) {i : Nat} (hphase : s.loop.phase = .scanning i)
    {env : VisitEnv} (htask : taskAt l s.loop i = none)
    (h : (s.accept l i env).moves l (.visit (env.answers .refused)) = some s') :
    ServerMoved l s (.visit env) s' := by
  rcases visitFd_of_no_task htask (env.answers .refused) with
    ⟨p, haccepts, hvisit⟩ | ⟨haccepts, hexcept, hclient, hvisit⟩ | ⟨haccepts, exit, hvisit⟩
  · -- a listening socket: `accept` fails, or a client arrives
    cases haccepted : env.accepted with
    | none =>
      have hs : s.accept l i env = s := by simp [Server.accept, haccepts, haccepted]
      rw [hs] at h
      obtain ⟨loop, hloop, rfl⟩ := Server.moves_eq_some h
      obtain ⟨v, hv, rfl⟩ := LoopState.visit_eq_some hphase hloop
      rw [hvisit, acceptClient] at hv
      simp only [VisitEnv.answers, haccepted, Option.some.injEq] at hv
      obtain rfl := hv
      exact .idle _ _ (by simp) (by simp)
    | some fd =>
      have hs : s.accept l i env = s.arrive p fd env.stream := by
        simp [Server.accept, haccepts, haccepted]
      rw [hs] at h
      obtain ⟨loop, hloop, rfl⟩ := Server.moves_eq_some h
      rw [Server.arrive_loop] at hloop
      obtain ⟨v, hv, rfl⟩ := LoopState.visit_eq_some hphase hloop
      rcases acceptClient_cases (hvisit ▸ hv) with
        ⟨hnone, -⟩ | ⟨newFd, hsome, ⟨-, -, hfresh⟩, hregistered⟩
      · rw [VisitEnv.answers, haccepted] at hnone
        cases hnone
      -- the descriptor in the loop is the one that `accept` returned
      obtain rfl : fd = newFd := by
        rw [VisitEnv.answers, haccepted] at hsome
        exact Option.some.inj hsome
      rcases hregistered with ⟨-, rfl⟩ | ⟨e, -, rfl⟩
      · -- without a record the new connection is closed at once
        refine .rejected env _ p fd hfresh ?_ (by simp [Tables.register, Tables.setEntry,
          Tables.fdSet, Tables.fdClr, Tables.close, Tables.connect])
        funext j
        by_cases hj : j = fd
        · simp [Tables.close, hj, hfresh]
        · simp [Tables.register, Tables.setEntry, Tables.fdSet, Tables.fdClr, Tables.close,
            Tables.connect, hj]
      · refine .accepted env _ p fd (fun j => ?_) (by simp [Tables.register, Tables.setEntry,
          Tables.fdSet, Tables.connect])
        simp [Tables.register, Tables.setEntry, Tables.fdSet, Tables.connect]
  · -- an exception: the client is dropped
    have hs : s.accept l i env = s := by simp [Server.accept, haccepts]
    rw [hs] at h
    obtain ⟨loop, hloop, rfl⟩ := Server.moves_eq_some h
    obtain ⟨v, hv, rfl⟩ := LoopState.visit_eq_some hphase hloop
    obtain ⟨e, he⟩ := hinv.agree.entry_protocolAt
      (hinv.ready i hphase i le_rfl (Or.inr (Or.inr hexcept))) hclient
    rw [hvisit, exceptClient, he, Option.some.injEq] at hv
    obtain rfl := hv
    refine .dropped env _ i (fun j => ?_) ?_
    · rw [LoopState.advance_tables]
      exact hinv.agree.opened_dropClient he j
    · rw [LoopState.advance_tables]
      exact hinv.agree.accepted_dropClient he
  · -- nothing is reported for the descriptor
    have hs : s.accept l i env = s := by simp [Server.accept, haccepts]
    rw [hs] at h
    obtain ⟨loop, hloop, rfl⟩ := Server.moves_eq_some h
    obtain ⟨v, hv, rfl⟩ := LoopState.visit_eq_some hphase hloop
    rw [hvisit, Option.some.injEq] at hv
    obtain rfl := hv
    exact .idle _ _ (by simp) (by simp)

/-- A visit with a task that `threadpool_add` refuses. -/
theorem moved_of_refused (hinv : s.loop.Inv l) {i : Nat} (hphase : s.loop.phase = .scanning i)
    {env : VisitEnv} {task : LoopTask} (htask : taskAt l s.loop i = some task)
    (h : s.moves l (.visit (env.answers .refused)) = some s') :
    ServerMoved l s (.visit env) s' := by
  obtain ⟨loop, hloop, rfl⟩ := Server.moves_eq_some h
  obtain ⟨v, hv, rfl⟩ := LoopState.visit_eq_some hphase hloop
  cases task with
  | heartbeat d =>
    rw [visitFd_of_heartbeat htask, Option.some.injEq] at hv
    obtain rfl := hv
    exact .idle _ _ (by simp [VisitEnv.answers, runHeartbeatTask])
      (by simp [VisitEnv.answers, runHeartbeatTask])
  | client p d =>
    obtain ⟨rfl, hclient, hready, hvisit⟩ :=
      visitFd_of_client hinv htask (env.answers .refused)
    have hmaster : i ∈ s.loop.tables.master := by
      apply hinv.ready i hphase i le_rfl
      rcases hready with hread | hwrite
      · exact Or.inl hread
      · exact Or.inr (Or.inl hwrite)
    obtain ⟨e, he⟩ := hinv.agree.entry_protocolAt hmaster hclient
    rw [hvisit, Option.some.injEq] at hv
    obtain rfl := hv
    refine .dropped env _ i (fun j => ?_) ?_
    · rw [LoopState.advance_tables]
      exact hinv.agree.opened_dropClient he j
    · rw [LoopState.advance_tables]
      exact hinv.agree.accepted_dropClient he

/-- The loop goes on with the result of a handler that was given a record. -/
theorem runClientTask_done {t : Tables} {p : Protocol} {i : Nat} {e : ClientEntry}
    (he : t.entries p i = some e) (d : Direction) (value : Int) :
    runClientTask t p d i (.done (some value)) =
      ⟨if EndsClient value then t.dropClient p i else t,
        [.client p d i (some e) (t.opened i)], .next⟩ := by
  by_cases hends : EndsClient value
  · simp only [runClientTask, he, Option.isSome_some, if_true, if_pos hends]
    exact if_pos hends
  · simp only [runClientTask, he, Option.isSome_some, if_true, if_neg hends]
    exact if_neg hends

/-- A visit with a task that runs. -/
theorem moved_of_task (hinv : s.loop.Inv l) {i : Nat} (hphase : s.loop.phase = .scanning i)
    (hrunning : s.heartbeat.status = .running) {env : VisitEnv} {task : LoopTask}
    (hadded : env.added = true) (htask : taskAt l s.loop i = some task)
    (h : ((s.runTask i env task).bind fun r =>
      r.2.moves l (.visit (env.answers (.done r.1)))) = some s') :
    ServerMoved l s (.visit env) s' := by
  obtain ⟨⟨result, s₁⟩, hrun, h⟩ := Option.bind_eq_some_iff.mp h
  obtain ⟨loop, hloop, rfl⟩ := Server.moves_eq_some h
  -- the event runs the task of this descriptor
  have hruns : s.runs l env = some (i, task) := by
    simp [Server.runs, hphase, hadded, htask]
  cases task with
  | heartbeat d =>
    obtain ⟨heartbeat, hpass, rfl, hlive⟩ := Server.runTask_heartbeat hrunning hrun
    obtain ⟨v, hv, rfl⟩ := LoopState.visit_eq_some hphase hloop
    rw [visitFd_of_heartbeat htask, Option.some.injEq] at hv
    obtain rfl := hv
    refine .heartbeat env _ d i heartbeat hruns hpass (by simp [VisitEnv.answers, runHeartbeatTask])
      (by simp [VisitEnv.answers, runHeartbeatTask]) fun hphase' => hlive fun hnone => ?_
    -- NULL ends the loop
    exact hphase' (LoopState.advance_stop (by simp [VisitEnv.answers, runHeartbeatTask, hnone]))
  | client p d =>
    obtain ⟨rfl, hclient, hready, hvisit⟩ :=
      visitFd_of_client hinv htask (env.answers (.done result))
    -- a ready descriptor is registered, so it has an entry and a connection
    have hmaster : i ∈ s.loop.tables.master := by
      apply hinv.ready i hphase i le_rfl
      rcases hready with hread | hwrite
      · exact Or.inl hread
      · exact Or.inr (Or.inl hwrite)
    obtain ⟨e, he⟩ := hinv.agree.entry_protocolAt hmaster hclient
    obtain ⟨-, hopened, -⟩ := hinv.agree.entry _ i e he
    obtain ⟨c, hpass, rfl, hopen⟩ := Server.runTask_client he hopened hrun
    rw [Server.store_loop] at hloop
    obtain ⟨v, hv, rfl⟩ := LoopState.visit_eq_some hphase hloop
    rw [hvisit, Option.some.injEq] at hv
    obtain rfl := hv
    cases result with
    | none =>
      refine .served env _ _ d i e.serial c hruns hopened hpass ?_ ?_
        fun hphase' => absurd ?_ hphase'
      · simp [VisitEnv.answers, runClientTask, he]
      · simp [VisitEnv.answers, runClientTask, he]
      · exact LoopState.advance_stop (by simp [VisitEnv.answers, runClientTask, he])
    | some value =>
      have hdone := runClientTask_done he d value
      -- error and closed end the client, with the others it goes on
      by_cases hends : EndsClient value
      · rw [if_pos hends] at hdone
        refine .ended env _ _ d i e.serial c hruns hopened hpass (fun j => ?_) ?_
        · rw [LoopState.advance_tables, VisitEnv.answers, hdone]
          exact hinv.agree.opened_dropClient he j
        · rw [LoopState.advance_tables, VisitEnv.answers, hdone]
          exact hinv.agree.accepted_dropClient he
      · rw [if_neg hends] at hdone
        refine .served env _ _ d i e.serial c hruns hopened hpass ?_ ?_
          fun _ => hopen.mpr ⟨value, rfl, hends⟩
        · rw [LoopState.advance_tables, VisitEnv.answers, hdone]
        · rw [LoopState.advance_tables, VisitEnv.answers, hdone]

/-- What one event makes of a server whose tables agree. -/
theorem serverMoved_of_step (hinv : s.loop.Inv l)
    (hrunning : s.loop.phase ≠ .finished → s.heartbeat.status = .running) {event : ServerEvent}
    (h : serverStep l s event = some s') : ServerMoved l s event s' := by
  have hquiet : ∀ e : Event, (∀ a, e ≠ .visit a) → s.moves l e = some s' →
      ServerMoved l s event s' := by
    intro e hvisit h
    obtain ⟨loop, hloop, rfl⟩ := Server.moves_eq_some h
    have htables : loop.tables = s.loop.tables := by
      cases loopStep_move hloop with
      | visited => exact absurd rfl (hvisit _)
      | _ => rfl
    exact .idle event loop (by rw [htables]) (by rw [htables])
  cases event with
  | interrupt => exact hquiet .interrupt (by simp) h
  | select ret readFds writeFds exceptFds =>
    exact hquiet (.select ret readFds writeFds exceptFds) (by simp) h
  | leave => exact hquiet .leave (by simp) h
  | visit env =>
    cases hphase : s.loop.phase with
    | scanning i =>
      simp only [serverStep, hphase] at h
      cases htask : taskAt l s.loop i with
      | none =>
        rw [htask] at h
        exact moved_of_no_task hinv hphase htask h
      | some task =>
        simp only [htask] at h
        split at h
        · rename_i hadded
          exact moved_of_task hinv hphase (hrunning (by simp [hphase])) hadded htask h
        · exact moved_of_refused hinv hphase htask h
    | _ => simp [serverStep, hphase] at h

/-! ### The loop inside the server -/

theorem Server.runTask_loop {i : Nat} {env : VisitEnv} {task : LoopTask} {result : Option Int}
    (h : s.runTask i env task = some (result, s')) : s'.loop = s.loop := by
  have hsimple : ∀ (s₁ : Server) outcome event,
      s₁.finishSimple i outcome event = some (result, s') → s₁.loop = s.loop →
        s'.loop = s.loop := by
    intro s₁ outcome event h hloop
    unfold Server.finishSimple at h
    grind
  have hhttp : ∀ (s₁ : Server) outcome events,
      s₁.finishHttp i outcome events = some (result, s') → s₁.loop = s.loop →
        s'.loop = s.loop := by
    intro s₁ outcome events h hloop
    unfold Server.finishHttp at h
    grind
  have hheartbeat : ∀ outcome events,
      s.finishHeartbeat outcome events = some (result, s') → s'.loop = s.loop := by
    intro outcome events h
    unfold Server.finishHeartbeat at h
    grind
  unfold Server.runTask at h
  split at h
  · exact hheartbeat _ _ h
  · exact hheartbeat _ _ h
  · exact hsimple _ _ _ h rfl
  · exact hsimple _ _ _ h rfl
  · exact hhttp _ _ _ h rfl
  · exact hhttp _ _ _ h rfl

theorem Server.accept_loop (l : ListeningSockets) (s : Server) (i : Nat) (env : VisitEnv) :
    (s.accept l i env).loop = s.loop := by
  unfold Server.accept
  split
  · exact Server.arrive_loop _ _ _ _
  · rfl

/-- The server makes a step of its loop for every event; select answers it as it answers the
server. -/
theorem loopStep_of_serverStep {event : ServerEvent} (h : serverStep l s event = some s') :
    ∃ e, loopStep l s.loop e = some s'.loop ∧
      match event with
      | .interrupt => e = .interrupt
      | .select ret readFds writeFds exceptFds => e = .select ret readFds writeFds exceptFds
      | .visit _ => ∃ answers, e = .visit answers
      | .leave => e = .leave := by
  have hmoves : ∀ (s₁ : Server) e, s₁.loop = s.loop → s₁.moves l e = some s' →
      loopStep l s.loop e = some s'.loop := by
    intro s₁ e hloop h
    obtain ⟨loop, hstep, rfl⟩ := Server.moves_eq_some h
    rwa [hloop] at hstep
  cases event with
  | interrupt => exact ⟨_, hmoves s _ rfl h, rfl⟩
  | select ret readFds writeFds exceptFds => exact ⟨_, hmoves s _ rfl h, rfl⟩
  | leave => exact ⟨_, hmoves s _ rfl h, rfl⟩
  | visit env =>
    simp only [serverStep] at h
    split at h
    · split at h
      · exact ⟨_, hmoves _ _ (Server.accept_loop _ _ _ _) h, _, rfl⟩
      · split at h
        · obtain ⟨r, hrun, h⟩ := Option.bind_eq_some_iff.mp h
          exact ⟨_, hmoves _ _ (Server.runTask_loop hrun) h, _, rfl⟩
        · exact ⟨_, hmoves s _ rfl h, _, rfl⟩
    · cases h

/-- Select reports a TCP listening socket for writing only if it reports it for reading. -/
def ServerSelects (l : ListeningSockets) : ServerEvent → Prop
  | .select ret readFds writeFds exceptFds =>
    SelectsListening l (.select ret readFds writeFds exceptFds)
  | _ => True

theorem serverStep_inv {event : ServerEvent} (hinv : s.loop.Inv l)
    (hselects : ServerSelects l event) (h : serverStep l s event = some s') : s'.loop.Inv l := by
  obtain ⟨e, hloop, he⟩ := loopStep_of_serverStep h
  refine loopStep_inv hinv ?_ hloop
  cases event with
  | visit env =>
    obtain ⟨answers, rfl⟩ := he
    trivial
  | _ =>
    obtain rfl := he
    exact hselects

/-- A loop that has ended stays so. -/
theorem phase_of_loopStep {loop loop' : LoopState} {e : Event}
    (h : loopStep l loop e = some loop') (hlive : loop'.phase ≠ .finished) :
    loop.phase ≠ .finished := by
  intro hphase
  cases e with
  | interrupt =>
    obtain rfl := Option.some.inj h
    exact hlive hphase
  | select => simp [loopStep, hphase] at h
  | visit => simp [loopStep, hphase] at h
  | leave => simp [loopStep, hphase] at h

/-! ## Connections are kept apart -/

section Views

variable {i j n m : Nat} {p : Protocol} {c c' : ClientConnection} {pass : ClientPass} {b : Bool}

@[simp] theorem Server.view_loop (s : Server) (loop : LoopState) (i : Nat) (c : Connection)
    (b : Bool) : ({ s with loop } : Server).view i c b = s.view i c b := rfl

@[simp] theorem Server.view_heartbeat (s : Server) (heartbeat : HeartbeatServer) (i : Nat)
    (c : Connection) (b : Bool) :
    ({ s with heartbeat } : Server).view i c b = s.view i c b := rfl

theorem ClientConnection.LoggedIn.congr (h : c.LoggedIn s n) (hsimple : s'.simpleLog = s.simpleLog)
    (hhttp : s'.httpLog = s.httpLog) : c.LoggedIn s' n := by
  cases c with
  | simple c => exact ⟨(congrFun hsimple n).trans h.1, (congrFun hhttp n).trans h.2⟩
  | http c => exact ⟨(congrFun hhttp n).trans h.1, (congrFun hsimple n).trans h.2⟩

/-- A pass over the connection at `i` is stored at `i`. -/
theorem Server.view_store_self (h : clientPass (s.view i ⟨p, n⟩ b) pass = some c) :
    (s.store i n c).view i ⟨p, n⟩ c.isOpen = c := by
  cases p with
  | tcp =>
    cases pass with
    | simple pass =>
      obtain ⟨d, -, rfl⟩ := Option.map_eq_some_iff.mp h
      simp [Server.store, Server.view, ClientConnection.isOpen]
    | http pass => cases h
  | http =>
    cases pass with
    | simple pass => cases h
    | http pass =>
      obtain ⟨d, -, rfl⟩ := Option.map_eq_some_iff.mp h
      simp [Server.store, Server.view, ClientConnection.isOpen]

theorem Server.view_store_of_ne {o : Connection} (hi : j ≠ i) (hn : o.serial ≠ n) :
    (s.store i n c).view j o b = s.view j o b := by
  cases c <;> simp [Server.store, Server.view, hi, hn]

theorem ClientConnection.LoggedIn.passed (h : c'.LoggedIn s n)
    (hpass : clientPass c' pass = some c) : c.LoggedIn (s.store i n c) n := by
  cases c' with
  | simple c' =>
    cases pass with
    | simple pass =>
      obtain ⟨d, -, rfl⟩ := Option.map_eq_some_iff.mp hpass
      simpa [ClientConnection.LoggedIn, Server.store] using h.2
    | http pass => cases hpass
  | http c' =>
    cases pass with
    | simple pass => cases hpass
    | http pass =>
      obtain ⟨d, -, rfl⟩ := Option.map_eq_some_iff.mp hpass
      simpa [ClientConnection.LoggedIn, Server.store] using h.2

theorem ClientConnection.loggedIn_store_of_ne (hn : m ≠ n) :
    c'.LoggedIn (s.store i n c) m ↔ c'.LoggedIn s m := by
  cases c <;> cases c' <;> simp [ClientConnection.LoggedIn, Server.store, hn]

theorem Server.view_arrive_of_ne {o : Connection} {stream : ByteSource UInt8} (hi : j ≠ i) :
    (s.arrive p i stream).view j o b = s.view j o b := by
  cases p <;> simp [Server.arrive, Server.view, hi]

/-- The connection that arrives is put where its descriptor refers to. -/
theorem Server.view_arrive_self {stream : ByteSource UInt8} (hsimple : s.simpleLog n = [])
    (hhttp : s.httpLog n = []) :
    (s.arrive p i stream).view i ⟨p, n⟩ true = (Arrival.mk p i stream).connection := by
  cases p <;> simp [Server.arrive, Server.view, Arrival.connection, SimpleConnection.accepted,
    HttpConnection.accepted, hsimple, hhttp]

theorem Arrival.loggedIn_connection {a : Arrival} (hsimple : s.simpleLog n = [])
    (hhttp : s.httpLog n = []) : a.connection.LoggedIn s n := by
  unfold Arrival.connection
  split
  · exact ⟨hsimple, hhttp⟩
  · exact ⟨hhttp, hsimple⟩

end Views

/-! ## The server refines its sessions -/

variable {cond : ClientConnection → ClientPass → Prop}
  {hcond : HeartbeatServer → HeartbeatPass → Prop}

/-- The condition for the pass that a task makes. -/
def Server.TaskMeets (cond : ClientConnection → ClientPass → Prop)
    (hcond : HeartbeatServer → HeartbeatPass → Prop) (s : Server) (env : VisitEnv) (i : Nat) :
    LoopTask → Prop
  | .heartbeat d => hcond s.heartbeat (env.udpPass d)
  | .client p d => ∀ c ∈ s.loop.tables.opened i, cond (s.view i c true) (env.pass p d)

instance [∀ c pass, Decidable (cond c pass)] [∀ b pass, Decidable (hcond b pass)] (s : Server)
    (env : VisitEnv) (i : Nat) : DecidablePred (s.TaskMeets cond hcond env i)
  | .heartbeat d => inferInstanceAs (Decidable (hcond s.heartbeat (env.udpPass d)))
  | .client p d => inferInstanceAs (Decidable
      (∀ c ∈ s.loop.tables.opened i, cond (s.view i c true) (env.pass p d)))

/-- The task that an event runs, if any, meets its condition, and select does not report a TCP
listening socket for writing alone. -/
def TasksMeet (l : ListeningSockets) (cond : ClientConnection → ClientPass → Prop)
    (hcond : HeartbeatServer → HeartbeatPass → Prop) (s : Server) (event : ServerEvent) : Prop :=
  ServerSelects l event ∧
    match event with
    | .visit env => ∀ r ∈ s.runs l env, s.TaskMeets cond hcond env r.1 r.2
    | _ => True

instance [∀ c pass, Decidable (cond c pass)] [∀ b pass, Decidable (hcond b pass)]
    (l : ListeningSockets) (s : Server) : DecidablePred (TasksMeet l cond hcond s)
  | .interrupt => inferInstanceAs (Decidable (True ∧ True))
  | .select _ readFds writeFds _ => inferInstanceAs (Decidable
      ((∀ fd ∈ writeFds, fd = l.tcp ∨ fd = l.http → fd ∈ readFds) ∧ True))
  | .visit env => inferInstanceAs (Decidable
      (True ∧ ∀ r ∈ s.runs l env, s.TaskMeets cond hcond env r.1 r.2))
  | .leave => inferInstanceAs (Decidable (True ∧ True))

/-- The server has its clients as sessions of their own: the descriptors that are open are the
slots, the session of a slot is what the server has at the descriptor, and what was read and
sent under each number is what its session read and sent. The heartbeats are a session too. -/
structure Server.Refines (l : ListeningSockets) (s : Server)
    (t : Slots Nat clientPass cond) (u : Session heartbeatPass hcond) : Prop where
  count : t.sessions.length = s.loop.tables.accepted
  slot : ∀ fd, t.slot fd = (s.loop.tables.opened fd).map Connection.serial
  state : ∀ fd c, s.loop.tables.opened fd = some c →
    ∃ (session : Session clientPass cond) (isOpen : Bool),
      t.sessions[c.serial]? = some session ∧ session.state = s.view fd c isOpen ∧
      (s.loop.phase ≠ .finished → isOpen = true)
  arrivals : t.sessions.map Session.init = s.arrivals.map Arrival.connection
  log : ∀ n (session : Session clientPass cond), t.sessions[n]? = some session →
    session.state.LoggedIn s n
  fresh : ∀ n, t.sessions.length ≤ n → s.simpleLog n = [] ∧ s.httpLog n = []
  heartbeat : u.init = .initial l.udp ∧ u.state = s.heartbeat
  running : s.loop.phase ≠ .finished → s.heartbeat.status = .running

theorem Server.refines_initial (l : ListeningSockets) :
    (Server.initial l).Refines l (Slots.empty : Slots Nat clientPass cond)
      (Session.start (.initial l.udp) : Session heartbeatPass hcond) where
  count := rfl
  slot := fun _ => rfl
  state := fun fd c hc => by cases hc
  arrivals := rfl
  log := fun n session h => by simp [Slots.empty] at h
  fresh := fun _ _ => ⟨rfl, rfl⟩
  heartbeat := ⟨rfl, rfl⟩
  running := fun _ => rfl

variable {t : Slots Nat clientPass cond} {u : Session heartbeatPass hcond} {loop : LoopState}
  {n : Nat} {own : ClientConnection → ClientPass → Prop}

/-- Two descriptors never stand for the same connection. -/
theorem Server.Refines.opened_inj (h : s.Refines l t u) {i j : Nat} {c d : Connection}
    (hi : s.loop.tables.opened i = some c) (hj : s.loop.tables.opened j = some d)
    (hserial : c.serial = d.serial) : i = j := by
  apply t.slot_inj i j c.serial
  · rw [h.slot, hi]
    rfl
  · rw [h.slot, hj, hserial]
    rfl

/-- The numbers in use are those given out. -/
theorem Server.Refines.serial_lt (h : s.Refines l t u) {i : Nat} {c : Connection}
    (hi : s.loop.tables.opened i = some c) : c.serial < t.sessions.length := by
  apply t.slot_lt i
  rw [h.slot, hi]
  rfl

/-- An event that has to do with no connection. -/
theorem Server.Refines.idle (h : s.Refines l t u)
    (hlive : loop.phase ≠ .finished → s.loop.phase ≠ .finished)
    (hopened : loop.tables.opened = s.loop.tables.opened)
    (haccepted : loop.tables.accepted = s.loop.tables.accepted) :
    Server.Refines l { s with loop } t u where
  count := h.count.trans haccepted.symm
  slot := fun fd => by rw [h.slot, hopened]
  state := by
    intro fd c hc
    obtain ⟨session, isOpen, hsession, hstate, hopen⟩ := h.state fd c (hopened ▸ hc)
    exact ⟨session, isOpen, hsession, hstate, fun hphase => hopen (hlive hphase)⟩
  arrivals := h.arrivals
  log := fun n session hn => ClientConnection.LoggedIn.congr (h.log n session hn) rfl rfl
  fresh := h.fresh
  heartbeat := h.heartbeat
  running := fun hphase => h.running (hlive hphase)

/-- A client leaves its descriptor. -/
theorem Server.Refines.leave (h : s.Refines l t u)
    (hlive : loop.phase ≠ .finished → s.loop.phase ≠ .finished) {i : Nat}
    (hopened : ∀ j, loop.tables.opened j = if j = i then none else s.loop.tables.opened j)
    (haccepted : loop.tables.accepted = s.loop.tables.accepted) :
    Server.Refines l { s with loop } (t.leave i) u where
  count := h.count.trans haccepted.symm
  slot := by
    intro fd
    show (if fd = i then none else t.slot fd) = (loop.tables.opened fd).map Connection.serial
    rw [hopened, h.slot]
    split <;> rfl
  state := by
    intro fd c hc
    change loop.tables.opened fd = some c at hc
    rw [hopened, Option.ite_none_left_eq_some] at hc
    obtain ⟨session, isOpen, hsession, hstate, hopen⟩ := h.state fd c hc.2
    exact ⟨session, isOpen, hsession, hstate, fun hphase => hopen (hlive hphase)⟩
  arrivals := h.arrivals
  log := fun n session hn => ClientConnection.LoggedIn.congr (h.log n session hn) rfl rfl
  fresh := h.fresh
  heartbeat := h.heartbeat
  running := fun hphase => h.running (hlive hphase)

/-- A client enters a descriptor that is not open. -/
theorem Server.Refines.enter (h : s.Refines l t u)
    (hlive : loop.phase ≠ .finished → s.loop.phase ≠ .finished) {p : Protocol} {fd : Nat}
    {stream : ByteSource UInt8}
    (hopened : ∀ j, loop.tables.opened j =
      if j = fd then some ⟨p, s.loop.tables.accepted⟩ else s.loop.tables.opened j)
    (haccepted : loop.tables.accepted = s.loop.tables.accepted + 1) :
    Server.Refines l { s.arrive p fd stream with loop }
      (t.enter fd (Arrival.mk p fd stream).connection) u := by
  obtain ⟨hsimple, hhttp⟩ := h.fresh s.loop.tables.accepted h.count.le
  refine ⟨?_, fun j => ?_, fun j c hc => ?_, ?_, fun n session hn => ?_, fun n hn => ?_, ?_,
    fun hphase => ?_⟩
  · -- one more session for one more client
    show (t.sessions ++ [_]).length = loop.tables.accepted
    rw [List.length_append, h.count, haccepted]
    rfl
  · show (if j = fd then some t.sessions.length else t.slot j) = _
    rw [hopened, h.slot, h.count]
    split <;> rfl
  · change loop.tables.opened j = some c at hc
    rw [hopened] at hc
    by_cases hj : j = fd
    · subst hj
      rw [if_pos rfl] at hc
      obtain rfl := Option.some.inj hc
      -- the new descriptor stands for the session that has just begun
      refine ⟨.start (Arrival.mk p j stream).connection, true, ?_,
        (Server.view_arrive_self hsimple hhttp).symm, fun _ => rfl⟩
      show (t.sessions ++ [_])[s.loop.tables.accepted]? = _
      rw [← h.count, List.getElem?_concat_length]
    · rw [if_neg hj] at hc
      obtain ⟨session, isOpen, hsession, hstate, hopen⟩ := h.state j c hc
      -- the others for the sessions they had
      refine ⟨session, isOpen, ?_, ?_, fun hphase => hopen (hlive hphase)⟩
      · exact List.getElem?_append_left (h.serial_lt hc) ▸ hsession
      · rw [hstate]
        exact (Server.view_arrive_of_ne hj).symm
  · have harrivals : (s.arrive p fd stream).arrivals = s.arrivals ++ [Arrival.mk p fd stream] := by
      cases p <;> rfl
    show (t.sessions ++ [_]).map Session.init = (s.arrive p fd stream).arrivals.map _
    rw [harrivals, List.map_append, List.map_append, h.arrivals]
    rfl
  · -- the logs are as before, and that of the new client is empty
    suffices hlog : session.state.LoggedIn s n by
      cases p <;> exact ClientConnection.LoggedIn.congr hlog rfl rfl
    change (t.sessions ++ [_])[n]? = some session at hn
    rcases lt_or_ge n t.sessions.length with hlt | hge
    · rw [List.getElem?_append_left hlt] at hn
      exact h.log n session hn
    · -- the number of the new client is the length of the list
      obtain rfl : n = t.sessions.length := by
        have hlt := (List.getElem?_eq_some_iff.mp hn).1
        simp only [List.length_append, List.length_singleton] at hlt
        omega
      rw [List.getElem?_concat_length] at hn
      obtain rfl := Option.some.inj hn
      exact Arrival.loggedIn_connection (h.fresh _ le_rfl).1 (h.fresh _ le_rfl).2
  · have hle : t.sessions.length ≤ n := by
      change (t.sessions ++ [_]).length ≤ n at hn
      simp only [List.length_append, List.length_singleton] at hn
      omega
    cases p <;> exact h.fresh n hle
  · cases p <;> exact h.heartbeat
  · cases p <;> exact h.running (hlive hphase)

/-- The session of a client makes a step, and the client stays or leaves. -/
theorem Server.Refines.pass (h : s.Refines l t u)
    (hlive : loop.phase ≠ .finished → s.loop.phase ≠ .finished) {p : Protocol} {i n : Nat}
    {c : ClientConnection} {pass : ClientPass} {session : Session clientPass cond}
    (hopen : s.loop.tables.opened i = some ⟨p, n⟩)
    (hpass : clientPass (s.view i ⟨p, n⟩ true) pass = some c)
    (hsession : t.sessions[n]? = some session) (hstate : session.state = s.view i ⟨p, n⟩ true)
    (hcond : cond session.state pass) {t' : Slots Nat clientPass cond}
    (hsessions : t'.sessions =
      t.sessions.set n (session.extend pass c (hstate ▸ hpass) hcond))
    (hslot : ∀ fd, t'.slot fd = (loop.tables.opened fd).map Connection.serial)
    (hopened : ∀ j o, loop.tables.opened j = some o → s.loop.tables.opened j = some o)
    (haccepted : loop.tables.accepted = s.loop.tables.accepted)
    (hstays : loop.tables.opened i ≠ none → loop.phase ≠ .finished → c.isOpen = true) :
    Server.Refines l { s.store i n c with loop } t' u := by
  have hlt : n < t.sessions.length := h.serial_lt hopen
  refine ⟨?_, hslot, fun j o ho => ?_, ?_, fun m session' hm => ?_, fun m hm => ?_, ?_,
    fun hphase => ?_⟩
  · -- no session is added
    rw [hsessions, List.length_set, h.count]
    exact haccepted.symm
  · change loop.tables.opened j = some o at ho
    by_cases hj : j = i
    · -- the descriptor of the pass stands for the session that goes on
      subst hj
      obtain rfl : ⟨p, n⟩ = o := Option.some.inj (hopen.symm.trans (hopened j o ho))
      refine ⟨session.extend pass c (hstate ▸ hpass) hcond, c.isOpen, ?_, ?_,
        hstays (by simp [ho])⟩
      · rw [hsessions, List.getElem?_set_self hlt]
      · exact (Server.view_store_self hpass).symm
    · -- another descriptor stands for another connection
      have hne : o.serial ≠ n := fun heq => hj (h.opened_inj (hopened j o ho) hopen heq)
      obtain ⟨other, isOpen, hother, hview, hopen'⟩ := h.state j o (hopened j o ho)
      refine ⟨other, isOpen, ?_, ?_, fun hphase => hopen' (hlive hphase)⟩
      · rw [hsessions, List.getElem?_set_ne hne.symm, hother]
      · rw [hview]
        exact (Server.view_store_of_ne hj hne).symm
  · -- the sessions begin where they began
    have harrivals : (s.store i n c).arrivals = s.arrivals := by cases c <;> rfl
    show _ = (s.store i n c).arrivals.map _
    rw [hsessions, harrivals, ← h.arrivals, List.map_set]
    apply List.ext_getElem?
    intro m
    by_cases hm : m = n
    · subst hm
      rw [List.getElem?_set_self (by simpa using hlt), List.getElem?_map, hsession]
      rfl
    · rw [List.getElem?_set_ne (Ne.symm hm)]
  · rw [hsessions] at hm
    -- what is logged: the pass adds to its own session only
    suffices hlog : session'.state.LoggedIn (s.store i n c) m from
      ClientConnection.LoggedIn.congr hlog rfl rfl
    by_cases hne : m = n
    · subst hne
      rw [List.getElem?_set_self hlt] at hm
      obtain rfl := Option.some.inj hm
      exact ClientConnection.LoggedIn.passed (h.log m session hsession) (hstate ▸ hpass)
    · rw [List.getElem?_set_ne (Ne.symm hne)] at hm
      exact (ClientConnection.loggedIn_store_of_ne hne).mpr (h.log m session' hm)
  · rw [hsessions, List.length_set] at hm
    -- nothing is logged for a client to come
    have hne : m ≠ n := by omega
    obtain ⟨hsimple, hhttp⟩ := h.fresh m hm
    cases c <;> simp [Server.store, hne, hsimple, hhttp]
  · cases c <;> exact h.heartbeat
  · cases c <;> exact h.running (hlive hphase)

/-- The session of the heartbeats makes a step. -/
theorem Server.Refines.beat (h : s.Refines l t u)
    (hlive : loop.phase ≠ .finished → s.loop.phase ≠ .finished) {pass : HeartbeatPass}
    {heartbeat : HeartbeatServer}
    (hpass : heartbeatPass s.heartbeat pass = some heartbeat)
    (hcond' : hcond s.heartbeat pass)
    (hopened : loop.tables.opened = s.loop.tables.opened)
    (haccepted : loop.tables.accepted = s.loop.tables.accepted)
    (hrunning : loop.phase ≠ .finished → heartbeat.status = .running) :
    ∃ u' : Session heartbeatPass hcond, Server.Refines l { s with heartbeat, loop } t u' := by
  have hu := h.heartbeat.2
  refine ⟨u.extend pass heartbeat (hu ▸ hpass) (hu ▸ hcond'), h.count.trans haccepted.symm,
    fun fd => by rw [h.slot, hopened], fun fd c hc => ?_, h.arrivals, fun n session hn => ?_,
    h.fresh, ⟨h.heartbeat.1, rfl⟩, hrunning⟩
  · obtain ⟨session, isOpen, hsession, hstate, hopen⟩ := h.state fd c (hopened ▸ hc)
    exact ⟨session, isOpen, hsession, hstate, fun hphase => hopen (hlive hphase)⟩
  · exact ClientConnection.LoggedIn.congr (h.log n session hn) rfl rfl

/-- A visit that runs a task is in the middle of a pass. -/
theorem Server.scanning_of_runs {env : VisitEnv} {r : Nat × LoopTask} (h : s.runs l env = some r) :
    s.loop.phase ≠ .finished := by
  intro hphase
  simp [Server.runs, hphase] at h

/-- The event runs this pass over the connection with the number. -/
def Server.Makes (l : ListeningSockets) (s : Server) (event : ServerEvent) (n : Nat)
    (c : ClientConnection) (pass : ClientPass) : Prop :=
  ∃ env i p d, event = .visit env ∧ s.runs l env = some (i, .client p d) ∧
    s.loop.tables.opened i = some ⟨p, n⟩ ∧ c = s.view i ⟨p, n⟩ true ∧ pass = env.pass p d

/-- One event of the server is at most one operation on its sessions, or two where a client
leaves at once. -/
theorem Server.Refines.step (h : s.Refines l t u) (hinv : s.loop.Inv l) {event : ServerEvent}
    (hmeets : TasksMeet l cond hcond s event) (hstep : serverStep l s event = some s') :
    ∃ (t' : Slots Nat clientPass cond) (u' : Session heartbeatPass hcond),
      s'.Refines l t' u' ∧ t.Follows (s.Makes l event) t' := by
  obtain ⟨e, hloop, -⟩ := loopStep_of_serverStep hstep
  -- a loop that has finished stays so
  have hlive : s'.loop.phase ≠ .finished → s.loop.phase ≠ .finished := phase_of_loopStep hloop
  have hcondition : ∀ env r, event = .visit env → s.runs l env = some r →
      s.TaskMeets cond hcond env r.1 r.2 := by
    rintro env r rfl hr
    exact hmeets.2 r hr
  cases serverMoved_of_step hinv h.running hstep with
  | idle _ loop hopened haccepted =>
    exact ⟨t, u, h.idle hlive hopened haccepted, t.follows_refl⟩
  | accepted env loop p fd hopened haccepted =>
    -- a session begins
    exact ⟨_, u, h.enter hlive hopened haccepted, t.follows_enter fd _⟩
  | rejected env loop p fd hfresh hopened haccepted =>
    -- the client enters, and leaves before anything else happens
    have hentered : Server.Refines l
        { s.arrive p fd env.stream with
          loop := { s.loop with tables := s.loop.tables.connect p fd } }
        (t.enter fd (Arrival.mk p fd env.stream).connection) u := by
      apply h.enter
      · exact id
      · exact fun _ => rfl
      · rfl
    refine ⟨_, u, hentered.leave (i := fd) hlive (fun j => ?_) haccepted,
      (t.follows_enter fd _).leave fd⟩
    rw [hopened]
    by_cases hj : j = fd
    · rw [if_pos hj, hj, hfresh]
    · rw [if_neg hj]
      exact (if_neg hj).symm
  | served env loop p d i n c hruns hopen hpass hopened haccepted hstays =>
    obtain ⟨session, isOpen, hsession, hstate, hlive'⟩ := h.state i _ hopen
    obtain rfl := hlive' (Server.scanning_of_runs hruns)
    have hcond := hcondition env _ rfl hruns _ hopen
    -- the session of the descriptor makes the pass
    refine ⟨t.advance n session _ c (hstate ▸ hpass) (hstate ▸ hcond), u, ?_,
      Slots.follows_advance hsession _ _ ⟨env, i, p, d, rfl, hruns, hopen, hstate, rfl⟩⟩
    apply h.pass hlive hopen hpass hsession hstate (hstate ▸ hcond) rfl _ _ haccepted
      fun _ => hstays
    · intro fd
      rw [hopened]
      exact h.slot fd
    · exact fun j o ho => hopened ▸ ho
  | ended env loop p d i n c hruns hopen hpass hopened haccepted =>
    obtain ⟨session, isOpen, hsession, hstate, hlive'⟩ := h.state i _ hopen
    obtain rfl := hlive' (Server.scanning_of_runs hruns)
    have hcond := hcondition env _ rfl hruns _ hopen
    -- it makes its last pass and leaves its slot
    refine ⟨(t.advance n session _ c (hstate ▸ hpass) (hstate ▸ hcond)).leave i, u, ?_,
      (Slots.follows_advance hsession _ _
        ⟨env, i, p, d, rfl, hruns, hopen, hstate, rfl⟩).leave i⟩
    apply h.pass hlive hopen hpass hsession hstate (hstate ▸ hcond) rfl _ _ haccepted _
    · intro fd
      show (if fd = i then none else t.slot fd) = _
      rw [hopened, h.slot]
      split <;> rfl
    · intro j o ho
      rw [hopened, Option.ite_none_left_eq_some] at ho
      exact ho.2
    · intro hne
      exact absurd (by rw [hopened, if_pos rfl]) hne
  | dropped env loop i hopened haccepted =>
    exact ⟨_, u, h.leave hlive hopened haccepted, t.follows_refl.leave i⟩
  | heartbeat env loop d i heartbeat hruns hpass hopened haccepted hrunning =>
    obtain ⟨u', hu'⟩ :=
      h.beat hlive hpass (hcondition env _ rfl hruns) hopened haccepted hrunning
    exact ⟨t, u', hu', t.follows_refl⟩

/-- What the steps of a run under the conditions keep: the invariant of the loop, and sessions
that the server has its clients as. -/
theorem serverRun_inv (l : ListeningSockets) {events : List ServerEvent}
    (hmeets : Meets (serverStep l) (TasksMeet l cond hcond) (.initial l) events)
    (hrun : run (serverStep l) (.initial l) events = some s) :
    s.loop.Inv l ∧
      ∃ (t : Slots Nat clientPass cond) (u : Session heartbeatPass hcond), s.Refines l t u := by
  refine run_invariant_of_meets (P := fun s : Server => s.loop.Inv l ∧
    ∃ (t : Slots Nat clientPass cond) (u : Session heartbeatPass hcond), s.Refines l t u)
    ?_ ⟨inv_initial l, _, _, Server.refines_initial l⟩ hmeets hrun
  rintro s event s' ⟨hinv, t, u, h⟩ hevent hstep
  obtain ⟨t', u', h', -⟩ := h.step hinv hevent hstep
  exact ⟨serverStep_inv hinv hevent.1 hstep, t', u', h'⟩

/-- In every run in which the tasks meet a condition, the server is its sessions: each client
that was accepted has a session of its own, a run of the handlers of its protocol under the
condition, and the heartbeats have one. Neither the server nor a session notes the bytes of a
pass that ends its client. -/
theorem server_refines_sessions (l : ListeningSockets) {events : List ServerEvent}
    (hmeets : Meets (serverStep l) (TasksMeet l cond hcond) (.initial l) events)
    (hrun : run (serverStep l) (.initial l) events = some s) :
    ∃ (t : Slots Nat clientPass cond) (u : Session heartbeatPass hcond), s.Refines l t u :=
  (serverRun_inv l hmeets hrun).2

/-! ## One client among the others -/

/-- The condition for a task, if it makes a pass over the connection with the number. -/
def Server.TaskOfMeets (n : Nat) (own : ClientConnection → ClientPass → Prop) (s : Server)
    (env : VisitEnv) (i : Nat) : LoopTask → Prop
  | .heartbeat _ => True
  | .client p d => ∀ c ∈ s.loop.tables.opened i, c.serial = n →
      own (s.view i c true) (env.pass p d)

instance [∀ c pass, Decidable (own c pass)] (s : Server) (env : VisitEnv) (i : Nat) :
    DecidablePred (s.TaskOfMeets n own env i)
  | .heartbeat _ => inferInstanceAs (Decidable True)
  | .client p d => inferInstanceAs (Decidable
      (∀ c ∈ s.loop.tables.opened i, c.serial = n → own (s.view i c true) (env.pass p d)))

/-- The passes over the connection with a number meet a condition, and select does not report a
TCP listening socket for writing alone. -/
def TasksOfMeet (l : ListeningSockets) (n : Nat) (own : ClientConnection → ClientPass → Prop)
    (s : Server) (event : ServerEvent) : Prop :=
  ServerSelects l event ∧
    match event with
    | .visit env => ∀ r ∈ s.runs l env, s.TaskOfMeets n own env r.1 r.2
    | _ => True

instance [∀ c pass, Decidable (own c pass)] (l : ListeningSockets) (s : Server) :
    DecidablePred (TasksOfMeet l n own s)
  | .interrupt => inferInstanceAs (Decidable (True ∧ True))
  | .select _ readFds writeFds _ => inferInstanceAs (Decidable
      ((∀ fd ∈ writeFds, fd = l.tcp ∨ fd = l.http → fd ∈ readFds) ∧ True))
  | .visit env => inferInstanceAs (Decidable
      (True ∧ ∀ r ∈ s.runs l env, s.TaskOfMeets n own env r.1 r.2))
  | .leave => inferInstanceAs (Decidable (True ∧ True))

/-- With no condition at all, only select has to be as it is. -/
theorem tasksMeet_of_selects {event : ServerEvent} (h : ServerSelects l event) (s : Server) :
    TasksMeet l (fun _ _ => True) (fun _ _ => True) s event := by
  refine ⟨h, ?_⟩
  cases event with
  | visit env =>
    rintro ⟨i, task⟩ -
    cases task with
    | heartbeat => trivial
    | client => exact fun _ _ => trivial
  | _ => trivial

theorem TasksOfMeet.of_makes {event : ServerEvent} (h : TasksOfMeet l n own s event)
    {c : ClientConnection} {pass : ClientPass} (hmakes : s.Makes l event n c pass) :
    own c pass := by
  obtain ⟨env, i, p, d, rfl, hruns, hopen, rfl, rfl⟩ := hmakes
  exact h.2 _ hruns _ hopen rfl

/-- In every run in which the passes over one connection meet a condition, its session is a run
of the handlers under this condition, whatever the other clients do. -/
theorem server_follows_client (l : ListeningSockets) {events : List ServerEvent}
    (hmeets : Meets (serverStep l) (TasksOfMeet l n own) (.initial l) events)
    (hrun : run (serverStep l) (.initial l) events = some s) :
    ∃ (t : Slots Nat clientPass fun _ _ => True) (u : Session heartbeatPass fun _ _ => True),
      s.Refines l t u ∧
        ∀ session, t.sessions[n]? = some session →
          Meets clientPass own session.init session.labels := by
  suffices hinv : s.loop.Inv l ∧ ∃ (t : Slots Nat clientPass fun _ _ => True)
      (u : Session heartbeatPass fun _ _ => True), s.Refines l t u ∧
        ∀ session, t.sessions[n]? = some session →
          Meets clientPass own session.init session.labels from hinv.2
  refine run_invariant_of_meets (P := fun s : Server => s.loop.Inv l ∧
    ∃ (t : Slots Nat clientPass fun _ _ => True) (u : Session heartbeatPass fun _ _ => True),
      s.Refines l t u ∧ ∀ session, t.sessions[n]? = some session →
        Meets clientPass own session.init session.labels)
    ?_ ⟨inv_initial l, _, _, Server.refines_initial l, by simp [Slots.empty]⟩ hmeets hrun
  rintro s event s' ⟨hinv, t, u, h, hown⟩ hevent hstep
  obtain ⟨t', u', h', hfollows⟩ := h.step hinv (tasksMeet_of_selects hevent.1 s) hstep
  exact ⟨serverStep_inv hinv hevent.1 hstep, t', u', h',
    fun session hsession => hfollows.meets (fun _ _ => hevent.of_makes) hown hsession⟩

/-! ### Two clients at once -/

/-- A system in which no call fails; accept may return a descriptor. -/
def VisitEnv.ideal (accepted : Option Nat) (stream : ByteSource UInt8) : VisitEnv where
  accepted := accepted
  port := 4000
  alloc := true
  stream := stream
  added := true
  threadResult := true
  packetMemory := .ideal
  simpleWrite := .ideal
  receiveMemory := .ideal
  httpWrite := .ideal 5 []
  heartbeat := .ideal 1
  recvfrom := .datagram (bytes "HEARTBEAT") (localPeer 1)
  sendto := true

/-- A pass over the descriptors up to 7. -/
def passOver (accepted : Option Nat) (stream : ByteSource UInt8) (visits : Nat) :
    List ServerEvent :=
  List.replicate visits (.visit (.ideal accepted stream)) ++ [.leave]

/-- A simple client and an HTTP client connect; both and a heartbeat are read in one pass, and
answered in the next one. -/
def twoClients : List ServerEvent :=
  .select 1 {3} ∅ ∅ :: passOver (some 6) twoPings 4 ++
    .select 1 {5} ∅ ∅ :: passOver (some 7) twoRequests 6 ++
    .select 3 {4, 6, 7} ∅ ∅ :: passOver none twoPings 8 ++
    .select 3 ∅ {4, 6, 7} ∅ :: passOver none twoPings 8

theorem server_refines_sessions_twoClients :
    ∃ s, run (serverStep firstSockets) (.initial firstSockets) twoClients = some s ∧
      s.arrivals.length = 2 ∧
      ∃ (t : Slots Nat clientPass fun _ _ => True) (u : Session heartbeatPass fun _ _ => True),
        s.Refines firstSockets t u := by
  have harrivals : (run (serverStep firstSockets) (.initial firstSockets) twoClients).map
      (fun s => s.arrivals.length) = some 2 := by decide +kernel
  obtain ⟨s, hs, harrivals⟩ := Option.map_eq_some_iff.mp harrivals
  refine ⟨s, hs, harrivals, server_refines_sessions firstSockets ?_ hs⟩
  decide +kernel

end SelectServer
