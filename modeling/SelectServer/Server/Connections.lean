import Mathlib.Data.Finset.Basic
import Mathlib.Data.Finset.Insert
import SelectServer.Server.SimpleHandlers

/-!
# The loop of `handle_connections`

One pass of the loop hands copies of `master` to select and then goes through the
descriptors: a listening socket accepts, a client's descriptor is given to a handler with
the record of the client, an exception drops the client. Every way of getting and losing a
client changes `master`, the two tables of records and the open descriptors one by one, while
the pass goes on over the copies.

The tables agree with `master` after each of these events, and each handler is given the
record that was made for its descriptor (`connections_consistent`), as long as select does
not report a TCP listening socket for writing alone: the loop has no branch for that.
-/

namespace SelectServer

open Systems

/-! ## Records and tables -/

/-- `MAX_CLIENTS`. -/
def maxClients : Nat := 1024

/-- The protocols of the two TCP listening sockets. -/
inductive Protocol
  | tcp
  | http
  deriving DecidableEq, Repr

/-- What the loop uses of `Client_Tcp_Data` and `Client_Http_Data`. The connection a record
was made for is known by its number. -/
structure ClientEntry where
  clientSockfd : Nat
  serial : Nat
  deriving DecidableEq, Repr

/-- A connection that the kernel has open for the server. -/
structure Connection where
  protocol : Protocol
  serial : Nat
  deriving DecidableEq, Repr

/-- The three listening sockets. -/
structure ListeningSockets where
  tcp : Nat
  udp : Nat
  http : Nat
  tcp_ne_udp : tcp ≠ udp
  tcp_ne_http : tcp ≠ http
  udp_ne_http : udp ≠ http

/-- The descriptors of the listening sockets. -/
def ListeningSockets.fds (l : ListeningSockets) : Finset Nat := {l.tcp, l.udp, l.http}

/-- `master` and `max_fd`, the arrays `clients` and `http_clients`, and the connections open in
the kernel. -/
structure Tables where
  master : Finset Nat
  maxFd : Nat
  entries : Protocol → Nat → Option ClientEntry
  opened : Nat → Option Connection
  accepted : Nat

/-- The tables when the loop starts. -/
def Tables.initial (l : ListeningSockets) : Tables where
  master := l.fds
  maxFd := max (max l.tcp l.udp) l.http
  entries := fun _ _ => none
  opened := fun _ => none
  accepted := 0

/-- `FD_SET` on `master`. -/
def Tables.fdSet (t : Tables) (fd : Nat) : Tables := { t with master := insert fd t.master }

/-- `FD_CLR` on `master`. -/
def Tables.fdClr (t : Tables) (fd : Nat) : Tables := { t with master := t.master.erase fd }

/-- An element of one of the arrays is assigned. -/
def Tables.setEntry (t : Tables) (p : Protocol) (fd : Nat) (entry : Option ClientEntry) :
    Tables :=
  { t with entries := fun q j => if q = p ∧ j = fd then entry else t.entries q j }

/-- The kernel opens a connection. -/
def Tables.connect (t : Tables) (p : Protocol) (fd : Nat) : Tables :=
  { t with
    opened := fun j => if j = fd then some ⟨p, t.accepted⟩ else t.opened j
    accepted := t.accepted + 1 }

/-- `close`. -/
def Tables.close (t : Tables) (fd : Nat) : Tables :=
  { t with opened := fun j => if j = fd then none else t.opened j }

/-- `create_client_tcp_data` and `create_client_http_data`, for the connection with a number. -/
def createClientData (alloc : Bool) (sockfd port serial : Nat) : Option ClientEntry :=
  if sockfd ≤ 0 ∨ port ≤ 0 then none else if alloc then some ⟨sockfd, serial⟩ else none

/-- `free_client_tcp_data` and `free_client_http_data`, of the element of an array. -/
def Tables.freeClient (t : Tables) (p : Protocol) (i : Nat) : Tables :=
  match t.entries p i with
  | none => t
  | some entry =>
    (if 0 < entry.clientSockfd then t.close entry.clientSockfd else t).setEntry p i none

/-- The two calls that end a client. -/
def Tables.dropClient (t : Tables) (p : Protocol) (i : Nat) : Tables :=
  (t.freeClient p i).fdClr i

@[simp] theorem Tables.maxFd_dropClient (t : Tables) (p : Protocol) (i : Nat) :
    (t.dropClient p i).maxFd = t.maxFd := by
  unfold Tables.dropClient Tables.freeClient
  cases t.entries p i with
  | none => rfl
  | some e =>
    simp only [Tables.fdClr, Tables.setEntry]
    split <;> rfl

/-- `index_in_client_http_data_array`. -/
def indexInClientHttpDataArray (t : Tables) (arraySize index : Nat) : Bool :=
  index < arraySize && (t.entries .http index).isSome

/-! ## One descriptor -/

/-- Reading or writing. -/
inductive Direction
  | read
  | write
  deriving DecidableEq, Repr

/-- A call of a handler by a worker: for the UDP socket, or for a client with the record it is
given and the connection that its descriptor stands for. -/
inductive Call
  | heartbeat (direction : Direction) (fd : Nat)
  | client (protocol : Protocol) (direction : Direction) (fd : Nat) (arg : Option ClientEntry)
      (connection : Option Connection)
  deriving DecidableEq, Repr

/-- What becomes of a task: `threadpool_add` refuses it, or its handler returns NULL or the
value of a `Thread_Result`. -/
inductive TaskOutcome
  | refused
  | done (result : Option Int)
  deriving DecidableEq, Repr

/-- The answers that the loop may need at one descriptor: the result of `accept` with the port
of the peer, whether there is memory for a record, and what becomes of the task. -/
structure Answers where
  accepted : Option Nat
  port : Nat
  alloc : Bool
  task : TaskOutcome
  deriving DecidableEq, Repr

/-- How the body of the `for` loop ends: it goes on, it breaks with `ret_val = -1`, or it has
dereferenced NULL. -/
inductive Exit
  | next
  | stop
  | fault
  deriving DecidableEq, Repr

/-- What the body of the `for` loop leaves behind. -/
structure Visited where
  tables : Tables
  calls : List Call
  exit : Exit

/-- A client is connected at a new descriptor. Where no record can be made for it, its connection
is closed again. -/
def enterClient (t : Tables) (p : Protocol) (a : Answers) (newFd : Nat) : Visited :=
  let entry := createClientData a.alloc newFd a.port t.accepted
  let t := (t.connect p newFd).fdSet newFd
  let t := { t with maxFd := if t.maxFd < newFd then newFd else t.maxFd }
  let t := t.setEntry p newFd entry
  match entry with
  | none => ⟨(t.fdClr newFd).close newFd, [], .stop⟩
  | some _ => ⟨t, [], .next⟩

/-- A listening socket accepts: the kernel returns a descriptor that is not open, below
`MAX_CLIENTS`. -/
def acceptClient (l : ListeningSockets) (t : Tables) (p : Protocol) (a : Answers) :
    Option Visited :=
  match a.accepted with
  | none => some ⟨t, [], .stop⟩
  | some newFd =>
    if newFd < maxClients ∧ newFd ∉ l.fds ∧ t.opened newFd = none then
      some (enterClient t p a newFd)
    else none

/-- A handler runs for the UDP socket, with the record of the heartbeat. -/
def runHeartbeatTask (t : Tables) (direction : Direction) (i : Nat) : TaskOutcome → Visited
  | .refused => ⟨t, [], .stop⟩
  | .done result =>
    ⟨t, [.heartbeat direction i], if result.isSome then .next else .stop⟩

/-- A handler runs for a client. -/
def runClientTask (t : Tables) (p : Protocol) (direction : Direction) (i : Nat) :
    TaskOutcome → Visited
  | .refused => ⟨t.dropClient p i, [], .stop⟩
  | .done result =>
    let arg := t.entries p i
    let calls := [.client p direction i arg (t.opened i)]
    -- a handler that is given NULL returns NULL
    match if arg.isSome then result else none with
    | none => ⟨t, calls, .stop⟩
    | some value =>
      if value = threadResultError ∨ value = threadResultClosed then
        ⟨t.dropClient p i, calls, .next⟩
      else ⟨t, calls, .next⟩

/-- A client's descriptor has an exception; the address in its record is logged. -/
def exceptClient (t : Tables) (p : Protocol) (i : Nat) : Visited :=
  match t.entries p i with
  | none => ⟨t, [], .fault⟩
  | some _ => ⟨t.dropClient p i, [], .next⟩

/-- Which array a descriptor is looked up in. -/
def protocolAt (t : Tables) (i : Nat) : Protocol :=
  if indexInClientHttpDataArray t maxClients i then .http else .tcp

/-! ## The loop -/

/-- Where `handle_connections` stands: in front of select, at a descriptor, behind the loop,
or undefined. -/
inductive Phase
  | selecting
  | scanning (i : Nat)
  | finished
  | fault
  deriving DecidableEq, Repr

/-- The state of `handle_connections`, with the handler calls made so far. -/
structure LoopState where
  tables : Tables
  readFds : Finset Nat
  writeFds : Finset Nat
  exceptFds : Finset Nat
  selectRet : Int
  retVal : Int
  stop : Bool
  phase : Phase
  calls : List Call

/-- The state in front of the first select. -/
def LoopState.initial (l : ListeningSockets) : LoopState where
  tables := .initial l
  readFds := ∅
  writeFds := ∅
  exceptFds := ∅
  selectRet := 0
  retVal := 0
  stop := false
  phase := .selecting
  calls := []

/-- The set in which a descriptor is found ready. -/
inductive Handling
  | read
  | write
  | exception
  deriving DecidableEq, Repr

/-- The set in which a handler's descriptor is found. -/
def Direction.handling : Direction → Handling
  | .read => .read
  | .write => .write

/-- The body of the `for` loop at descriptor `i`. What accept comes to, and what is made of the
other branches, are parameters: `handled` is told the set, and whether the arrays of the clients
are looked up. -/
def forBody {R : Type*} (l : ListeningSockets) (s : LoopState) (i : Nat) (a : Answers)
    (accept : Protocol → Option R) (handled : Handling → Bool → Visited → R)
    (skipped : Visited → R) : Option R :=
  let t := s.tables
  if i ∈ s.readFds then
    if i = l.tcp then accept .tcp
    else if i = l.http then accept .http
    else if i = l.udp then some (handled .read false (runHeartbeatTask t .read i a.task))
    else some (handled .read true (runClientTask t (protocolAt t i) .read i a.task))
  else if i ∈ s.writeFds then
    -- the TCP listening sockets are not looked for here
    if i = l.udp then some (handled .write false (runHeartbeatTask t .write i a.task))
    else some (handled .write true (runClientTask t (protocolAt t i) .write i a.task))
  else if i ∈ s.exceptFds then
    if i ≠ l.tcp ∧ i ≠ l.udp ∧ i ≠ l.http then
      some (handled .exception true (exceptClient t (protocolAt t i) i))
    else some (handled .exception false ⟨t, [], .stop⟩)
  else some (skipped ⟨t, [], .next⟩)

/-- The visit of descriptor `i`; `none` for an answer that cannot be. -/
def visitFd (l : ListeningSockets) (s : LoopState) (i : Nat) (a : Answers) : Option Visited :=
  forBody l s i a (acceptClient l s.tables · a) (fun _ _ v => v) (fun v => v)

/-- The end of a round of the `while` loop and its condition. -/
def LoopState.endPass (s : LoopState) : LoopState :=
  let stop := s.stop || s.retVal == -1
  { s with stop, phase := if stop then .finished else .selecting }

/-- What the body of the `for` loop makes of the state. -/
def LoopState.advance (s : LoopState) (i : Nat) (v : Visited) : LoopState :=
  let ready := i ∈ s.readFds ∨ i ∈ s.writeFds ∨ i ∈ s.exceptFds
  let s := { s with
    tables := v.tables
    calls := s.calls ++ v.calls
    selectRet := if ready then s.selectRet - 1 else s.selectRet }
  match v.exit with
  | .next => { s with phase := .scanning (i + 1) }
  | .stop => { s with retVal := -1 }.endPass
  | .fault => { s with phase := .fault }

/-- An event of the loop: `SIGINT`, a result of select, the visit of the next descriptor, or
the end of the `for` loop. -/
inductive Event
  | interrupt
  | select (ret : Int) (readFds writeFds exceptFds : Finset Nat)
  | visit (answers : Answers)
  | leave
  deriving DecidableEq

/-- The condition of the `for` loop. -/
def LoopState.goesOn (s : LoopState) (i : Nat) : Prop := i ≤ s.tables.maxFd ∧ 0 < s.selectRet

instance (s : LoopState) (i : Nat) : Decidable (s.goesOn i) :=
  inferInstanceAs (Decidable (_ ∧ _))

/-- One event. Select only keeps descriptors of the sets it is given. -/
def loopStep (l : ListeningSockets) (s : LoopState) : Event → Option LoopState
  | .interrupt => some { s with stop := true }
  | .select ret readFds writeFds exceptFds =>
    if s.phase = .selecting ∧ readFds ⊆ s.tables.master ∧ writeFds ⊆ s.tables.master ∧
        exceptFds ⊆ s.tables.master then
      if 0 < ret then
        some { s with readFds, writeFds, exceptFds, selectRet := ret, phase := .scanning 0 }
      else if ret < 0 then some { s with retVal := -1, phase := .finished }
      else some s.endPass
    else none
  | .visit answers =>
    match s.phase with
    | .scanning i =>
      if s.goesOn i then (visitFd l s i answers).map (s.advance i) else none
    | _ => none
  | .leave =>
    match s.phase with
    | .scanning i => if s.goesOn i then none else some s.endPass
    | _ => none

/-! ## What the tables have in common -/

/-- The tables agree: `master` has the listening sockets and the descriptors with a record, a
record is that of the connection its descriptor stands for, and there is one for each
connection. -/
structure Tables.Agree (l : ListeningSockets) (t : Tables) : Prop where
  mem_master : ∀ j, j ∈ t.master ↔ j ∈ l.fds ∨ ∃ p e, t.entries p j = some e
  entry : ∀ p j e, t.entries p j = some e →
    e.clientSockfd = j ∧ t.opened j = some ⟨p, e.serial⟩ ∧ j ∉ l.fds ∧ j < maxClients ∧ 0 < j
  opened : ∀ j c, t.opened j = some c → ∃ e, t.entries c.protocol j = some e
  le_maxFd : ∀ j ∈ t.master, j ≤ t.maxFd

variable {l : ListeningSockets} {t : Tables}

theorem ListeningSockets.mem_fds {j : Nat} :
    j ∈ l.fds ↔ j = l.tcp ∨ j = l.udp ∨ j = l.http := by
  simp [ListeningSockets.fds]

theorem ListeningSockets.notMem_fds {j : Nat} :
    j ∉ l.fds ↔ j ≠ l.tcp ∧ j ≠ l.udp ∧ j ≠ l.http := by
  rw [ListeningSockets.mem_fds, not_or, not_or]

theorem agree_initial (l : ListeningSockets) : (Tables.initial l).Agree l where
  mem_master := by simp [Tables.initial]
  entry := by simp [Tables.initial]
  opened := by simp [Tables.initial]
  le_maxFd := by
    intro j hj
    rw [Tables.initial, ListeningSockets.mem_fds] at hj
    simp only [Tables.initial, le_max_iff]
    omega

/-- No descriptor has a record in both arrays. -/
theorem Tables.Agree.protocol_eq (h : t.Agree l) {p q : Protocol} {j : Nat} {e e' : ClientEntry}
    (he : t.entries p j = some e) (he' : t.entries q j = some e') : p = q := by
  have hp := (h.entry p j e he).2.1
  have hq := (h.entry q j e' he').2.1
  rw [hp] at hq
  injection hq with hq
  injection hq

/-- A descriptor of a client has a record in the array it is looked up in. -/
theorem Tables.Agree.entry_protocolAt (h : t.Agree l) {i : Nat} (hi : i ∈ t.master)
    (hlistening : i ∉ l.fds) : ∃ e, t.entries (protocolAt t i) i = some e := by
  obtain ⟨p, e, he⟩ := ((h.mem_master i).mp hi).resolve_left hlistening
  have hlt := (h.entry p i e he).2.2.2.1
  cases hhttp : t.entries .http i with
  | some e' =>
    refine ⟨e', ?_⟩
    have hindex : protocolAt t i = .http := by
      simp [protocolAt, indexInClientHttpDataArray, hlt, hhttp]
    rw [hindex, hhttp]
  | none =>
    have hindex : protocolAt t i = .tcp := by
      simp [protocolAt, indexInClientHttpDataArray, hhttp]
    cases p with
    | tcp => exact ⟨e, by rw [hindex, he]⟩
    | http =>
      rw [hhttp] at he
      exact absurd he (by simp)

/-- Tables that have forgotten a descriptor, if it was known, and agree on all others. -/
theorem Tables.Agree.forget (h : t.Agree l) {t' : Tables} {i : Nat} (hlistening : i ∉ l.fds)
    (hmaster : ∀ j, j ∈ t'.master ↔ j ≠ i ∧ j ∈ t.master) (hmax : t.maxFd ≤ t'.maxFd)
    (hentries : ∀ p j, t'.entries p j = if j = i then none else t.entries p j)
    (hopened : ∀ j, t'.opened j = if j = i then none else t.opened j) : t'.Agree l := by
  refine ⟨fun j => ?_, fun p j e he => ?_, fun j c hc => ?_, fun j hj => ?_⟩
  · rw [hmaster, h.mem_master]
    by_cases hj : j = i
    · subst hj
      simp [hentries, hlistening]
    · simp [hentries, hj]
  · rw [hentries, Option.ite_none_left_eq_some] at he
    obtain ⟨hj, he⟩ := he
    rw [hopened, if_neg hj]
    exact h.entry p j e he
  · rw [hopened, Option.ite_none_left_eq_some] at hc
    obtain ⟨hj, hc⟩ := hc
    obtain ⟨e, he⟩ := h.opened j c hc
    exact ⟨e, by rw [hentries, if_neg hj, he]⟩
  · exact (h.le_maxFd j ((hmaster j).mp hj).2).trans hmax

/-- Freeing a record closes its connection. -/
theorem Tables.Agree.dropClient_eq (h : t.Agree l) {p : Protocol} {i : Nat} {e : ClientEntry}
    (he : t.entries p i = some e) :
    t.dropClient p i = ((t.close i).setEntry p i none).fdClr i := by
  obtain ⟨hfd, -, -, -, hpos⟩ := h.entry p i e he
  rw [Tables.dropClient, Tables.freeClient, he]
  simp only [hfd, if_pos hpos]

theorem Tables.Agree.dropClient (h : t.Agree l) {p : Protocol} {i : Nat} {e : ClientEntry}
    (he : t.entries p i = some e) : (t.dropClient p i).Agree l := by
  rw [h.dropClient_eq he]
  apply h.forget (h.entry p i e he).2.2.1
  · exact fun j => Finset.mem_erase
  · exact le_rfl
  · intro q j
    simp only [Tables.fdClr, Tables.setEntry, Tables.close]
    by_cases hj : j = i
    · subst hj
      -- the other array has no record there
      cases hq : t.entries q j with
      | none => simp
      | some e' =>
        obtain rfl := h.protocol_eq hq he
        simp
    · simp [hj]
  · exact fun j => rfl

/-- A descriptor that is not open is in none of the tables. -/
theorem Tables.Agree.fresh (h : t.Agree l) {fd : Nat} (hlistening : fd ∉ l.fds)
    (hfresh : t.opened fd = none) : fd ∉ t.master ∧ ∀ p, t.entries p fd = none := by
  have hnone : ∀ p, t.entries p fd = none := by
    intro p
    cases he : t.entries p fd with
    | none => rfl
    | some e =>
      have hopened := (h.entry p fd e he).2.1
      rw [hfresh] at hopened
      exact absurd hopened (by simp)
  refine ⟨fun hmem => ?_, hnone⟩
  obtain ⟨p, e, he⟩ := ((h.mem_master fd).mp hmem).resolve_left hlistening
  rw [hnone] at he
  exact absurd he (by simp)

/-- Tables that have a new descriptor with its record, and agree on all others. -/
theorem Tables.Agree.add (h : t.Agree l) {t' : Tables} {p : Protocol} {fd serial : Nat}
    (hlistening : fd ∉ l.fds) (hfresh : t.opened fd = none) (hpos : 0 < fd)
    (hlt : fd < maxClients) (hmaster : t'.master = insert fd t.master)
    (hmax : t.maxFd ≤ t'.maxFd) (hfd : fd ≤ t'.maxFd)
    (hentries : ∀ q j, t'.entries q j =
      if q = p ∧ j = fd then some ⟨fd, serial⟩ else t.entries q j)
    (hopened : ∀ j, t'.opened j = if j = fd then some ⟨p, serial⟩ else t.opened j) :
    t'.Agree l := by
  obtain ⟨-, hnone⟩ := h.fresh hlistening hfresh
  refine ⟨fun j => ?_, fun q j e he => ?_, fun j c hc => ?_, fun j hj => ?_⟩
  · rw [hmaster, Finset.mem_insert, h.mem_master]
    by_cases hj : j = fd
    · subst hj
      exact iff_of_true (Or.inl rfl) (Or.inr ⟨p, ⟨j, serial⟩, by rw [hentries, if_pos ⟨rfl, rfl⟩]⟩)
    · simp [hentries, hj]
  · rw [hentries] at he
    by_cases hj : j = fd
    · subst hj
      by_cases hq : q = p
      · subst hq
        rw [if_pos ⟨rfl, rfl⟩] at he
        obtain rfl := Option.some.inj he
        exact ⟨rfl, by rw [hopened, if_pos rfl], hlistening, hlt, hpos⟩
      · rw [if_neg fun hc => hq hc.1, hnone] at he
        exact absurd he (by simp)
    · rw [if_neg fun hc => hj hc.2] at he
      rw [hopened, if_neg hj]
      exact h.entry q j e he
  · rw [hopened] at hc
    by_cases hj : j = fd
    · rw [if_pos hj] at hc
      obtain rfl := Option.some.inj hc
      exact ⟨⟨fd, serial⟩, by rw [hentries, if_pos ⟨rfl, hj⟩]⟩
    · rw [if_neg hj] at hc
      obtain ⟨e, he⟩ := h.opened j c hc
      exact ⟨e, by rw [hentries, if_neg fun hc => hj hc.2, he]⟩
  · rw [hmaster] at hj
    rcases Finset.mem_insert.mp hj with rfl | hj
    · exact hfd
    · exact (h.le_maxFd j hj).trans hmax

/-- A descriptor that no record could be made for is forgotten again. -/
theorem Tables.Agree.rejected (h : t.Agree l) {p : Protocol} {fd maxFd : Nat}
    (hlistening : fd ∉ l.fds) (hfresh : t.opened fd = none) (hmax : t.maxFd ≤ maxFd) :
    Tables.Agree l
      (((({ (t.connect p fd).fdSet fd with maxFd } : Tables).setEntry p fd none).fdClr fd).close
        fd) := by
  obtain ⟨-, hnone⟩ := h.fresh hlistening hfresh
  apply h.forget hlistening _ hmax
  · intro q j
    by_cases hj : j = fd
    · simp [Tables.close, Tables.fdClr, Tables.setEntry, Tables.fdSet, Tables.connect, hj, hnone]
    · simp [Tables.close, Tables.fdClr, Tables.setEntry, Tables.fdSet, Tables.connect, hj]
  · intro j
    by_cases hj : j = fd
    · simp [Tables.close, hj]
    · simp [Tables.close, Tables.fdClr, Tables.setEntry, Tables.fdSet, Tables.connect, hj]
  · intro j
    show j ∈ (insert fd t.master).erase fd ↔ j ≠ fd ∧ j ∈ t.master
    rw [Finset.mem_erase, Finset.mem_insert]
    tauto

theorem createClientData_eq_some {alloc : Bool} {sockfd port serial : Nat} {e : ClientEntry}
    (h : createClientData alloc sockfd port serial = some e) :
    0 < sockfd ∧ e = ⟨sockfd, serial⟩ := by
  simp only [createClientData, Option.ite_none_left_eq_some, Option.ite_none_right_eq_some,
    Option.some.injEq] at h
  obtain ⟨hpos, -, rfl⟩ := h
  exact ⟨by omega, rfl⟩

/-! ## One descriptor keeps the tables -/

/-- A handler is given the record of the connection that its descriptor stands for, and a
handler of that protocol. -/
def Call.Right (l : ListeningSockets) : Call → Prop
  | .heartbeat _ fd => fd = l.udp
  | .client p _ fd arg connection =>
    ∃ e, arg = some e ∧ e.clientSockfd = fd ∧ connection = some ⟨p, e.serial⟩

/-- The body of the `for` loop at `i` keeps the tables in agreement and the descriptors still
to be visited in `master`, and gives its handlers what they need. -/
structure Visited.Keeps (l : ListeningSockets) (t : Tables) (i : Nat) (v : Visited) : Prop where
  agree : v.tables.Agree l
  calls : ∀ c ∈ v.calls, c.Right l
  mem_master : ∀ j ∈ t.master, j ≠ i → j ∈ v.tables.master
  defined : v.exit ≠ .fault

/-- The tables with a new connection, and what was made of its record. -/
def Tables.register (t : Tables) (p : Protocol) (fd : Nat) (entry : Option ClientEntry) : Tables :=
  ({ (t.connect p fd).fdSet fd with maxFd := if t.maxFd < fd then fd else t.maxFd } :
    Tables).setEntry p fd entry

theorem enterClient_of_none {p : Protocol} {a : Answers} {newFd : Nat}
    (h : createClientData a.alloc newFd a.port t.accepted = none) :
    enterClient t p a newFd =
      ⟨((t.register p newFd none).fdClr newFd).close newFd, [], .stop⟩ := by
  simp only [enterClient, h]
  rfl

theorem enterClient_of_some {p : Protocol} {a : Answers} {newFd : Nat} {e : ClientEntry}
    (h : createClientData a.alloc newFd a.port t.accepted = some e) :
    enterClient t p a newFd = ⟨t.register p newFd (some e), [], .next⟩ := by
  simp only [enterClient, h]
  rfl

/-- What a listening socket can come to: accept fails, no record can be made, or there is a new
client. -/
theorem acceptClient_cases {p : Protocol} {a : Answers} {v : Visited}
    (hv : acceptClient l t p a = some v) :
    (a.accepted = none ∧ v = ⟨t, [], .stop⟩) ∨
    ∃ newFd, a.accepted = some newFd ∧
      (newFd < maxClients ∧ newFd ∉ l.fds ∧ t.opened newFd = none) ∧
      ((createClientData a.alloc newFd a.port t.accepted = none ∧
          v = ⟨((t.register p newFd none).fdClr newFd).close newFd, [], .stop⟩) ∨
        ∃ e, createClientData a.alloc newFd a.port t.accepted = some e ∧
          v = ⟨t.register p newFd (some e), [], .next⟩) := by
  cases haccepted : a.accepted with
  | none =>
    simp only [acceptClient, haccepted, Option.some.injEq] at hv
    exact Or.inl ⟨rfl, hv.symm⟩
  | some newFd =>
    simp only [acceptClient, haccepted, Option.ite_none_right_eq_some] at hv
    obtain ⟨hcond, hv⟩ := hv
    obtain rfl := Option.some.inj hv
    refine Or.inr ⟨newFd, rfl, hcond, ?_⟩
    cases hentry : createClientData a.alloc newFd a.port t.accepted with
    | none => exact Or.inl ⟨rfl, enterClient_of_none hentry⟩
    | some e => exact Or.inr ⟨e, rfl, enterClient_of_some hentry⟩

theorem acceptClient_keeps (h : t.Agree l) {p : Protocol} {a : Answers} {i : Nat} {v : Visited}
    (hv : acceptClient l t p a = some v) : v.Keeps l t i := by
  rcases acceptClient_cases hv with
    ⟨-, rfl⟩ | ⟨newFd, -, ⟨hlt, hlistening, hfresh⟩, hregistered⟩
  · exact ⟨h, by simp, fun j hj _ => hj, by simp⟩
  have hmax : t.maxFd ≤ (if t.maxFd < newFd then newFd else t.maxFd) := by
    split <;> omega
  have hnewFd : newFd ≤ (if t.maxFd < newFd then newFd else t.maxFd) := by
    split <;> omega
  rcases hregistered with ⟨-, rfl⟩ | ⟨e, hentry, rfl⟩
  · refine ⟨h.rejected hlistening hfresh hmax, by simp, fun j hj _ => ?_, by simp⟩
    have hne : j ≠ newFd := ne_of_mem_of_not_mem hj (h.fresh hlistening hfresh).1
    exact Finset.mem_erase.mpr ⟨hne, Finset.mem_insert_of_mem hj⟩
  · obtain ⟨hpos, rfl⟩ := createClientData_eq_some hentry
    refine ⟨h.add hlistening hfresh hpos hlt rfl hmax hnewFd (fun q j => rfl) (fun j => rfl),
      by simp, fun j hj _ => Finset.mem_insert_of_mem hj, by simp⟩

theorem runHeartbeatTask_keeps (h : t.Agree l) (direction : Direction)
    (task : TaskOutcome) : (runHeartbeatTask t direction l.udp task).Keeps l t l.udp := by
  cases task with
  | refused => exact ⟨h, by simp [runHeartbeatTask], fun j hj _ => hj, by simp [runHeartbeatTask]⟩
  | done result =>
    refine ⟨h, ?_, fun j hj _ => hj, ?_⟩
    · simp [runHeartbeatTask, Call.Right]
    · simp only [runHeartbeatTask]
      split <;> simp

theorem dropClient_keeps (h : t.Agree l) {p : Protocol} {i : Nat} {e : ClientEntry}
    (he : t.entries p i = some e) {calls : List Call} (hcalls : ∀ c ∈ calls, c.Right l)
    {exit : Exit} (hexit : exit ≠ .fault) :
    Visited.Keeps l t i ⟨t.dropClient p i, calls, exit⟩ := by
  refine ⟨h.dropClient he, hcalls, fun j hj hji => ?_, hexit⟩
  rw [h.dropClient_eq he]
  exact Finset.mem_erase.mpr ⟨hji, hj⟩

theorem runClientTask_keeps (h : t.Agree l) {p : Protocol} {i : Nat} {e : ClientEntry}
    (he : t.entries p i = some e) (direction : Direction) (task : TaskOutcome) :
    (runClientTask t p direction i task).Keeps l t i := by
  cases task with
  | refused => exact dropClient_keeps h he (by simp) (by simp)
  | done result =>
    obtain ⟨hfd, hopened, -⟩ := h.entry p i e he
    have hcalls : ∀ c ∈ [Call.client p direction i (t.entries p i) (t.opened i)], c.Right l := by
      intro c hc
      rw [List.mem_singleton.mp hc]
      exact ⟨e, he, hfd, hopened⟩
    simp only [runClientTask, he, Option.isSome_some, if_true] at hcalls ⊢
    cases result with
    | none => exact ⟨h, hcalls, fun j hj _ => hj, by simp⟩
    | some value =>
      simp only
      split
      · exact dropClient_keeps h he hcalls (by simp)
      · exact ⟨h, hcalls, fun j hj _ => hj, by simp⟩

/-- What is no listening socket is a client with a record. -/
theorem runClientTask_keeps_master (h : t.Agree l) {i : Nat} (hi : i ∈ t.master)
    (hlistening : i ∉ l.fds) (direction : Direction) (task : TaskOutcome) :
    (runClientTask t (protocolAt t i) direction i task).Keeps l t i := by
  obtain ⟨e, he⟩ := h.entry_protocolAt hi hlistening
  exact runClientTask_keeps h he direction task

theorem exceptClient_keeps (h : t.Agree l) {i : Nat} (hi : i ∈ t.master)
    (hlistening : i ∉ l.fds) : (exceptClient t (protocolAt t i) i).Keeps l t i := by
  obtain ⟨e, he⟩ := h.entry_protocolAt hi hlistening
  rw [exceptClient, he]
  exact dropClient_keeps h he (by simp) (by simp)

/-- A descriptor is ready: for writing it counts only where it is not ready for reading. -/
def LoopState.Ready (s : LoopState) (i : Nat) : Direction → Prop
  | .read => i ∈ s.readFds
  | .write => i ∉ s.readFds ∧ i ∈ s.writeFds

theorem LoopState.Ready.mem {s : LoopState} {i : Nat} {d : Direction} (h : s.Ready i d) :
    i ∈ s.readFds ∨ i ∈ s.writeFds := by
  cases d with
  | read => exact Or.inl h
  | write => exact Or.inr h.2

section Body

variable {R : Type*} {s : LoopState} {i : Nat} {a : Answers} {accept : Protocol → Option R}
  {handled : Handling → Bool → Visited → R} {skipped : Visited → R}

/-- The branches of the body, each with the conditions under which it is taken. -/
inductive ForBody (l : ListeningSockets) (s : LoopState) (i : Nat) (a : Answers)
    (accept : Protocol → Option R) (handled : Handling → Bool → Visited → R)
    (skipped : Visited → R) : R → Prop
  | accept (p : Protocol) {r : R} (hread : i ∈ s.readFds) (hlistening : i = l.tcp ∨ i = l.http)
      (h : accept p = some r) : ForBody l s i a accept handled skipped r
  | heartbeat (d : Direction) (hready : s.Ready i d) (hudp : i = l.udp)
      (hlistening : d = .read → i ≠ l.tcp ∧ i ≠ l.http) :
      ForBody l s i a accept handled skipped
        (handled d.handling false (runHeartbeatTask s.tables d i a.task))
  | client (d : Direction) (hready : s.Ready i d) (hudp : i ≠ l.udp)
      (hlistening : d = .read → i ≠ l.tcp ∧ i ≠ l.http) :
      ForBody l s i a accept handled skipped
        (handled d.handling true (runClientTask s.tables (protocolAt s.tables i) d i a.task))
  | except (hnone : i ∉ s.readFds ∧ i ∉ s.writeFds) (hexcept : i ∈ s.exceptFds)
      (hlistening : i ∉ l.fds) :
      ForBody l s i a accept handled skipped
        (handled .exception true (exceptClient s.tables (protocolAt s.tables i) i))
  | fail (hnone : i ∉ s.readFds ∧ i ∉ s.writeFds) (hexcept : i ∈ s.exceptFds)
      (hlistening : i ∈ l.fds) :
      ForBody l s i a accept handled skipped (handled .exception false ⟨s.tables, [], .stop⟩)
  | skipped (hnone : i ∉ s.readFds ∧ i ∉ s.writeFds) (hexcept : i ∉ s.exceptFds) :
      ForBody l s i a accept handled skipped (skipped ⟨s.tables, [], .next⟩)

/-- The body takes one of its branches. -/
theorem forBody_cases {r : R} (h : forBody l s i a accept handled skipped = some r) :
    ForBody l s i a accept handled skipped r := by
  unfold forBody at h
  by_cases hread : i ∈ s.readFds
  · rw [if_pos hread] at h
    by_cases htcp : i = l.tcp
    · rw [if_pos htcp] at h
      exact .accept .tcp hread (Or.inl htcp) h
    by_cases hhttp : i = l.http
    · rw [if_neg htcp, if_pos hhttp] at h
      exact .accept .http hread (Or.inr hhttp) h
    rw [if_neg htcp, if_neg hhttp] at h
    by_cases hudp : i = l.udp
    · rw [if_pos hudp] at h
      exact Option.some.inj h ▸ .heartbeat .read hread hudp fun _ => ⟨htcp, hhttp⟩
    · rw [if_neg hudp] at h
      exact Option.some.inj h ▸ .client .read hread hudp fun _ => ⟨htcp, hhttp⟩
  rw [if_neg hread] at h
  by_cases hwrite : i ∈ s.writeFds
  · rw [if_pos hwrite] at h
    by_cases hudp : i = l.udp
    · rw [if_pos hudp] at h
      exact Option.some.inj h ▸ .heartbeat .write ⟨hread, hwrite⟩ hudp (by simp)
    · rw [if_neg hudp] at h
      exact Option.some.inj h ▸ .client .write ⟨hread, hwrite⟩ hudp (by simp)
  rw [if_neg hwrite] at h
  by_cases hexcept : i ∈ s.exceptFds
  · rw [if_pos hexcept] at h
    by_cases hclient : i ≠ l.tcp ∧ i ≠ l.udp ∧ i ≠ l.http
    · rw [if_pos hclient] at h
      exact Option.some.inj h ▸
        .except ⟨hread, hwrite⟩ hexcept (ListeningSockets.notMem_fds.mpr hclient)
    · rw [if_neg hclient] at h
      exact Option.some.inj h ▸ .fail ⟨hread, hwrite⟩ hexcept
        (not_not.mp (mt ListeningSockets.notMem_fds.mp hclient))
  · rw [if_neg hexcept] at h
    exact Option.some.inj h ▸ .skipped ⟨hread, hwrite⟩ hexcept

end Body

/-- The descriptor that is visited is one of `master`, and no TCP listening socket that is
only ready for writing. -/
theorem visitFd_keeps {s : LoopState} (h : s.tables.Agree l) {i : Nat} {a : Answers}
    {v : Visited}
    (hmaster : i ∈ s.readFds ∨ i ∈ s.writeFds ∨ i ∈ s.exceptFds → i ∈ s.tables.master)
    (hwrite : i ∈ s.writeFds → i = l.tcp ∨ i = l.http → i ∈ s.readFds)
    (hv : visitFd l s i a = some v) : v.Keeps l s.tables i := by
  cases forBody_cases hv with
  | accept p _ _ haccept => exact acceptClient_keeps h haccept
  | heartbeat d _ hudp _ =>
    subst hudp
    exact runHeartbeatTask_keeps h d a.task
  | client d hready hudp hlistening =>
    apply runClientTask_keeps_master h (hmaster (hready.mem.imp_right Or.inl))
    cases d with
    | read =>
      obtain ⟨htcp, hhttp⟩ := hlistening rfl
      exact ListeningSockets.notMem_fds.mpr ⟨htcp, hudp, hhttp⟩
    | write =>
      -- a listening socket is not reported for writing alone
      obtain ⟨hread, hwritten⟩ := hready
      have htcp : i ≠ l.tcp := fun heq => hread (hwrite hwritten (Or.inl heq))
      have hhttp : i ≠ l.http := fun heq => hread (hwrite hwritten (Or.inr heq))
      exact ListeningSockets.notMem_fds.mpr ⟨htcp, hudp, hhttp⟩
  | except _ hexcept hlistening =>
    exact exceptClient_keeps h (hmaster (Or.inr (Or.inr hexcept))) hlistening
  | fail => exact ⟨h, by simp, fun j hj _ => hj, by simp⟩
  | skipped => exact ⟨h, by simp, fun j hj _ => hj, by simp⟩

/-! ## Runs -/

/-- Select reports a TCP listening socket for writing only if it reports it for reading. -/
def SelectsListening (l : ListeningSockets) : Event → Prop
  | .select _ readFds writeFds _ => ∀ fd ∈ writeFds, fd = l.tcp ∨ fd = l.http → fd ∈ readFds
  | _ => True

/-- The tables agree, and each handler was given what it needs. -/
structure LoopState.Consistent (l : ListeningSockets) (s : LoopState) : Prop where
  mem_master : ∀ fd, fd ∈ s.tables.master ↔ fd ∈ l.fds ∨
    (s.tables.entries .tcp fd).isSome ∨ (s.tables.entries .http fd).isSome
  one_array : ∀ fd, ¬ ((s.tables.entries .tcp fd).isSome ∧ (s.tables.entries .http fd).isSome)
  not_listening : ∀ p fd, (s.tables.entries p fd).isSome → fd ∉ l.fds
  clientSockfd : ∀ p fd e, s.tables.entries p fd = some e → e.clientSockfd = fd
  le_maxFd : ∀ fd ∈ s.tables.master, fd ≤ s.tables.maxFd
  calls : ∀ c ∈ s.calls, c.Right l
  defined : s.phase ≠ .fault

/-- The invariant of the loop: what is still to be visited in a pass is in `master`. -/
structure LoopState.Inv (l : ListeningSockets) (s : LoopState) : Prop where
  agree : s.tables.Agree l
  calls : ∀ c ∈ s.calls, c.Right l
  ready : ∀ i, s.phase = .scanning i → ∀ j, i ≤ j →
    j ∈ s.readFds ∨ j ∈ s.writeFds ∨ j ∈ s.exceptFds → j ∈ s.tables.master
  listening : ∀ fd ∈ s.writeFds, fd = l.tcp ∨ fd = l.http → fd ∈ s.readFds
  defined : s.phase ≠ .fault

theorem LoopState.Inv.consistent {s : LoopState} (h : s.Inv l) : s.Consistent l where
  mem_master := by
    intro fd
    rw [h.agree.mem_master]
    apply or_congr_right
    simp only [Option.isSome_iff_exists]
    constructor
    · rintro ⟨p, e, he⟩
      cases p with
      | tcp => exact Or.inl ⟨e, he⟩
      | http => exact Or.inr ⟨e, he⟩
    · rintro (⟨e, he⟩ | ⟨e, he⟩)
      · exact ⟨.tcp, e, he⟩
      · exact ⟨.http, e, he⟩
  one_array := by
    rintro fd ⟨htcp, hhttp⟩
    obtain ⟨e, he⟩ := Option.isSome_iff_exists.mp htcp
    obtain ⟨e', he'⟩ := Option.isSome_iff_exists.mp hhttp
    exact absurd (h.agree.protocol_eq he he') (by decide)
  not_listening := by
    intro p fd hsome
    obtain ⟨e, he⟩ := Option.isSome_iff_exists.mp hsome
    exact (h.agree.entry p fd e he).2.2.1
  clientSockfd := fun p fd e he => (h.agree.entry p fd e he).1
  le_maxFd := h.agree.le_maxFd
  calls := h.calls
  defined := h.defined

theorem inv_initial (l : ListeningSockets) : (LoopState.initial l).Inv l where
  agree := agree_initial l
  calls := by simp [LoopState.initial]
  ready := by simp [LoopState.initial]
  listening := by simp [LoopState.initial]
  defined := by simp [LoopState.initial]

@[simp] theorem LoopState.advance_tables (s : LoopState) (i : Nat) (v : Visited) :
    (s.advance i v).tables = v.tables := by
  rw [LoopState.advance]
  cases v.exit with
  | next => rfl
  | stop => rfl
  | fault => rfl

@[simp] theorem LoopState.advance_calls (s : LoopState) (i : Nat) (v : Visited) :
    (s.advance i v).calls = s.calls ++ v.calls := by
  rw [LoopState.advance]
  cases v.exit with
  | next => rfl
  | stop => rfl
  | fault => rfl

theorem LoopState.endPass_phase (s : LoopState) :
    s.endPass.phase = .finished ∨ s.endPass.phase = .selecting := by
  simp only [LoopState.endPass]
  split
  · exact Or.inl rfl
  · exact Or.inr rfl

theorem LoopState.endPass_ne_scanning (s : LoopState) (i : Nat) :
    s.endPass.phase ≠ .scanning i := by
  rcases s.endPass_phase with hphase | hphase
  · rw [hphase]
    simp
  · rw [hphase]
    simp

/-- Between two passes nothing is left to be visited. -/
theorem LoopState.endPass_inv {s : LoopState} (hagree : s.tables.Agree l)
    (hcalls : ∀ c ∈ s.calls, c.Right l)
    (hlistening : ∀ fd ∈ s.writeFds, fd = l.tcp ∨ fd = l.http → fd ∈ s.readFds) :
    s.endPass.Inv l where
  agree := hagree
  calls := hcalls
  ready := by
    intro i hi
    rcases s.endPass_phase with hphase | hphase
    · rw [hphase] at hi
      cases hi
    · rw [hphase] at hi
      cases hi
  listening := hlistening
  defined := by
    rcases s.endPass_phase with hphase | hphase
    · simp [hphase]
    · simp [hphase]

theorem LoopState.Inv.advance {s : LoopState} (h : s.Inv l) {i : Nat}
    (hphase : s.phase = .scanning i) {v : Visited} (hv : v.Keeps l s.tables i) :
    (s.advance i v).Inv l := by
  have hcalls : ∀ c ∈ s.calls ++ v.calls, c.Right l := by
    intro c hc
    rcases List.mem_append.mp hc with hc | hc
    · exact h.calls c hc
    · exact hv.calls c hc
  cases hexit : v.exit with
  | next =>
    simp only [LoopState.advance, hexit]
    refine ⟨hv.agree, hcalls, fun i' hi' j hj hready => ?_, h.listening, by simp⟩
    obtain rfl := Phase.scanning.inj hi'
    -- the descriptors behind `i` were not touched
    apply hv.mem_master
    · exact h.ready i hphase j (by omega) hready
    · omega
  | stop =>
    simp only [LoopState.advance, hexit]
    exact LoopState.endPass_inv hv.agree hcalls h.listening
  | fault => exact absurd hexit hv.defined

/-- What one event makes of a state. -/
inductive LoopMove (l : ListeningSockets) (s : LoopState) : Event → LoopState → Prop
  | interrupt : LoopMove l s .interrupt { s with stop := true }
  | selected {ret : Int} {readFds writeFds exceptFds : Finset Nat} (hpos : 0 < ret)
      (hread : readFds ⊆ s.tables.master) (hwrite : writeFds ⊆ s.tables.master)
      (hexcept : exceptFds ⊆ s.tables.master) :
      LoopMove l s (.select ret readFds writeFds exceptFds)
        { s with readFds, writeFds, exceptFds, selectRet := ret, phase := .scanning 0 }
  | failed {ret : Int} {readFds writeFds exceptFds : Finset Nat} (hneg : ret < 0) :
      LoopMove l s (.select ret readFds writeFds exceptFds)
        { s with retVal := -1, phase := .finished }
  | expired {readFds writeFds exceptFds : Finset Nat} :
      LoopMove l s (.select 0 readFds writeFds exceptFds) s.endPass
  | visited {answers : Answers} {i : Nat} {v : Visited} (hphase : s.phase = .scanning i)
      (hgoesOn : s.goesOn i) (hv : visitFd l s i answers = some v) :
      LoopMove l s (.visit answers) (s.advance i v)
  | left {i : Nat} (hphase : s.phase = .scanning i) (hleave : ¬ s.goesOn i) :
      LoopMove l s .leave s.endPass

theorem loopStep_move {s s' : LoopState} {event : Event} (h : loopStep l s event = some s') :
    LoopMove l s event s' := by
  cases event with
  | interrupt =>
    obtain rfl := Option.some.inj h
    exact .interrupt
  | select ret readFds writeFds exceptFds =>
    simp only [loopStep, Option.ite_none_right_eq_some] at h
    obtain ⟨⟨-, hread, hwrite, hexcept⟩, h⟩ := h
    by_cases hpos : 0 < ret
    · rw [if_pos hpos] at h
      obtain rfl := Option.some.inj h
      exact .selected hpos hread hwrite hexcept
    by_cases hneg : ret < 0
    · rw [if_neg hpos, if_pos hneg] at h
      obtain rfl := Option.some.inj h
      exact .failed hneg
    · rw [if_neg hpos, if_neg hneg] at h
      obtain rfl := Option.some.inj h
      obtain rfl : ret = 0 := by omega
      exact .expired
  | visit answers =>
    cases hphase : s.phase with
    | scanning i =>
      simp only [loopStep, hphase, Option.ite_none_right_eq_some, Option.map_eq_some_iff] at h
      obtain ⟨hgoesOn, v, hv, rfl⟩ := h
      exact .visited hphase hgoesOn hv
    | _ => simp [loopStep, hphase] at h
  | leave =>
    cases hphase : s.phase with
    | scanning i =>
      simp only [loopStep, hphase, Option.ite_none_left_eq_some] at h
      obtain ⟨hleave, h⟩ := h
      obtain rfl := Option.some.inj h
      exact .left hphase hleave
    | _ => simp [loopStep, hphase] at h

theorem loopStep_inv {s s' : LoopState} {event : Event} (h : s.Inv l)
    (hcond : SelectsListening l event) (hstep : loopStep l s event = some s') : s'.Inv l := by
  cases loopStep_move hstep with
  | interrupt => exact ⟨h.agree, h.calls, h.ready, h.listening, h.defined⟩
  | selected hpos hread hwrite hexcept =>
    refine ⟨h.agree, h.calls, fun i hi j hj hready => ?_, hcond, by simp⟩
    rcases hready with hready | hready | hready
    · exact hread hready
    · exact hwrite hready
    · exact hexcept hready
  | failed hneg => exact ⟨h.agree, h.calls, by simp, h.listening, by simp⟩
  | expired => exact LoopState.endPass_inv h.agree h.calls h.listening
  | visited hphase hgoesOn hv =>
    apply h.advance hphase
    exact visitFd_keeps h.agree (h.ready _ hphase _ le_rfl) (h.listening _) hv
  | left hphase hleave => exact LoopState.endPass_inv h.agree h.calls h.listening

/-- The tables agree after every run, and every handler was given the record of the connection
that its descriptor stood for. -/
theorem connections_consistent (l : ListeningSockets) {events : List Event} {s : LoopState}
    (hevents : ∀ event ∈ events, SelectsListening l event)
    (hrun : run (loopStep l) (.initial l) events = some s) : s.Consistent l := by
  have hmeets : Meets (loopStep l) (fun _ => SelectsListening l) (.initial l) events :=
    meets_of_forall_mem fun _ => hevents
  have hinv : s.Inv l := by
    apply run_invariant_of_meets _ (inv_initial l) hmeets hrun
    exact fun s event s' h hcond hstep => loopStep_inv h hcond hstep
  exact hinv.consistent

/-! ### A server without other descriptors -/

/-- The listening sockets get the first descriptors behind the standard streams. -/
def firstSockets : ListeningSockets where
  tcp := 3
  udp := 4
  http := 5
  tcp_ne_udp := by decide
  tcp_ne_http := by decide
  udp_ne_http := by decide

/-- A client connects, is read and closes its connection. -/
def oneClient : List Event :=
  .select 1 {3} ∅ ∅ ::
    List.replicate 4 (.visit ⟨some 6, 4000, true, .refused⟩) ++
    .leave :: .select 1 {6} ∅ ∅ ::
    List.replicate 7 (.visit ⟨none, 0, false, .done (some threadResultClosed)⟩)

theorem connections_consistent_oneClient :
    ∃ s, run (loopStep firstSockets) (.initial firstSockets) oneClient = some s ∧
      s.calls = [.client .tcp .read 6 (some ⟨6, 0⟩) (some ⟨.tcp, 0⟩)] ∧
      s.Consistent firstSockets := by
  have hcalls : (run (loopStep firstSockets) (.initial firstSockets) oneClient).map
      LoopState.calls = some [.client .tcp .read 6 (some ⟨6, 0⟩) (some ⟨.tcp, 0⟩)] := by
    decide +kernel
  obtain ⟨s, hs, hcalls⟩ := Option.map_eq_some_iff.mp hcalls
  refine ⟨s, hs, hcalls, connections_consistent firstSockets ?_ hs⟩
  simp [oneClient, SelectsListening]

/-- Select reports the listening socket of the TCP clients for writing, and a task is made
of it. -/
def listeningWritten (task : TaskOutcome) : List Event :=
  .select 1 ∅ {3} ∅ :: List.replicate 4 (.visit ⟨none, 0, false, task⟩)

/-- Where the task runs, a handler is given NULL; where it is refused, the listening socket is
cleared from `master`. -/
theorem connections_inconsistent :
    (∃ s, run (loopStep firstSockets) (.initial firstSockets)
        (listeningWritten (.done none)) = some s ∧
      s.calls = [.client .tcp .write 3 none none] ∧ ¬ s.Consistent firstSockets) ∧
    (∃ s, run (loopStep firstSockets) (.initial firstSockets)
        (listeningWritten .refused) = some s ∧
      s.tables.master = {4, 5} ∧ ¬ s.Consistent firstSockets) := by
  constructor
  · have hcalls : (run (loopStep firstSockets) (.initial firstSockets)
        (listeningWritten (.done none))).map LoopState.calls =
          some [.client .tcp .write 3 none none] := by
      decide +kernel
    obtain ⟨s, hs, hcalls⟩ := Option.map_eq_some_iff.mp hcalls
    refine ⟨s, hs, hcalls, fun h => ?_⟩
    obtain ⟨e, harg, -⟩ := h.calls _ (hcalls ▸ List.mem_singleton_self _)
    cases harg
  · have hmaster : (run (loopStep firstSockets) (.initial firstSockets)
        (listeningWritten .refused)).map (fun s => s.tables.master) = some {4, 5} := by
      decide +kernel
    obtain ⟨s, hs, hmaster⟩ := Option.map_eq_some_iff.mp hmaster
    refine ⟨s, hs, hmaster, fun h => ?_⟩
    have hmem := (h.mem_master 3).mpr (Or.inl (by decide))
    rw [hmaster] at hmem
    exact absurd hmem (by decide)

end SelectServer
