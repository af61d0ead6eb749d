import SelectServer.Server.Connections

/-!
# The descriptors of `handle_connections`

The loop of `Connections` again, for every descriptor that accept may return. The descriptor
of a new connection goes into `master` and is the index of its record, and no branch compares
it with the size of either. Each step notes where it uses a descriptor, what it handles and
what accept returned. The arrays and the sets have no end here: a run goes on behind a use that
is out of bounds.

The uses stay in bounds, and the connections of the HTTP socket go to the HTTP handlers, exactly
on the runs where accept returns no descriptor from `MAX_CLIENTS` on and the listening
sockets have none (`descriptors_fit_iff`). The one comparison with `MAX_CLIENTS` is that of
`index_in_client_http_data_array`, which sends the descriptor to the other array.
-/

namespace SelectServer

open Systems

/-- `FD_SETSIZE`. -/
def fdSetSize : Nat := 1024

/-- A descriptor is used as a bit of the `fd_set`s, or as an index into an array. -/
inductive DescriptorUse
  | fdSet (fd : Nat)
  | index (p : Protocol) (fd : Nat)
  deriving DecidableEq, Repr

/-- The use is inside the set or the array. -/
def DescriptorUse.Fits : DescriptorUse → Prop
  | .fdSet fd => fd < fdSetSize
  | .index _ fd => fd < maxClients

/-- What a step does with descriptors: the one that it handles, its uses, and the one that
accept returns with whether its connection is closed again. -/
structure DescriptorLog where
  handled : Option (Nat × Handling)
  uses : List DescriptorUse
  accepted : Option Nat
  refused : Bool
  deriving DecidableEq, Repr

/-- A step that has to do with no connection. -/
def DescriptorLog.idle (uses : List DescriptorUse) : DescriptorLog := ⟨none, uses, none, false⟩

/-- A descriptor is found in one of the sets, and a branch is taken for it. -/
def DescriptorLog.handle (log : DescriptorLog) (i : Nat) (kind : Handling) : DescriptorLog :=
  { log with handled := some (i, kind), uses := .fdSet i :: log.uses }

/-- The `FD_SET`s in front of the loop. -/
def initialUses (l : ListeningSockets) : List DescriptorUse :=
  [.fdSet l.tcp, .fdSet l.udp, .fdSet l.http]

/-! ## The loop, whatever accept returns -/

/-- A listening socket accepts: the kernel returns a descriptor that is not open. A connection
without a record is closed again. -/
def acceptConnection (l : ListeningSockets) (t : Tables) (p : Protocol) (a : Answers) :
    Option (DescriptorLog × Visited) :=
  match a.accepted with
  | none => some (.idle [], ⟨t, [], .stop⟩)
  | some newFd =>
    -- nothing has compared `newFd` with the size of the set or of the array
    if newFd ∉ l.fds ∧ t.opened newFd = none then
      some (⟨none, [.fdSet newFd, .index p newFd], some newFd,
        (createClientData a.alloc newFd a.port t.accepted).isNone⟩, enterClient t p a newFd)
    else none

/-- The arrays that a client's descriptor is looked up in: `http_clients` where the index is
below `MAX_CLIENTS`, then the array chosen. -/
def clientUses (t : Tables) (i : Nat) : List DescriptorUse :=
  (if i < maxClients then [.index .http i] else []) ++ [.index (protocolAt t i) i]

/-- The visit of descriptor `i`, with what it does with descriptors. -/
def visitDescriptor (l : ListeningSockets) (s : LoopState) (i : Nat) (a : Answers) :
    Option (DescriptorLog × Visited) :=
  forBody l s i a
    (fun p => (acceptConnection l s.tables p a).map fun r => (r.1.handle i .read, r.2))
    (fun kind looksUp v =>
      ((DescriptorLog.idle (bif looksUp then clientUses s.tables i else [])).handle i kind, v))
    (fun v => (.idle [.fdSet i], v))

/-- One event, as `loopStep`. Select goes through the descriptors up to `max_fd`. -/
def connectionStep (l : ListeningSockets) (s : LoopState) :
    Event → Option (DescriptorLog × LoopState)
  | .visit answers =>
    match s.phase with
    | .scanning i =>
      if s.goesOn i then
        (visitDescriptor l s i answers).map fun r => (r.1, s.advance i r.2)
      else none
    | _ => none
  | .select ret readFds writeFds exceptFds =>
    (loopStep l s (.select ret readFds writeFds exceptFds)).map fun s' =>
      (.idle [.fdSet s.tables.maxFd], s')
  | event => (loopStep l s event).map fun s' => (.idle [], s')

variable {l : ListeningSockets} {t : Tables} {s s' : LoopState} {log : DescriptorLog}

/-! ### The loop of `Connections` is this one with the descriptors bounded -/

/-- Every descriptor that accept returns is below `MAX_CLIENTS`. -/
def DescriptorLog.AcceptedFits (log : DescriptorLog) : Prop :=
  ∀ fd ∈ log.accepted, fd < maxClients

theorem acceptClient_eq_some_iff {p : Protocol} {a : Answers} {v : Visited} :
    acceptClient l t p a = some v ↔
      ∃ log, acceptConnection l t p a = some (log, v) ∧ log.AcceptedFits := by
  cases haccepted : a.accepted with
  | none => simp [acceptClient, acceptConnection, haccepted, DescriptorLog.AcceptedFits,
      DescriptorLog.idle]
  | some newFd =>
    by_cases hfresh : newFd ∉ l.fds ∧ t.opened newFd = none
    · simp [acceptClient, acceptConnection, haccepted, hfresh, DescriptorLog.AcceptedFits,
        and_comm]
    · simp [acceptClient, acceptConnection, haccepted, hfresh]

@[simp] theorem acceptedFits_idle (uses : List DescriptorUse) :
    (DescriptorLog.idle uses).AcceptedFits := by
  simp [DescriptorLog.AcceptedFits, DescriptorLog.idle]

theorem acceptedFits_handle (uses : List DescriptorUse) (i : Nat) (kind : Handling) :
    ((DescriptorLog.idle uses).handle i kind).AcceptedFits := acceptedFits_idle uses

/-- A branch without accept. -/
theorem eq_some_iff_exists_log {v w : Visited} (hlog : log.AcceptedFits) :
    some w = some v ↔ ∃ log', some (log, w) = some (log', v) ∧ log'.AcceptedFits := by
  constructor
  · intro h
    exact ⟨log, by rw [Option.some.inj h], hlog⟩
  · rintro ⟨log', h, -⟩
    exact congrArg some (Prod.mk.inj (Option.some.inj h)).2

theorem acceptClient_eq_some_iff_handle {p : Protocol} {a : Answers} {v : Visited} {i : Nat} :
    acceptClient l t p a = some v ↔
      ∃ log, ((acceptConnection l t p a).map fun r => (r.1.handle i .read, r.2)) =
        some (log, v) ∧ log.AcceptedFits := by
  rw [acceptClient_eq_some_iff]
  constructor
  · rintro ⟨log, h, hlog⟩
    exact ⟨log.handle i .read, by rw [h]; rfl, hlog⟩
  · rintro ⟨_, h, hlog⟩
    obtain ⟨⟨log, w⟩, hr, heq⟩ := Option.map_eq_some_iff.mp h
    obtain ⟨rfl, rfl⟩ := Prod.mk.inj heq
    exact ⟨log, hr, hlog⟩

theorem visitFd_eq_some_iff {i : Nat} {a : Answers} {v : Visited} :
    visitFd l s i a = some v ↔
      ∃ log, visitDescriptor l s i a = some (log, v) ∧ log.AcceptedFits := by
  simp only [visitFd, visitDescriptor, forBody]
  split
  · split
    · exact acceptClient_eq_some_iff_handle
    split
    · exact acceptClient_eq_some_iff_handle
    split
    · exact eq_some_iff_exists_log (acceptedFits_handle _ _ _)
    · exact eq_some_iff_exists_log (acceptedFits_handle _ _ _)
  split
  · split
    · exact eq_some_iff_exists_log (acceptedFits_handle _ _ _)
    · exact eq_some_iff_exists_log (acceptedFits_handle _ _ _)
  split
  · split
    · exact eq_some_iff_exists_log (acceptedFits_handle _ _ _)
    · exact eq_some_iff_exists_log (acceptedFits_handle _ _ _)
  · exact eq_some_iff_exists_log (acceptedFits_idle _)

/-- A step of the loop of `Connections` is a step here in which accept returns a descriptor
below `MAX_CLIENTS`, if it returns one. -/
theorem loopStep_eq_some_iff {event : Event} :
    loopStep l s event = some s' ↔
      ∃ log, connectionStep l s event = some (log, s') ∧ log.AcceptedFits := by
  cases event with
  | visit answers =>
    cases hphase : s.phase with
    | scanning i =>
      simp only [loopStep, connectionStep, hphase]
      split
      · simp only [Option.map_eq_some_iff, visitFd_eq_some_iff, Prod.exists, Prod.mk.injEq]
        constructor
        · rintro ⟨v, ⟨log, h, hlog⟩, rfl⟩
          exact ⟨log, ⟨log, v, h, rfl, rfl⟩, hlog⟩
        · rintro ⟨log, ⟨log', v, h, rfl, rfl⟩, hlog⟩
          exact ⟨v, ⟨log', h, hlog⟩, rfl⟩
      · simp
    | _ => simp [loopStep, connectionStep, hphase]
  | interrupt => simp [connectionStep, eq_comm]
  | select ret readFds writeFds exceptFds => simp [connectionStep, eq_comm]
  | leave => simp [connectionStep, eq_comm]

/-- The runs of `Connections` are those here in which accept returns no descriptor from
`MAX_CLIENTS` on. -/
theorem run_loopStep_eq_some_iff {events : List Event} :
    run (loopStep l) s events = some s' ↔
      ∃ logs, faultTrace (connectionStep l) s events = some (logs, s') ∧
        ∀ log ∈ logs, log.AcceptedFits := by
  induction events generalizing s with
  | nil => simp [run]
  | cons event events ih =>
    rw [run_cons_eq_some]
    constructor
    · rintro ⟨s₁, hs₁, hrun⟩
      obtain ⟨log, hstep, hlog⟩ := loopStep_eq_some_iff.mp hs₁
      obtain ⟨logs, htrace, hlogs⟩ := ih.mp hrun
      refine ⟨log :: logs, ?_, List.forall_mem_cons.mpr ⟨hlog, hlogs⟩⟩
      exact faultTrace_cons_eq_some.mpr ⟨log, s₁, logs, hstep, htrace, rfl⟩
    · rintro ⟨_, htrace, hlogs⟩
      obtain ⟨log, s₁, logs, hstep, hrest, rfl⟩ := faultTrace_cons_eq_some.mp htrace
      obtain ⟨hlog, hlogs⟩ := List.forall_mem_cons.mp hlogs
      exact ⟨s₁, loopStep_eq_some_iff.mpr ⟨log, hstep, hlog⟩, ih.mpr ⟨logs, hrest, hlogs⟩⟩

/-! ### The branches of a visit -/

/-- How a descriptor is to be handled that select has reported in the three sets. -/
def readyAs (readFds writeFds exceptFds : Finset Nat) (i : Nat) : Option Handling :=
  if i ∈ readFds then some .read
  else if i ∈ writeFds then some .write
  else if i ∈ exceptFds then some .exception
  else none

/-- What the branches do with a descriptor that is ready, as it is ready. -/
inductive Branch (l : ListeningSockets) (t : Tables) (i : Nat) (a : Answers) :
    Handling → DescriptorLog → Visited → Prop
  | accept (p : Protocol) {log : DescriptorLog} {v : Visited}
      (h : acceptConnection l t p a = some (log, v)) : Branch l t i a .read log v
  | heartbeat (direction : Direction) :
      Branch l t i a direction.handling (.idle []) (runHeartbeatTask t direction i a.task)
  | client (direction : Direction) :
      Branch l t i a direction.handling (.idle (clientUses t i))
        (runClientTask t (protocolAt t i) direction i a.task)
  | except :
      Branch l t i a .exception (.idle (clientUses t i)) (exceptClient t (protocolAt t i) i)
  | fail : Branch l t i a .exception (.idle []) ⟨t, [], .stop⟩

theorem readyAs_of_ready {i : Nat} {d : Direction} (h : s.Ready i d) :
    readyAs s.readFds s.writeFds s.exceptFds i = some d.handling := by
  cases d with
  | read => exact if_pos h
  | write => rw [readyAs, if_neg h.1, if_pos h.2, Direction.handling]

/-- A visit takes one branch for a descriptor that is ready, as it is ready, and does nothing
for another one. -/
theorem visitDescriptor_branch {i : Nat} {a : Answers} {v : Visited}
    (h : visitDescriptor l s i a = some (log, v)) :
    (∃ kind log', readyAs s.readFds s.writeFds s.exceptFds i = some kind ∧
      Branch l s.tables i a kind log' v ∧ log = log'.handle i kind) ∨
    (readyAs s.readFds s.writeFds s.exceptFds i = none ∧
      log = .idle [.fdSet i] ∧ v = ⟨s.tables, [], .next⟩) := by
  cases forBody_cases h with
  | accept p hread _ haccept =>
    obtain ⟨⟨log', w⟩, hr, heq⟩ := Option.map_eq_some_iff.mp haccept
    obtain ⟨rfl, rfl⟩ := Prod.mk.inj heq
    exact Or.inl ⟨.read, log', if_pos hread, .accept p hr, rfl⟩
  | heartbeat d hready => exact Or.inl ⟨_, _, readyAs_of_ready hready, .heartbeat d, rfl⟩
  | client d hready => exact Or.inl ⟨_, _, readyAs_of_ready hready, .client d, rfl⟩
  | except hnone hexcept =>
    exact Or.inl ⟨.exception, _, by simp [readyAs, hnone, hexcept], .except, rfl⟩
  | fail hnone hexcept =>
    exact Or.inl ⟨.exception, _, by simp [readyAs, hnone, hexcept], .fail, rfl⟩
  | skipped hnone hexcept => exact Or.inr ⟨by simp [readyAs, hnone, hexcept], rfl, rfl⟩

/-- What accept comes to: it fails, or its descriptor is used, and has a record and an open
connection where a record could be made. -/
theorem acceptConnection_cases {p : Protocol} {a : Answers} {v : Visited}
    (h : acceptConnection l t p a = some (log, v)) :
    (log = .idle [] ∧ v = ⟨t, [], .stop⟩) ∨
    ∃ newFd entry, entry = createClientData a.alloc newFd a.port t.accepted ∧
      log.uses = [.fdSet newFd, .index p newFd] ∧ log.accepted = some newFd ∧ v.calls = [] ∧
      v.tables.maxFd = (if t.maxFd < newFd then newFd else t.maxFd) ∧
      (∀ q j, v.tables.entries q j = if q = p ∧ j = newFd then entry else t.entries q j) ∧
      ∀ j, v.tables.opened j =
        if j = newFd then entry.map fun _ => ⟨p, t.accepted⟩ else t.opened j := by
  cases haccepted : a.accepted with
  | none =>
    simp only [acceptConnection, haccepted, Option.some.injEq, Prod.mk.injEq] at h
    exact Or.inl ⟨h.1.symm, h.2.symm⟩
  | some newFd =>
    simp only [acceptConnection, haccepted, Option.ite_none_right_eq_some] at h
    obtain ⟨-, h⟩ := h
    obtain ⟨rfl, rfl⟩ := Prod.mk.inj (Option.some.inj h)
    refine Or.inr ⟨newFd, _, rfl, ?_⟩
    cases hentry : createClientData a.alloc newFd a.port t.accepted with
    | none =>
      rw [enterClient_of_none hentry]
      refine ⟨rfl, rfl, rfl, rfl, fun q j => rfl, fun j => ?_⟩
      -- opened and closed again
      by_cases hj : j = newFd
      · simp [Tables.close, hj]
      · simp [Tables.close, Tables.fdClr, Tables.register, Tables.setEntry, Tables.fdSet,
          Tables.connect, hj]
    | some e =>
      rw [enterClient_of_some hentry]
      exact ⟨rfl, rfl, rfl, rfl, fun q j => rfl, fun j => rfl⟩

/-- What accept returns is put into `master`. -/
theorem visitDescriptor_accepted_mem {i : Nat} {a : Answers} {v : Visited}
    (h : visitDescriptor l s i a = some (log, v)) {fd : Nat} (hfd : fd ∈ log.accepted) :
    .fdSet fd ∈ log.uses := by
  rcases visitDescriptor_branch h with ⟨kind, log', -, hbranch, rfl⟩ | ⟨-, rfl, -⟩
  · apply List.mem_cons_of_mem
    cases hbranch with
    | accept p hv =>
      rcases acceptConnection_cases hv with ⟨rfl, -⟩ | ⟨newFd, _, -, huses, haccepted, -⟩
      · exact absurd hfd (by simp [DescriptorLog.handle, DescriptorLog.idle])
      · obtain rfl := Option.some.inj (haccepted.symm.trans hfd)
        rw [huses]
        exact List.mem_cons_self
    | _ => exact absurd hfd (by simp [DescriptorLog.handle, DescriptorLog.idle])
  · exact absurd hfd (by simp [DescriptorLog.idle])

/-! ## Tables whose descriptors fit -/

/-- A record is that of its descriptor, the connections of the HTTP socket have their records
in `http_clients`, inside the array, and the loop goes through descriptors of the sets. -/
structure Tables.Within (t : Tables) : Prop where
  entry : ∀ p j e, t.entries p j = some e → e.clientSockfd = j ∧ 0 < j
  http : ∀ j n, t.opened j = some ⟨.http, n⟩ →
    j < maxClients ∧ ∃ e, t.entries .http j = some e
  maxFd_lt : t.maxFd < fdSetSize

/-- A connection of the HTTP socket is given to an HTTP handler. -/
def Call.Dispatched : Call → Prop
  | .heartbeat _ _ => True
  | .client p _ _ _ connection => ∀ n, connection = some ⟨.http, n⟩ → p = .http

/-- The uses of a step are in bounds, and a connection whose descriptor is not below
`MAX_CLIENTS` is closed again. -/
structure DescriptorLog.Fits (log : DescriptorLog) : Prop where
  uses : ∀ u ∈ log.uses, u.Fits
  refused : ∀ fd ∈ log.accepted, maxClients ≤ fd → log.refused = true

/-- What the body of the `for` loop keeps. -/
structure Visited.Within (v : Visited) : Prop where
  tables : v.tables.Within
  calls : ∀ c ∈ v.calls, c.Dispatched

/-- A connection of the HTTP socket is looked up in `http_clients`. -/
theorem Tables.Within.protocolAt_eq (h : t.Within) {i n : Nat}
    (hopened : t.opened i = some ⟨.http, n⟩) : protocolAt t i = .http := by
  obtain ⟨hlt, e, he⟩ := h.http i n hopened
  simp [protocolAt, indexInClientHttpDataArray, hlt, he]

/-- Tables that have forgotten a descriptor, and have no other connections and records than
before. -/
theorem Tables.Within.forget (h : t.Within) {t' : Tables} {p : Protocol} {i : Nat}
    (hmax : t'.maxFd < fdSetSize)
    (hentries : ∀ q j, t'.entries q j = if q = p ∧ j = i then none else t.entries q j)
    (hopened : ∀ j, t'.opened j = if j = i then none else t.opened j) : t'.Within := by
  refine ⟨fun q j e he => ?_, fun j n hc => ?_, hmax⟩
  · rw [hentries, Option.ite_none_left_eq_some] at he
    exact h.entry q j e he.2
  · rw [hopened, Option.ite_none_left_eq_some] at hc
    obtain ⟨hne, hc⟩ := hc
    obtain ⟨hlt, e, he⟩ := h.http j n hc
    exact ⟨hlt, e, by rw [hentries, if_neg fun h => hne h.2, he]⟩

/-- A client is dropped with its record, or has none and only leaves `master`. -/
theorem Tables.Within.dropClient (h : t.Within) (p : Protocol) (i : Nat) :
    (t.dropClient p i).Within := by
  cases he : t.entries p i with
  | none =>
    simp only [Tables.dropClient, Tables.freeClient, he]
    exact ⟨h.entry, h.http, h.maxFd_lt⟩
  | some e =>
    obtain ⟨hfd, hpos⟩ := h.entry p i e he
    -- the record closes its own descriptor
    simp only [Tables.dropClient, Tables.freeClient, he, hfd, if_pos hpos]
    exact h.forget h.maxFd_lt (fun q j => rfl) (fun j => rfl)

/-- Tables that have a new descriptor with its record, below the end of the arrays. -/
theorem Tables.Within.add (h : t.Within) {t' : Tables} {p : Protocol} {fd serial : Nat}
    (hpos : 0 < fd) (hlt : fd < maxClients) (hmax : t'.maxFd < fdSetSize)
    (hentries : ∀ q j, t'.entries q j =
      if q = p ∧ j = fd then some ⟨fd, serial⟩ else t.entries q j)
    (hopened : ∀ j, t'.opened j = if j = fd then some ⟨p, serial⟩ else t.opened j) :
    t'.Within := by
  refine ⟨fun q j e he => ?_, fun j n hc => ?_, hmax⟩
  · rw [hentries] at he
    by_cases hnew : q = p ∧ j = fd
    · rw [if_pos hnew] at he
      obtain rfl := Option.some.inj he
      exact ⟨hnew.2.symm, hnew.2 ▸ hpos⟩
    · rw [if_neg hnew] at he
      exact h.entry q j e he
  · rw [hopened] at hc
    by_cases hj : j = fd
    · -- a new connection of the HTTP socket has its record in `http_clients`
      subst hj
      rw [if_pos rfl] at hc
      obtain rfl : p = .http := congrArg Connection.protocol (Option.some.inj hc)
      exact ⟨hlt, ⟨j, serial⟩, by rw [hentries, if_pos ⟨rfl, rfl⟩]⟩
    · rw [if_neg hj] at hc
      obtain ⟨hj', e, he⟩ := h.http j n hc
      exact ⟨hj', e, by rw [hentries, if_neg fun h => hj h.2, he]⟩

/-! ## Steps in bounds -/

theorem fits_of_uses {uses : List DescriptorUse} (huses : ∀ u ∈ uses, u.Fits) :
    (DescriptorLog.idle uses).Fits where
  uses := huses
  refused := by simp [DescriptorLog.idle]

theorem fits_of_accepted {p : Protocol} {fd : Nat} (hlt : fd < maxClients)
    (huses : log.uses = [.fdSet fd, .index p fd]) (haccepted : log.accepted = some fd) :
    log.Fits where
  uses := by
    intro u hu
    rw [huses] at hu
    rcases List.mem_pair.mp hu with rfl | rfl
    · exact hlt
    · exact hlt
  refused := by
    intro fd' hfd hge
    obtain rfl := Option.some.inj (haccepted.symm.trans hfd)
    omega

theorem DescriptorLog.Fits.handle (h : log.Fits) {i : Nat} (hi : i < fdSetSize)
    (kind : Handling) : (log.handle i kind).Fits where
  uses := List.forall_mem_cons.mpr ⟨hi, h.uses⟩
  refused := h.refused

/-- The only place where a descriptor is compared with `MAX_CLIENTS`. -/
theorem fits_clientUses (t : Tables) {i : Nat} (hi : i < maxClients) :
    ∀ u ∈ clientUses t i, u.Fits := by
  intro u hu
  rw [clientUses, if_pos hi] at hu
  rcases List.mem_pair.mp hu with rfl | rfl
  · exact hi
  · exact hi

theorem acceptConnection_within (h : t.Within) {p : Protocol} {a : Answers} {v : Visited}
    (hv : acceptConnection l t p a = some (log, v)) (haccepted : log.AcceptedFits) :
    v.Within ∧ log.Fits := by
  rcases acceptConnection_cases hv with
    ⟨rfl, rfl⟩ | ⟨newFd, entry, hentry, huses, hnewFd, hcalls, hmax, hentries, hopened⟩
  · exact ⟨⟨h, by simp⟩, fits_of_uses (by simp)⟩
  · have hlt : newFd < maxClients := haccepted newFd hnewFd
    have hmaxFd : v.tables.maxFd < fdSetSize := by
      rw [hmax]
      split
      · exact hlt
      · exact h.maxFd_lt
    refine ⟨⟨?_, by simp [hcalls]⟩, fits_of_accepted hlt huses hnewFd⟩
    cases entry with
    | none => exact h.forget hmaxFd hentries hopened
    | some e =>
      obtain ⟨hpos, rfl⟩ := createClientData_eq_some hentry.symm
      exact h.add hpos hlt hmaxFd hentries hopened

theorem runHeartbeatTask_within (h : t.Within) (direction : Direction) (i : Nat)
    (task : TaskOutcome) : (runHeartbeatTask t direction i task).Within := by
  cases task with
  | refused => exact ⟨h, by simp [runHeartbeatTask]⟩
  | done result => exact ⟨h, by simp [runHeartbeatTask, Call.Dispatched]⟩

theorem runClientTask_within (h : t.Within) (direction : Direction) (i : Nat)
    (task : TaskOutcome) : (runClientTask t (protocolAt t i) direction i task).Within := by
  cases task with
  | refused => exact ⟨h.dropClient _ i, by simp [runClientTask]⟩
  | done result =>
    have hcalls : ∀ c ∈ [Call.client (protocolAt t i) direction i (t.entries (protocolAt t i) i)
        (t.opened i)], c.Dispatched := by
      intro c hc
      -- a connection of the HTTP socket is found in `http_clients`
      rw [List.mem_singleton.mp hc]
      exact fun n hopened => h.protocolAt_eq hopened
    simp only [runClientTask]
    split
    · exact ⟨h, hcalls⟩
    · split
      · exact ⟨h.dropClient _ i, hcalls⟩
      · exact ⟨h, hcalls⟩

theorem exceptClient_within (h : t.Within) (p : Protocol) (i : Nat) :
    (exceptClient t p i).Within := by
  simp only [exceptClient]
  split
  · exact ⟨h, by simp⟩
  · exact ⟨h.dropClient p i, by simp⟩

/-- A branch for a descriptor up to `max_fd`. -/
theorem branch_within (h : t.Within) {i : Nat} (hi : i < maxClients) {a : Answers} {v : Visited}
    {kind : Handling} (hbranch : Branch l t i a kind log v) (haccepted : log.AcceptedFits) :
    v.Within ∧ log.Fits := by
  cases hbranch with
  | accept p hv => exact acceptConnection_within h hv haccepted
  | heartbeat direction =>
    exact ⟨runHeartbeatTask_within h direction i a.task, fits_of_uses (by simp)⟩
  | client direction =>
    exact ⟨runClientTask_within h direction i a.task, fits_of_uses (fits_clientUses t hi)⟩
  | except => exact ⟨exceptClient_within h _ i, fits_of_uses (fits_clientUses t hi)⟩
  | fail => exact ⟨⟨h, by simp⟩, fits_of_uses (by simp)⟩

/-- A descriptor up to `max_fd` is visited. -/
theorem visitDescriptor_within (h : s.tables.Within) {i : Nat} (hi : i ≤ s.tables.maxFd)
    {a : Answers} {v : Visited} (hv : visitDescriptor l s i a = some (log, v))
    (haccepted : log.AcceptedFits) : v.Within ∧ log.Fits := by
  have hlt : i < fdSetSize := hi.trans_lt h.maxFd_lt
  rcases visitDescriptor_branch hv with ⟨kind, log', -, hbranch, rfl⟩ | ⟨-, rfl, rfl⟩
  · obtain ⟨hw, hfits⟩ := branch_within h hlt hbranch haccepted
    exact ⟨hw, hfits.handle hlt kind⟩
  · exact ⟨⟨h, by simp⟩, fits_of_uses (List.forall_mem_singleton.mpr hlt)⟩

/-! ## Runs in bounds -/

/-- What the loop keeps as long as accept returns descriptors below `MAX_CLIENTS`. -/
structure LoopState.Within (s : LoopState) : Prop where
  tables : s.tables.Within
  calls : ∀ c ∈ s.calls, c.Dispatched

theorem within_initial (l : ListeningSockets) (hl : ∀ fd ∈ l.fds, fd < maxClients) :
    (LoopState.initial l).Within where
  tables := by
    refine ⟨by simp [LoopState.initial, Tables.initial],
      by simp [LoopState.initial, Tables.initial], ?_⟩
    simp only [LoopState.initial, Tables.initial, max_lt_iff]
    refine ⟨⟨hl l.tcp ?_, hl l.udp ?_⟩, hl l.http ?_⟩
    · exact ListeningSockets.mem_fds.mpr (Or.inl rfl)
    · exact ListeningSockets.mem_fds.mpr (Or.inr (Or.inl rfl))
    · exact ListeningSockets.mem_fds.mpr (Or.inr (Or.inr rfl))
  calls := by simp [LoopState.initial]

theorem LoopState.Within.advance (h : s.Within) {i : Nat} {v : Visited} (hv : v.Within) :
    (s.advance i v).Within where
  tables := by
    rw [LoopState.advance_tables]
    exact hv.tables
  calls := by
    intro c hc
    rw [LoopState.advance_calls, List.mem_append] at hc
    rcases hc with hc | hc
    · exact h.calls c hc
    · exact hv.calls c hc

/-- What is no visit leaves the tables and the calls alone. -/
theorem loopStep_eq_of_not_visit {event : Event} (h : ∀ answers, event ≠ .visit answers)
    (hstep : loopStep l s event = some s') : s'.tables = s.tables ∧ s'.calls = s.calls := by
  cases loopStep_move hstep with
  | visited hphase hgoesOn hv => exact absurd rfl (h _)
  | _ => exact ⟨rfl, rfl⟩

/-- A step is the visit of a descriptor, or a step of `Connections` that notes at most
`max_fd`. -/
theorem connectionStep_cases {event : Event} (h : connectionStep l s event = some (log, s')) :
    (∃ i answers v, event = .visit answers ∧ s.phase = .scanning i ∧ s.goesOn i ∧
      visitDescriptor l s i answers = some (log, v) ∧ s' = s.advance i v) ∨
    ((∀ answers, event ≠ .visit answers) ∧ loopStep l s event = some s' ∧
      (log = .idle [] ∨ log = .idle [.fdSet s.tables.maxFd])) := by
  cases event with
  | visit answers =>
    cases hphase : s.phase with
    | scanning i =>
      simp only [connectionStep, hphase, Option.ite_none_right_eq_some] at h
      obtain ⟨hgoesOn, h⟩ := h
      obtain ⟨⟨log', v⟩, hv, heq⟩ := Option.map_eq_some_iff.mp h
      obtain ⟨rfl, rfl⟩ := Prod.mk.inj heq
      exact Or.inl ⟨i, answers, v, rfl, rfl, hgoesOn, hv, rfl⟩
    | _ => simp [connectionStep, hphase] at h
  | select ret readFds writeFds exceptFds =>
    obtain ⟨s₁, hs₁, heq⟩ := Option.map_eq_some_iff.mp h
    obtain ⟨rfl, rfl⟩ := Prod.mk.inj heq
    exact Or.inr ⟨by simp, hs₁, Or.inr rfl⟩
  | interrupt =>
    obtain ⟨rfl, rfl⟩ := Prod.mk.inj (Option.some.inj h)
    exact Or.inr ⟨by simp, rfl, Or.inl rfl⟩
  | leave =>
    obtain ⟨s₁, hs₁, heq⟩ := Option.map_eq_some_iff.mp h
    obtain ⟨rfl, rfl⟩ := Prod.mk.inj heq
    exact Or.inr ⟨by simp, hs₁, Or.inl rfl⟩

theorem connectionStep_within {event : Event} (h : s.Within)
    (hstep : connectionStep l s event = some (log, s')) (haccepted : log.AcceptedFits) :
    s'.Within ∧ log.Fits := by
  rcases connectionStep_cases hstep with
    ⟨i, answers, v, -, -, hgoesOn, hv, rfl⟩ | ⟨hother, hloop, hlog⟩
  · obtain ⟨hw, hfits⟩ := visitDescriptor_within h.tables hgoesOn.1 hv haccepted
    exact ⟨h.advance hw, hfits⟩
  · obtain ⟨htables, hcalls⟩ := loopStep_eq_of_not_visit hother hloop
    refine ⟨⟨htables ▸ h.tables, hcalls ▸ h.calls⟩, ?_⟩
    rcases hlog with rfl | rfl
    · exact fits_of_uses (by simp)
    · exact fits_of_uses (List.forall_mem_singleton.mpr h.tables.maxFd_lt)

theorem connectionStep_accepted_mem {event : Event}
    (hstep : connectionStep l s event = some (log, s')) :
    ∀ fd ∈ log.accepted, .fdSet fd ∈ log.uses := by
  intro fd hfd
  rcases connectionStep_cases hstep with ⟨i, answers, v, -, -, -, hv, -⟩ | ⟨-, -, hlog⟩
  · exact visitDescriptor_accepted_mem hv hfd
  · rcases hlog with rfl | rfl
    · exact absurd hfd (by simp [DescriptorLog.idle])
    · exact absurd hfd (by simp [DescriptorLog.idle])

theorem mem_initialUses {u : DescriptorUse} : u ∈ initialUses l ↔ ∃ fd ∈ l.fds, .fdSet fd = u := by
  simp [initialUses, ListeningSockets.fds, eq_comm]

/-- Every use of a descriptor is in bounds, a descriptor that does not fit is refused and the
connections of the HTTP socket go to the HTTP handlers, on exactly the runs whose listening
sockets and accepted connections all have descriptors below `MAX_CLIENTS`. -/
theorem descriptors_fit_iff (l : ListeningSockets) {events : List Event}
    {logs : List DescriptorLog} {s : LoopState}
    (hrun : faultTrace (connectionStep l) (.initial l) events = some (logs, s)) :
    ((∀ u ∈ initialUses l, u.Fits) ∧ (∀ log ∈ logs, log.Fits) ∧
        ∀ c ∈ s.calls, c.Dispatched) ↔
      (∀ fd ∈ l.fds, fd < maxClients) ∧ ∀ log ∈ logs, log.AcceptedFits := by
  constructor
  · rintro ⟨hinitial, hfits, -⟩
    constructor
    · intro fd hfd
      exact hinitial _ (mem_initialUses.mpr ⟨fd, hfd, rfl⟩)
    · -- what accept returns is used in the same step
      have hmem : ∀ log ∈ logs, ∀ fd ∈ log.accepted, .fdSet fd ∈ log.uses :=
        faultTrace_outputs (fun _ _ _ _ => connectionStep_accepted_mem) hrun
      intro log hlog fd hfd
      exact (hfits log hlog).uses _ (hmem log hlog fd hfd)
  · -- the other way, by the invariant of the runs without a large descriptor
    rintro ⟨hl, haccepted⟩
    obtain ⟨hwithin, hfits⟩ :=
      faultTrace_invariant (fun _ _ _ _ h hstep hlog => connectionStep_within h hstep hlog)
        (within_initial l hl) hrun haccepted
    refine ⟨fun u hu => ?_, hfits, hwithin.calls⟩
    obtain ⟨fd, hfd, rfl⟩ := mem_initialUses.mp hu
    exact hl fd hfd

/-! ### The HTTP socket accepts a descriptor -/

/-- A client of the HTTP socket connects and is read. -/
def oneHttpClient (fd : Nat) : List Event :=
  .select 1 {5} ∅ ∅ ::
    List.replicate 6 (.visit ⟨some fd, 4000, true, .refused⟩) ++
    .leave :: .select 1 {fd} ∅ ∅ ::
    List.replicate (fd + 1) (.visit ⟨none, 0, false, .done none⟩)

/-- The first descriptor behind the listening sockets is used in bounds. -/
theorem descriptors_fit_oneHttpClient :
    ∃ logs s, faultTrace (connectionStep firstSockets) (.initial firstSockets)
        (oneHttpClient 6) = some (logs, s) ∧
      s.calls = [.client .http .read 6 (some ⟨6, 0⟩) (some ⟨.http, 0⟩)] ∧
      (∀ u ∈ initialUses firstSockets, u.Fits) ∧ (∀ log ∈ logs, log.Fits) ∧
        ∀ c ∈ s.calls, c.Dispatched := by
  have hrun : (faultTrace (connectionStep firstSockets) (.initial firstSockets)
      (oneHttpClient 6)).map (fun r => (r.2.calls, r.1.filterMap DescriptorLog.accepted)) =
        some ([.client .http .read 6 (some ⟨6, 0⟩) (some ⟨.http, 0⟩)], [6]) := by
    decide +kernel
  obtain ⟨⟨logs, s⟩, hs, heq⟩ := Option.map_eq_some_iff.mp hrun
  obtain ⟨hcalls, haccepted⟩ := Prod.mk.inj heq
  refine ⟨logs, s, hs, hcalls, (descriptors_fit_iff firstSockets hs).mpr ⟨by decide, ?_⟩⟩
  intro log hlog fd hfd
  have hmem : fd ∈ logs.filterMap DescriptorLog.accepted := List.mem_filterMap.mpr ⟨log, hlog, hfd⟩
  rw [haccepted, List.mem_singleton] at hmem
  rw [hmem]
  decide

/-- With 1024 as the descriptor of its connection, `FD_SET` goes behind the end of the set, the
index of the record is not below `MAX_CLIENTS`, and the HTTP client is given to a simple handler
without a record. -/
theorem descriptors_unfit :
    ∃ logs s, faultTrace (connectionStep firstSockets) (.initial firstSockets)
        (oneHttpClient 1024) = some (logs, s) ∧
      (∃ log ∈ logs, log.uses = [.fdSet 5, .fdSet 1024, .index .http 1024] ∧
        log.refused = false) ∧
      s.calls = [.client .tcp .read 1024 none (some ⟨.http, 0⟩)] ∧
      (¬ ∀ log ∈ logs, log.Fits) ∧ ¬ ∀ c ∈ s.calls, c.Dispatched := by
  have hrun : (faultTrace (connectionStep firstSockets) (.initial firstSockets)
      (oneHttpClient 1024)).map (fun r => (r.2.calls, r.1[6]?)) =
        some ([.client .tcp .read 1024 none (some ⟨.http, 0⟩)],
          some ⟨some (5, .read), [.fdSet 5, .fdSet 1024, .index .http 1024], some 1024,
            false⟩) := by
    decide +kernel
  obtain ⟨⟨logs, s⟩, hs, heq⟩ := Option.map_eq_some_iff.mp hrun
  obtain ⟨hcalls, hlog⟩ := Prod.mk.inj heq
  refine ⟨logs, s, hs, ⟨_, List.mem_of_getElem? hlog, rfl, rfl⟩, hcalls, fun h => ?_, fun h => ?_⟩
  · have hfits := (h _ (List.mem_of_getElem? hlog)).uses (.fdSet 1024) (by simp)
    exact absurd hfits (by decide : ¬ 1024 < fdSetSize)
  · have hdispatched := h _ (hcalls ▸ List.mem_singleton_self _)
    exact absurd (hdispatched 0 rfl) (by decide)

end SelectServer
