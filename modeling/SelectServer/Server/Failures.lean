import SelectServer.Server.Connections

/-!
# Failures at one descriptor

What the body of the `for` loop does at a descriptor never touches another connection. Whether
the loop goes on is another matter: an error of a handler or an exception costs the client, but
where `accept` fails, a record cannot be made, a task is refused or a handler returns NULL,
the loop sets `ret_val` to -1, ends, and the cleanup behind it closes every connection
(`visit_at_one_descriptor`).

Nothing is assumed of select here. Where it reports a TCP listening socket for writing alone,
`master` loses that socket, so the invariant is that of the tables with the listening sockets
put back (`Tables.listen`).
-/

namespace SelectServer

open Systems

/-! ## The end of `handle_connections` -/

/-- `free_clients_tcp_data` and `free_clients_http_data`: free the elements of an array. -/
def Tables.freeClients (t : Tables) (p : Protocol) : Tables :=
  (List.range maxClients).foldl (fun t i => t.freeClient p i) t

/-- The cleanup behind the loop. -/
def Tables.cleanup (t : Tables) : Tables :=
  (({ t with master := ∅ } : Tables).freeClients .tcp).freeClients .http

/-! ## The tables with all listening sockets -/

/-- The listening sockets are put back into `master`. -/
def Tables.listen (l : ListeningSockets) (t : Tables) : Tables :=
  { t with master := t.master ∪ l.fds }

variable {l : ListeningSockets} {t : Tables}

theorem Tables.mem_listen {j : Nat} : j ∈ (t.listen l).master ↔ j ∈ t.master ∨ j ∈ l.fds :=
  Finset.mem_union

theorem listen_initial (l : ListeningSockets) : (Tables.initial l).listen l = .initial l := by
  rw [Tables.listen, Tables.initial, Finset.union_self]

/-- A descriptor that is no listening socket is cleared before or after. -/
theorem listen_fdClr {i : Nat} (hlistening : i ∉ l.fds) :
    (t.fdClr i).listen l = (t.listen l).fdClr i := by
  rw [Tables.listen, Tables.fdClr, Tables.listen, Tables.fdClr, Finset.erase_union_distrib,
    Finset.erase_eq_of_notMem hlistening]

/-- A listening socket that is cleared is put back. -/
theorem listen_fdClr_of_mem {i : Nat} (hlistening : i ∈ l.fds) :
    (t.fdClr i).listen l = t.listen l := by
  rw [Tables.listen, Tables.fdClr, Tables.listen]
  congr 1
  ext j
  simp only [Finset.mem_union, Finset.mem_erase]
  by_cases hj : j = i
  · subst hj
    simp [hlistening]
  · simp [hj]

theorem listen_freeClient (p : Protocol) (i : Nat) :
    (t.freeClient p i).listen l = (t.listen l).freeClient p i := by
  have hentries : (t.listen l).entries p i = t.entries p i := rfl
  rw [Tables.freeClient, Tables.freeClient, hentries]
  cases t.entries p i with
  | none => rfl
  | some entry =>
    simp only
    split <;> rfl

/-- A listening socket is accepted from in the same way. -/
theorem acceptClient_listen {p : Protocol} {a : Answers} {v : Visited}
    (hv : acceptClient l t p a = some v) :
    acceptClient l (t.listen l) p a = some { v with tables := v.tables.listen l } := by
  unfold acceptClient at hv ⊢
  cases haccepted : a.accepted with
  | none =>
    simp only [haccepted, Option.some.injEq] at hv
    subst hv
    rfl
  | some newFd =>
    simp only [haccepted, Option.ite_none_right_eq_some] at hv ⊢
    obtain ⟨hcond, hv⟩ := hv
    obtain rfl := Option.some.inj hv
    refine ⟨hcond, ?_⟩
    have hserial : (t.listen l).accepted = t.accepted := rfl
    cases hentry : createClientData a.alloc newFd a.port t.accepted with
    | none =>
      rw [enterClient_of_none hentry, enterClient_of_none (hserial ▸ hentry)]
      have hmaster : (insert newFd (t.master ∪ l.fds)).erase newFd =
          (insert newFd t.master).erase newFd ∪ l.fds := by
        rw [← Finset.insert_union, Finset.erase_union_distrib,
          Finset.erase_eq_of_notMem hcond.2.1]
      simp only [Tables.listen, Tables.register, Tables.close, Tables.fdClr, Tables.setEntry,
        Tables.fdSet, Tables.connect, hmaster]
      rfl
    | some entry =>
      rw [enterClient_of_some hentry, enterClient_of_some (hserial ▸ hentry)]
      have hmaster : insert newFd (t.master ∪ l.fds) = insert newFd t.master ∪ l.fds :=
        (Finset.insert_union newFd _ _).symm
      simp only [Tables.listen, Tables.register, Tables.setEntry, Tables.fdSet, Tables.connect,
        hmaster]
      rfl

/-! ## What a visit leaves alone -/

/-- The registration of a descriptor is the same: its bit in `master`, its table entries, its
open connection. -/
structure SameAt (t t' : Tables) (j : Nat) : Prop where
  master : j ∈ t'.master ↔ j ∈ t.master
  entries : ∀ p, t'.entries p j = t.entries p j
  opened : t'.opened j = t.opened j

theorem SameAt.rfl (t : Tables) (j : Nat) : SameAt t t j := ⟨Iff.rfl, fun _ => Eq.refl _, Eq.refl _⟩

theorem register_sameAt (t : Tables) (p : Protocol) {fd j : Nat} (entry : Option ClientEntry)
    (hne : j ≠ fd) : SameAt t (t.register p fd entry) j where
  master := by simp [Tables.register, Tables.setEntry, Tables.fdSet, Tables.connect, hne]
  entries q := by simp [Tables.register, Tables.setEntry, Tables.fdSet, Tables.connect, hne]
  opened := by simp [Tables.register, Tables.setEntry, Tables.fdSet, Tables.connect, hne]

theorem acceptClient_sameAt {p : Protocol} {a : Answers} {v : Visited} {j : Nat}
    (hv : acceptClient l t p a = some v) (hj : j ∈ l.fds ∨ (t.opened j).isSome) :
    SameAt t v.tables j := by
  rcases acceptClient_cases hv with
    ⟨-, rfl⟩ | ⟨newFd, -, ⟨-, hlistening, hfresh⟩, hregistered⟩
  · exact .rfl t j
  have hne : j ≠ newFd := by
    rintro rfl
    rcases hj with hj | hj
    · exact hlistening hj
    · rw [hfresh] at hj
      cases hj
  rcases hregistered with ⟨-, rfl⟩ | ⟨e, -, rfl⟩
  · obtain ⟨hmaster, hentries, hopened⟩ := register_sameAt t p none hne
    refine ⟨?_, hentries, ?_⟩
    · show j ∈ (t.register p newFd none).master.erase newFd ↔ j ∈ t.master
      rw [Finset.mem_erase, and_iff_right hne, hmaster]
    · show (if j = newFd then none else (t.register p newFd none).opened j) = t.opened j
      rw [if_neg hne, hopened]
  · exact register_sameAt t p (some e) hne

/-- A record closes its own descriptor. -/
theorem dropClient_sameAt {p : Protocol} {i j : Nat}
    (hfd : ∀ e, t.entries p i = some e → e.clientSockfd = i) (hj : j ≠ i) :
    SameAt t (t.dropClient p i) j := by
  unfold Tables.dropClient Tables.freeClient
  cases he : t.entries p i with
  | none =>
    refine ⟨?_, fun q => rfl, rfl⟩
    simp [Tables.fdClr, hj]
  | some e =>
    have hi := hfd e he
    simp only [hi]
    constructor
    · split <;> simp [Tables.close, Tables.fdClr, Tables.setEntry, hj]
    · intro q
      split <;> simp [Tables.close, Tables.fdClr, Tables.setEntry, hj]
    · split <;> simp [Tables.close, Tables.fdClr, Tables.setEntry, hj]

/-! ## One descriptor -/

/-- The answers at which the loop gives up: nothing is accepted, or no record can be made of it;
a task is refused, or its handler returns NULL, as it does with the NULL that stands for a
TCP listening socket in the tables; a listening socket has an exception. -/
def GivesUp (l : ListeningSockets) (s : LoopState) (i : Nat) (a : Answers) : Prop :=
  if i ∈ s.readFds ∧ (i = l.tcp ∨ i = l.http) then
    (a.accepted.bind fun newFd =>
      createClientData a.alloc newFd a.port s.tables.accepted) = none
  else if i ∈ s.readFds ∨ i ∈ s.writeFds then
    a.task = .refused ∨ a.task = .done none ∨ i = l.tcp ∨ i = l.http
  else i ∈ s.exceptFds ∧ i ∈ l.fds

/-- What a visit of `i` leaves: tables that agree once the listening sockets are put back, with
everything but `i`; the same registration of every other connection; and the end of the loop
where it gives up. -/
structure Visited.Spares (l : ListeningSockets) (t : Tables) (i : Nat) (givesUp : Prop)
    (v : Visited) : Prop where
  agree : (v.tables.listen l).Agree l
  mem_master : ∀ j ∈ (t.listen l).master, j ≠ i → j ∈ (v.tables.listen l).master
  same : ∀ j, j ≠ i → (j ∈ l.fds ∨ (t.opened j).isSome) → SameAt t v.tables j
  gaveUp : givesUp → v.exit = .stop
  wentOn : ¬ givesUp → v.exit = .next

/-- A visit that only makes a call. -/
theorem spares_of_tables (h : (t.listen l).Agree l) (i : Nat) {givesUp : Prop}
    (calls : List Call) {exit : Exit} (hstop : givesUp → exit = .stop)
    (hnext : ¬ givesUp → exit = .next) : Visited.Spares l t i givesUp ⟨t, calls, exit⟩ :=
  ⟨h, fun _ hj _ => hj, fun j _ _ => .rfl t j, hstop, hnext⟩

theorem acceptClient_spares (h : (t.listen l).Agree l) {p : Protocol} {a : Answers} {i : Nat}
    {v : Visited} (hv : acceptClient l t p a = some v) :
    v.Spares l t i ((a.accepted.bind fun newFd =>
      createClientData a.alloc newFd a.port t.accepted) = none) := by
  have hkeeps := acceptClient_keeps (i := i) h (acceptClient_listen hv)
  refine ⟨hkeeps.agree, hkeeps.mem_master, fun j _ hj => acceptClient_sameAt hv hj, ?_, ?_⟩
  · intro hnone
    rcases acceptClient_cases hv with ⟨-, rfl⟩ | ⟨newFd, haccepted, -, ⟨-, rfl⟩ | ⟨e, hentry, -⟩⟩
    · rfl
    · rfl
    · rw [haccepted, Option.bind_some, hentry] at hnone
      cases hnone
  · intro hsome
    rcases acceptClient_cases hv with
      ⟨haccepted, -⟩ | ⟨newFd, haccepted, -, ⟨hentry, -⟩ | ⟨e, -, rfl⟩⟩
    · exact absurd (by rw [haccepted]; rfl) hsome
    · exact absurd (by rw [haccepted, Option.bind_some, hentry]) hsome
    · rfl

theorem runHeartbeatTask_spares (h : (t.listen l).Agree l) (direction : Direction)
    (task : TaskOutcome) :
    (runHeartbeatTask t direction l.udp task).Spares l t l.udp
      (task = .refused ∨ task = .done none ∨ l.udp = l.tcp ∨ l.udp = l.http) := by
  have hne : ¬ (l.udp = l.tcp ∨ l.udp = l.http) := by
    rintro (heq | heq)
    · exact l.tcp_ne_udp heq.symm
    · exact l.udp_ne_http heq
  cases task with
  | refused => exact spares_of_tables h _ _ (fun _ => rfl) fun hno => absurd (Or.inl rfl) hno
  | done result =>
    cases result with
    | none =>
      exact spares_of_tables h _ _ (fun _ => rfl) fun hno => absurd (Or.inr (Or.inl rfl)) hno
    | some value =>
      refine spares_of_tables h _ _ (fun hstop => ?_) fun _ => rfl
      rcases hstop with heq | heq | heq
      · cases heq
      · cases heq
      · exact absurd heq hne

/-- A client is dropped. -/
theorem dropClient_spares (h : (t.listen l).Agree l) {p : Protocol} {i : Nat} {e : ClientEntry}
    (he : t.entries p i = some e) {givesUp : Prop} (calls : List Call) {exit : Exit}
    (hstop : givesUp → exit = .stop) (hnext : ¬ givesUp → exit = .next) :
    Visited.Spares l t i givesUp ⟨t.dropClient p i, calls, exit⟩ := by
  obtain ⟨hfd, -, hlistening, -, -⟩ := h.entry p i e he
  have hlisten : (t.dropClient p i).listen l = (t.listen l).dropClient p i := by
    rw [Tables.dropClient, listen_fdClr hlistening, listen_freeClient, Tables.dropClient]
  have hown : ∀ e', t.entries p i = some e' → e'.clientSockfd = i := by
    intro e' he'
    exact (h.entry p i e' he').1
  refine ⟨?_, fun j hj hji => ?_, fun j hji _ => dropClient_sameAt hown hji, hstop, hnext⟩
  · rw [hlisten]
    exact h.dropClient he
  · rw [hlisten, h.dropClient_eq he]
    exact Finset.mem_erase.mpr ⟨hji, hj⟩

theorem runClientTask_spares (h : (t.listen l).Agree l) {i : Nat}
    (hi : i ∈ (t.listen l).master) (hlistening : i ∉ l.fds) (direction : Direction)
    (task : TaskOutcome) :
    (runClientTask t (protocolAt t i) direction i task).Spares l t i
      (task = .refused ∨ task = .done none ∨ i = l.tcp ∨ i = l.http) := by
  obtain ⟨e, he⟩ : ∃ e, t.entries (protocolAt t i) i = some e := h.entry_protocolAt hi hlistening
  rw [ListeningSockets.mem_fds, not_or, not_or] at hlistening
  obtain ⟨htcp, -, hhttp⟩ := hlistening
  cases task with
  | refused => exact dropClient_spares h he _ (fun _ => rfl) fun hno => absurd (Or.inl rfl) hno
  | done result =>
    simp only [runClientTask, he, Option.isSome_some, if_true]
    cases result with
    | none =>
      exact spares_of_tables h _ _ (fun _ => rfl) fun hno => absurd (Or.inr (Or.inl rfl)) hno
    | some value =>
      have hstop : TaskOutcome.done (some value) = .refused ∨
          TaskOutcome.done (some value) = .done none ∨ i = l.tcp ∨ i = l.http →
            Exit.next = .stop := by
        rintro (heq | heq | heq | heq)
        · cases heq
        · cases heq
        · exact absurd heq htcp
        · exact absurd heq hhttp
      simp only
      split
      · exact dropClient_spares h he _ hstop fun _ => rfl
      · exact spares_of_tables h _ _ hstop fun _ => rfl

/-- A TCP listening socket that is only ready for writing has no record: whatever becomes of
the task, the loop gives up. -/
theorem runClientTask_spares_listening (h : (t.listen l).Agree l) {i : Nat}
    (hi : i = l.tcp ∨ i = l.http) (p : Protocol) (direction : Direction) (task : TaskOutcome) :
    (runClientTask t p direction i task).Spares l t i
      (task = .refused ∨ task = .done none ∨ i = l.tcp ∨ i = l.http) := by
  have hmem : i ∈ l.fds := by
    rw [ListeningSockets.mem_fds]
    rcases hi with hi | hi
    · exact Or.inl hi
    · exact Or.inr (Or.inr hi)
  have hnone : t.entries p i = none := by
    cases he : t.entries p i with
    | none => rfl
    | some e => exact absurd hmem (h.entry p i e he).2.2.1
  have hgivesUp : task = .refused ∨ task = .done none ∨ i = l.tcp ∨ i = l.http :=
    Or.inr (Or.inr hi)
  cases task with
  | refused =>
    have hdrop : t.dropClient p i = t.fdClr i := by
      rw [Tables.dropClient, Tables.freeClient, hnone]
    refine ⟨?_, ?_, fun j hji _ => ?_, fun _ => rfl, fun hno => absurd hgivesUp hno⟩
    · show ((t.dropClient p i).listen l).Agree l
      rw [hdrop, listen_fdClr_of_mem hmem]
      exact h
    · intro j hj _
      show j ∈ ((t.dropClient p i).listen l).master
      rw [hdrop, listen_fdClr_of_mem hmem]
      exact hj
    · apply dropClient_sameAt _ hji
      intro e he
      rw [hnone] at he
      cases he
  | done result =>
    simp only [runClientTask, hnone, Option.isSome_none, Bool.false_eq_true, if_false]
    exact spares_of_tables h _ _ (fun _ => rfl) fun hno => absurd hgivesUp hno

theorem givesUp_of_ready {s : LoopState} {i : Nat} {a : Answers} {d : Direction}
    (hready : s.Ready i d) (hlistening : d = .read → i ≠ l.tcp ∧ i ≠ l.http) :
    GivesUp l s i a =
      (a.task = .refused ∨ a.task = .done none ∨ i = l.tcp ∨ i = l.http) := by
  have haccept : ¬ (i ∈ s.readFds ∧ (i = l.tcp ∨ i = l.http)) := by
    rintro ⟨hread, hl⟩
    cases d with
    | read => exact hl.elim (hlistening rfl).1 (hlistening rfl).2
    | write => exact hready.1 hread
  rw [GivesUp, if_neg haccept, if_pos hready.mem]

theorem givesUp_of_not_ready {s : LoopState} {i : Nat} {a : Answers}
    (h : i ∉ s.readFds ∧ i ∉ s.writeFds) :
    GivesUp l s i a = (i ∈ s.exceptFds ∧ i ∈ l.fds) := by
  rw [GivesUp, if_neg fun haccept => h.1 haccept.1, if_neg (not_or.mpr h)]

theorem visitFd_spares {s : LoopState} (h : (s.tables.listen l).Agree l) {i : Nat}
    {a : Answers} {v : Visited}
    (hmaster : i ∈ s.readFds ∨ i ∈ s.writeFds ∨ i ∈ s.exceptFds →
      i ∈ (s.tables.listen l).master)
    (hv : visitFd l s i a = some v) : v.Spares l s.tables i (GivesUp l s i a) := by
  cases forBody_cases hv with
  | accept p hread hlistening haccept =>
    rw [GivesUp, if_pos ⟨hread, hlistening⟩]
    exact acceptClient_spares h haccept
  | heartbeat d hready hudp hlistening =>
    rw [givesUp_of_ready hready hlistening, hudp]
    exact runHeartbeatTask_spares h d a.task
  | client d hready hudp hlistening =>
    rw [givesUp_of_ready hready hlistening]
    by_cases hl : i = l.tcp ∨ i = l.http
    · exact runClientTask_spares_listening h hl _ d a.task
    · obtain ⟨htcp, hhttp⟩ := not_or.mp hl
      apply runClientTask_spares h (hmaster (hready.mem.imp_right Or.inl))
      exact ListeningSockets.notMem_fds.mpr ⟨htcp, hudp, hhttp⟩
  | except hnone hexcept hlistening =>
    obtain ⟨e, he⟩ : ∃ e, s.tables.entries (protocolAt s.tables i) i = some e :=
      h.entry_protocolAt (hmaster (Or.inr (Or.inr hexcept))) hlistening
    rw [givesUp_of_not_ready hnone, exceptClient, he]
    exact dropClient_spares h he _ (fun hstop => absurd hstop.2 hlistening) fun _ => rfl
  | fail hnone hexcept hlistening =>
    rw [givesUp_of_not_ready hnone]
    exact spares_of_tables h _ _ (fun _ => rfl) fun hno => absurd ⟨hexcept, hlistening⟩ hno
  | skipped hnone hexcept =>
    rw [givesUp_of_not_ready hnone]
    exact spares_of_tables h _ _ (fun hstop => absurd hstop.1 hexcept) fun _ => rfl

/-! ## Runs -/

/-- The invariant of all runs: the tables agree once the listening sockets are put back, and so
does what is still to be visited in a pass. -/
structure LoopState.Tied (l : ListeningSockets) (s : LoopState) : Prop where
  agree : (s.tables.listen l).Agree l
  ready : ∀ i, s.phase = .scanning i → ∀ j, i ≤ j →
    j ∈ s.readFds ∨ j ∈ s.writeFds ∨ j ∈ s.exceptFds → j ∈ (s.tables.listen l).master

theorem tied_initial (l : ListeningSockets) : (LoopState.initial l).Tied l where
  agree := by
    rw [LoopState.initial, listen_initial]
    exact agree_initial l
  ready := by simp [LoopState.initial]

/-- Outside the `for` loop nothing is left to be visited. -/
theorem tied_of_phase {s : LoopState} (h : (s.tables.listen l).Agree l)
    (hphase : ∀ i, s.phase ≠ .scanning i) : s.Tied l :=
  ⟨h, fun i hi => absurd hi (hphase i)⟩

theorem LoopState.Tied.advance {s : LoopState} (h : s.Tied l) {i : Nat}
    (hphase : s.phase = .scanning i) {givesUp : Prop} {v : Visited}
    (hv : v.Spares l s.tables i givesUp) : (s.advance i v).Tied l := by
  by_cases hstop : givesUp
  · rw [LoopState.advance, hv.gaveUp hstop]
    exact tied_of_phase hv.agree (LoopState.endPass_ne_scanning _)
  · rw [LoopState.advance, hv.wentOn hstop]
    refine ⟨hv.agree, fun i' hi' j hj hready => ?_⟩
    obtain rfl := Phase.scanning.inj hi'
    -- the descriptors behind `i` were not touched
    apply hv.mem_master
    · exact h.ready i hphase j (by omega) hready
    · omega

theorem loopStep_tied {s s' : LoopState} {event : Event} (h : s.Tied l)
    (hstep : loopStep l s event = some s') : s'.Tied l := by
  cases loopStep_move hstep with
  | interrupt => exact ⟨h.agree, h.ready⟩
  | selected hpos hread hwrite hexcept =>
    refine ⟨h.agree, fun i hi j hj hready => Tables.mem_listen.mpr (Or.inl ?_)⟩
    rcases hready with hready | hready | hready
    · exact hread hready
    · exact hwrite hready
    · exact hexcept hready
  | failed hneg => exact tied_of_phase h.agree (by simp)
  | expired => exact tied_of_phase h.agree (LoopState.endPass_ne_scanning _)
  | visited hphase hgoesOn hv =>
    exact h.advance hphase (visitFd_spares h.agree (h.ready _ hphase _ le_rfl) hv)
  | left hphase hleave => exact tied_of_phase h.agree (LoopState.endPass_ne_scanning _)

theorem tied_of_run {events : List Event} {s : LoopState}
    (hrun : run (loopStep l) (.initial l) events = some s) : s.Tied l := by
  apply run_invariant _ (tied_initial l) hrun
  exact fun s event s' h hstep => loopStep_tied h hstep

/-! ## The cleanup -/

theorem freeClient_entries (t : Tables) (p q : Protocol) (i j : Nat) :
    (t.freeClient p i).entries q j = if q = p ∧ j = i then none else t.entries q j := by
  unfold Tables.freeClient
  cases he : t.entries p i with
  | none =>
    by_cases hj : q = p ∧ j = i
    · rw [if_pos hj, hj.1, hj.2]
      exact he
    · rw [if_neg hj]
  | some e =>
    simp only
    split
    · rfl
    · rfl

/-- A record closes its own connection. -/
theorem freeClient_opened {p : Protocol} {i : Nat}
    (hown : ∀ e, t.entries p i = some e → e.clientSockfd = i ∧ 0 < i) (j : Nat) :
    (t.freeClient p i).opened j =
      if j = i ∧ (t.entries p i).isSome then none else t.opened j := by
  unfold Tables.freeClient
  cases he : t.entries p i with
  | none => simp
  | some e =>
    obtain ⟨hfd, hpos⟩ := hown e he
    simp [hfd, hpos, Tables.setEntry, Tables.close]

/-- The first `n` records of an array are freed, each with its own connection. -/
theorem foldl_freeClient {p : Protocol}
    (hown : ∀ j e, t.entries p j = some e → e.clientSockfd = j ∧ 0 < j) (n : Nat) :
    (∀ q j, ((List.range n).foldl (fun t i => t.freeClient p i) t).entries q j =
        if q = p ∧ j < n then none else t.entries q j) ∧
      ∀ j, ((List.range n).foldl (fun t i => t.freeClient p i) t).opened j =
        if j < n ∧ (t.entries p j).isSome then none else t.opened j := by
  induction n with
  | zero => simp
  | succ n ih =>
    obtain ⟨hentries, hopened⟩ := ih
    rw [List.range_succ, List.foldl_append, List.foldl_cons, List.foldl_nil]
    generalize (List.range n).foldl (fun t i => t.freeClient p i) t = t' at hentries hopened
    have hn : t'.entries p n = t.entries p n := by rw [hentries, if_neg (by simp)]
    constructor
    · intro q j
      rw [freeClient_entries, hentries]
      grind
    · intro j
      rw [freeClient_opened (fun e he => hown n e (hn ▸ he)), hopened, hn]
      grind

/-- Behind the loop no connection is open. -/
theorem cleanup_opened (h : (t.listen l).Agree l) (j : Nat) : t.cleanup.opened j = none := by
  have hown : ∀ p j e, t.entries p j = some e → e.clientSockfd = j ∧ 0 < j := by
    intro p j e he
    obtain ⟨hfd, -, -, -, hpos⟩ := h.entry p j e he
    exact ⟨hfd, hpos⟩
  obtain ⟨hentries, hopened⟩ :=
    foldl_freeClient (t := { t with master := ∅ }) (hown .tcp) maxClients
  rw [Tables.cleanup]
  generalize ht : ({ t with master := ∅ } : Tables).freeClients .tcp = t'
  rw [Tables.freeClients] at ht
  rw [ht] at hentries hopened
  have hhttp : ∀ j, t'.entries .http j = t.entries .http j := fun j => by
    rw [hentries, if_neg (by simp)]
  have hown' : ∀ j e, t'.entries .http j = some e → e.clientSockfd = j ∧ 0 < j := by
    intro j e he
    exact hown .http j e ((hhttp j).symm.trans he)
  rw [Tables.freeClients, (foldl_freeClient hown' maxClients).2, hopened, hhttp]
  -- an open connection has a record, in one of the arrays
  cases hc : t.opened j with
  | none => simp
  | some c =>
    obtain ⟨e, he⟩ : ∃ e, t.entries c.protocol j = some e := h.opened j c hc
    have hlt := (h.entry _ j e he).2.2.2.1
    cases hp : c.protocol with
    | tcp =>
      rw [hp] at he
      simp [he, hlt]
    | http =>
      rw [hp] at he
      simp [he, hlt]

/-! ## What becomes of the others -/

/-- In every state that can be reached, the visit of a descriptor leaves the registration of every
other connection and listening socket as it was. The server keeps running unless it gives up;
then the loop ends with -1, and the cleanup closes every connection. -/
theorem visit_at_one_descriptor (l : ListeningSockets) {events : List Event} {s s' : LoopState}
    {i : Nat} {a : Answers} (hrun : run (loopStep l) (.initial l) events = some s)
    (hphase : s.phase = .scanning i) (hvisit : loopStep l s (.visit a) = some s') :
    (∀ j, j ≠ i → (j ∈ l.fds ∨ (s.tables.opened j).isSome) → SameAt s.tables s'.tables j) ∧
      (¬ GivesUp l s i a →
        s'.phase = .scanning (i + 1) ∧ s'.retVal = s.retVal ∧ s'.stop = s.stop) ∧
      (GivesUp l s i a →
        s'.phase = .finished ∧ s'.retVal = -1 ∧ ∀ j, s'.tables.cleanup.opened j = none) := by
  have htied := tied_of_run hrun
  simp only [loopStep, hphase, Option.ite_none_right_eq_some, Option.map_eq_some_iff] at hvisit
  obtain ⟨-, v, hv, rfl⟩ := hvisit
  have hspares := visitFd_spares htied.agree (htied.ready i hphase i le_rfl) hv
  refine ⟨?_, fun hno => ?_, fun hstop => ⟨?_, ?_, ?_⟩⟩
  · rw [LoopState.advance_tables]
    exact hspares.same
  · rw [LoopState.advance, hspares.wentOn hno]
    exact ⟨rfl, rfl, rfl⟩
  · rw [LoopState.advance, hspares.gaveUp hstop]
    simp [LoopState.endPass]
  · rw [LoopState.advance, hspares.gaveUp hstop]
    rfl
  · rw [LoopState.advance_tables]
    exact cleanup_opened hspares.agree

/-- A client is connected, and the TCP listening socket is about to be visited again. -/
def oneConnected : List Event :=
  .select 1 {3} ∅ ∅ ::
    List.replicate 4 (.visit ⟨some 6, 4000, true, .refused⟩) ++
    .leave :: .select 1 {3} ∅ ∅ ::
    List.replicate 3 (.visit ⟨none, 0, false, .refused⟩)

theorem run_oneConnected : ∃ s,
    run (loopStep firstSockets) (.initial firstSockets) oneConnected = some s ∧
      s.phase = .scanning 3 ∧ s.tables.opened 6 = some ⟨.tcp, 0⟩ ∧ s.goesOn 3 ∧
      s.readFds = {3} ∧ s.tables.opened 7 = none := by
  have hstate : (run (loopStep firstSockets) (.initial firstSockets) oneConnected).map
      (fun s => (s.phase, s.tables.opened 6, decide (s.goesOn 3), s.readFds,
        s.tables.opened 7)) = some (.scanning 3, some ⟨.tcp, 0⟩, true, {3}, none) := by
    decide +kernel
  obtain ⟨s, hs, hstate⟩ := Option.map_eq_some_iff.mp hstate
  simp only [Prod.mk.injEq, decide_eq_true_eq] at hstate
  exact ⟨s, hs, hstate⟩

/-- A second client connects, and the first one is not affected. -/
theorem visit_at_one_descriptor_accept : ∃ s s',
    run (loopStep firstSockets) (.initial firstSockets) oneConnected = some s ∧
      loopStep firstSockets s (.visit ⟨some 7, 4001, true, .refused⟩) = some s' ∧
      SameAt s.tables s'.tables 6 ∧ s'.phase = .scanning 4 := by
  obtain ⟨s, hs, hphase, hsix, hon, hread, hseven⟩ := run_oneConnected
  have haccept : (acceptClient firstSockets s.tables .tcp
      ⟨some 7, 4001, true, .refused⟩).isSome := by
    simp [acceptClient, enterClient, hseven, createClientData, firstSockets, ListeningSockets.fds,
      maxClients]
  obtain ⟨v, hv⟩ := Option.isSome_iff_exists.mp haccept
  have hvisit : loopStep firstSockets s (.visit ⟨some 7, 4001, true, .refused⟩) =
      some (s.advance 3 v) := by
    simp only [loopStep, hphase, if_pos hon]
    rw [visitFd, forBody, hread, if_pos (Finset.mem_singleton_self 3),
      if_pos (show 3 = firstSockets.tcp from rfl), hv]
    rfl
  obtain ⟨hsame, hgoes, -⟩ := visit_at_one_descriptor firstSockets hs hphase hvisit
  have hnot : ¬ GivesUp firstSockets s 3 ⟨some 7, 4001, true, .refused⟩ := by
    simp [GivesUp, hread, firstSockets, createClientData]
  refine ⟨s, s.advance 3 v, hs, hvisit, hsame 6 (by decide) (Or.inr (by rw [hsix]; rfl)), ?_⟩
  exact (hgoes hnot).1

/-- Where `accept` fails for a second client, the server ends and closes the first one. -/
theorem accept_failure_ends_server : ∃ s s',
    run (loopStep firstSockets) (.initial firstSockets) oneConnected = some s ∧
      (s.tables.opened 6).isSome ∧
      loopStep firstSockets s (.visit ⟨none, 0, false, .refused⟩) = some s' ∧
      s'.phase = .finished ∧ s'.tables.cleanup.opened 6 = none := by
  obtain ⟨s, hs, hphase, hsix, hon, hread, -⟩ := run_oneConnected
  obtain ⟨s', hvisit, hfinished, htables⟩ : ∃ s',
      loopStep firstSockets s (.visit ⟨none, 0, false, .refused⟩) = some s' ∧
        s'.phase = .finished ∧ s'.tables = s.tables := by
    refine ⟨s.advance 3 ⟨s.tables, [], .stop⟩, ?_, ?_, rfl⟩
    · simp only [loopStep, hphase, if_pos hon]
      rw [visitFd, forBody, hread, if_pos (Finset.mem_singleton_self 3),
        if_pos (show 3 = firstSockets.tcp from rfl)]
      rfl
    · simp [LoopState.advance, LoopState.endPass]
  refine ⟨s, s', hs, by rw [hsix]; rfl, hvisit, hfinished, ?_⟩
  rw [htables]
  exact cleanup_opened (tied_of_run hs).agree 6

end SelectServer
