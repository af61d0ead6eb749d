import SelectServer.Server.Failures
import SelectServer.Systems.Budget

/-!
# The end of `handle_connections`

`SIGINT` sets `stop`, and the loop looks at it between two rounds only. Whatever select
reports and the handlers return, the round that is under way ends after a bounded number of
steps, and at most one call of select is made behind the signal, when it came in front of one
(`loop_ends_after_interrupt`).

Behind the loop the records of both arrays are freed. That closes the connections that are
still open, each of them once, and no other descriptor (`cleanup_closes_all`).
-/

namespace SelectServer

open Systems

/-! ## The clean-up behind the loop -/

/-- The descriptors that freeing an element of an array closes. -/
def Tables.closedBy (t : Tables) (p : Protocol) (i : Nat) : List Nat :=
  match t.entries p i with
  | none => []
  | some entry => if 0 < entry.clientSockfd then [entry.clientSockfd] else []

/-- `free_clients_tcp_data` and `free_clients_http_data`, with the descriptors that they
close (`closeClients_snd`). -/
def Tables.closeClients (t : Tables) (p : Protocol) : Nat → List Nat × Tables
  | 0 => ([], t)
  | len + 1 =>
    let r := t.closeClients p len
    (r.1 ++ r.2.closedBy p len, r.2.freeClient p len)

/-- `Tables.cleanup` with the descriptors that it closes (`tracedCleanup_snd`). -/
def Tables.tracedCleanup (t : Tables) : List Nat × Tables :=
  let simple := ({ t with master := ∅ } : Tables).closeClients .tcp maxClients
  let http := simple.2.closeClients .http maxClients
  (simple.1 ++ http.1, http.2)

section CleanUp

variable {t : Tables} {p q : Protocol}

theorem Tables.closeClients_snd (t : Tables) (p : Protocol) (len : Nat) :
    (t.closeClients p len).2 = (List.range len).foldl (fun t i => t.freeClient p i) t := by
  induction len with
  | zero => rfl
  | succ len ih => simp [Tables.closeClients, ih, List.range_succ]

theorem Tables.tracedCleanup_snd (t : Tables) : t.tracedCleanup.2 = t.cleanup := by
  simp only [Tables.tracedCleanup, Tables.closeClients_snd]
  rfl

/-- Each record of an array is the one of its own descriptor. -/
def Tables.OwnEntries (t : Tables) (p : Protocol) : Prop :=
  ∀ i e, t.entries p i = some e → e.clientSockfd = i ∧ 0 < i

/-- The tables without the records of an array below `len`, and without their connections. -/
def Tables.without (t : Tables) (p : Protocol) (len : Nat) : Tables :=
  { t with
    entries := fun q j => if q = p ∧ j < len then none else t.entries q j
    opened := fun j => if j < len ∧ (t.entries p j).isSome then none else t.opened j }

theorem Tables.without_entries (t : Tables) (p : Protocol) (len : Nat) (q : Protocol) (j : Nat) :
    (t.without p len).entries q j = if q = p ∧ j < len then none else t.entries q j := rfl

theorem Tables.without_opened (t : Tables) (p : Protocol) (len : Nat) (j : Nat) :
    (t.without p len).opened j =
      if j < len ∧ (t.entries p j).isSome then none else t.opened j := rfl

theorem Tables.OwnEntries.without (h : t.OwnEntries q) (len : Nat) :
    (t.without p len).OwnEntries q := by
  intro i e he
  rw [Tables.without_entries, Option.ite_none_left_eq_some] at he
  exact h i e he.2

theorem Tables.freeClient_without (h : t.OwnEntries p) (len : Nat) :
    (t.without p len).freeClient p len = t.without p (len + 1) := by
  have hentry : (t.without p len).entries p len = t.entries p len := by
    rw [Tables.without_entries, if_neg (by omega)]
  cases he : t.entries p len with
  | none =>
    rw [Tables.freeClient, hentry, he]
    simp only [Tables.without, Tables.mk.injEq, true_and, and_true]
    refine ⟨?_, ?_⟩
    · funext q j
      grind
    · funext j
      grind
  | some e =>
    obtain ⟨hfd, hpos⟩ := h len e he
    have hfreed : (t.without p len).freeClient p len =
        ((t.without p len).close len).setEntry p len none := by
      rw [Tables.freeClient, hentry, he]
      simp only [hfd, if_pos hpos]
    rw [hfreed]
    simp only [Tables.without, Tables.close, Tables.setEntry, Tables.mk.injEq, true_and,
      and_true]
    refine ⟨?_, ?_⟩
    · funext q j
      grind
    · funext j
      grind

/-- After `len` elements the records of these are gone and their connections closed. -/
theorem Tables.closeClients_eq (h : t.OwnEntries p) (len : Nat) :
    t.closeClients p len =
      ((List.range len).filter fun j => (t.entries p j).isSome, t.without p len) := by
  induction len with
  | zero => simp [Tables.closeClients, Tables.without]
  | succ len ih =>
    have hentry : (t.without p len).entries p len = t.entries p len := by
      rw [Tables.without_entries, if_neg (by omega)]
    rw [Tables.closeClients, ih, Tables.freeClient_without h, List.range_succ, List.filter_append]
    refine Prod.ext ?_ rfl
    cases he : t.entries p len with
    | none => simp [Tables.closedBy, hentry, he]
    | some e =>
      obtain ⟨hfd, hpos⟩ := h len e he
      simp [Tables.closedBy, hentry, he, hfd, hpos]

theorem Tables.tracedCleanup_eq (hsimple : t.OwnEntries .tcp) (hhttp : t.OwnEntries .http) :
    t.tracedCleanup =
      (((List.range maxClients).filter fun j => (t.entries .tcp j).isSome) ++
        (List.range maxClients).filter fun j => (t.entries .http j).isSome,
        (({ t with master := ∅ } : Tables).without .tcp maxClients).without .http maxClients) := by
  have htcp : ({ t with master := ∅ } : Tables).OwnEntries .tcp := hsimple
  have hrest : ({ t with master := ∅ } : Tables).OwnEntries .http := hhttp
  rw [Tables.tracedCleanup]
  simp only [Tables.closeClients_eq htcp, Tables.closeClients_eq (hrest.without maxClients)]
  simp [Tables.without_entries]

end CleanUp

variable {l : ListeningSockets} {t : Tables}

/-- What the clean-up leaves: no connection, and no record; what it closes was open, and
nothing is closed twice. -/
structure Tables.CleanedUp (t : Tables) : Prop where
  closes : ∀ fd, fd ∈ t.tracedCleanup.1 ↔ (t.opened fd).isSome = true
  once : t.tracedCleanup.1.Nodup
  opened : ∀ fd, t.cleanup.opened fd = none
  entries : ∀ p fd, t.cleanup.entries p fd = none

theorem Tables.Agree.ownEntries (h : t.Agree l) (p : Protocol) : t.OwnEntries p := by
  intro i e he
  obtain ⟨hfd, -, -, -, hpos⟩ := h.entry p i e he
  exact ⟨hfd, hpos⟩

/-- An open descriptor has a record in one of the arrays. -/
theorem Tables.Agree.opened_isSome_iff (h : t.Agree l) (fd : Nat) :
    (t.opened fd).isSome = true ↔ fd < maxClients ∧
      ((t.entries .tcp fd).isSome = true ∨ (t.entries .http fd).isSome = true) := by
  simp only [Option.isSome_iff_exists]
  constructor
  · rintro ⟨c, hc⟩
    obtain ⟨e, he⟩ := h.opened fd c hc
    refine ⟨(h.entry _ fd e he).2.2.2.1, ?_⟩
    cases hp : c.protocol with
    | tcp => exact Or.inl ⟨e, hp ▸ he⟩
    | http => exact Or.inr ⟨e, hp ▸ he⟩
  · rintro ⟨-, ⟨e, he⟩ | ⟨e, he⟩⟩
    · exact ⟨_, (h.entry _ fd e he).2.1⟩
    · exact ⟨_, (h.entry _ fd e he).2.1⟩

/-- No descriptor has a record in both arrays. -/
theorem Tables.Agree.not_both (h : t.Agree l) (fd : Nat) :
    ¬ ((t.entries .tcp fd).isSome = true ∧ (t.entries .http fd).isSome = true) := by
  rintro ⟨htcp, hhttp⟩
  obtain ⟨e, he⟩ := Option.isSome_iff_exists.mp htcp
  obtain ⟨e', he'⟩ := Option.isSome_iff_exists.mp hhttp
  exact absurd (h.protocol_eq he he') (by decide)

theorem Tables.Agree.cleanedUp (h : t.Agree l) : t.CleanedUp := by
  have heq := Tables.tracedCleanup_eq (h.ownEntries .tcp) (h.ownEntries .http)
  have hlt : ∀ p fd e, t.entries p fd = some e → fd < maxClients :=
    fun p fd e he => (h.entry p fd e he).2.2.2.1
  have hopened := h.opened_isSome_iff
  have hboth := h.not_both
  unfold maxClients at *
  generalize (1024 : Nat) = n at *
  refine ⟨fun fd => ?_, ?_, fun fd => ?_, fun p fd => ?_⟩
  · rw [heq, hopened]
    simp only [List.mem_append, List.mem_filter, List.mem_range]
    tauto
  · rw [heq]
    refine List.Nodup.append (List.nodup_range.filter _) (List.nodup_range.filter _) ?_
    intro fd hsimple hhttp
    exact hboth fd ⟨(List.mem_filter.mp hsimple).2, (List.mem_filter.mp hhttp).2⟩
  · have hnone := hopened fd
    rw [← Tables.tracedCleanup_snd, heq]
    simp only [Tables.without_opened, Tables.without_entries]
    cases hc : t.opened fd with
    | none => simp
    | some c =>
      rw [hc] at hnone
      obtain ⟨hn, hentry⟩ := hnone.mp rfl
      rcases hentry with hsimple | hhttp
      · simp [hn, hsimple]
      · simp [hn, hhttp]
  · rw [← Tables.tracedCleanup_snd, heq]
    simp only [Tables.without_entries]
    cases he : t.entries p fd with
    | none => simp
    | some e =>
      have hn := hlt p fd e he
      cases p <;> simp [hn]

/-- When the loop has ended, the clean-up closes every connection that is still open, each of
them once, and nothing else. -/
theorem cleanup_closes_all (l : ListeningSockets) {events : List Event} {s : LoopState}
    (hevents : ∀ event ∈ events, SelectsListening l event)
    (hrun : run (loopStep l) (.initial l) events = some s) : s.tables.CleanedUp := by
  have hmeets : Meets (loopStep l) (fun _ => SelectsListening l) (.initial l) events :=
    meets_of_forall_mem fun _ => hevents
  have hinv : s.Inv l := by
    apply run_invariant_of_meets _ (inv_initial l) hmeets hrun
    exact fun s event s' h hcond hstep => loopStep_inv h hcond hstep
  exact hinv.agree.cleanedUp

/-! ## The loop behind a signal -/

/-- `max_fd` is an index of the arrays, and the descriptor of a pass is not far behind it. -/
structure LoopState.Bounded (s : LoopState) : Prop where
  maxFd_lt : s.tables.maxFd < maxClients
  scanning_le : ∀ i, s.phase = .scanning i → i ≤ s.tables.maxFd + 1

/-- The steps that the loop can make before it looks at `stop`; in front of select, it makes
that call first. -/
def LoopState.stepsLeft (s : LoopState) : Nat :=
  match s.phase with
  | .selecting => maxClients + 2
  | .scanning i => maxClients + 1 - i
  | .finished => 0
  | .fault => 0

/-- The calls of select that the loop can make before it looks at `stop`. -/
def LoopState.selectsLeft (s : LoopState) : Nat := if s.phase = .selecting then 1 else 0

/-- A call of select. -/
def Event.isSelect : Event → Bool
  | .select .. => true
  | _ => false

/-- A step of the loop itself. -/
def Event.isStep : Event → Bool
  | .interrupt => false
  | _ => true

variable {s s' : LoopState} {event : Event}

/-- `max_fd` only grows, and stays below `MAX_CLIENTS`. -/
theorem visitFd_maxFd {i : Nat} {a : Answers} {v : Visited} (h : visitFd l s i a = some v)
    (hlt : s.tables.maxFd < maxClients) :
    s.tables.maxFd ≤ v.tables.maxFd ∧ v.tables.maxFd < maxClients := by
  have hkept : v.tables.maxFd = s.tables.maxFd →
      s.tables.maxFd ≤ v.tables.maxFd ∧ v.tables.maxFd < maxClients := by
    intro heq
    omega
  cases forBody_cases h with
  | accept p _ _ haccept =>
    rcases acceptClient_cases haccept with
      ⟨-, rfl⟩ | ⟨fd, -, ⟨hfd, -, -⟩, ⟨-, rfl⟩ | ⟨e, -, rfl⟩⟩
    · exact hkept rfl
    · simp only [Tables.register, Tables.setEntry, Tables.fdClr, Tables.close]
      split <;> omega
    · simp only [Tables.register, Tables.setEntry]
      split <;> omega
  | heartbeat d =>
    apply hkept
    unfold runHeartbeatTask
    split <;> rfl
  | client d =>
    apply hkept
    unfold runClientTask
    split
    · simp
    · dsimp only
      split
      · rfl
      · split <;> simp
  | except =>
    apply hkept
    unfold exceptClient
    split <;> simp
  | fail => exact hkept rfl
  | skipped => exact hkept rfl

/-- A visit goes on to the next descriptor, or ends the round. -/
theorem LoopState.phase_advance (s : LoopState) (i : Nat) (v : Visited) :
    (s.advance i v).phase = .scanning (i + 1) ∨ (s.advance i v).phase = .finished ∨
      (s.advance i v).phase = .fault := by
  unfold LoopState.advance
  cases v.exit with
  | next => exact Or.inl rfl
  | stop => exact Or.inr (Or.inl (by simp [LoopState.endPass]))
  | fault => exact Or.inr (Or.inr rfl)

theorem loopStep_bounded (h : s.Bounded) (hstep : loopStep l s event = some s') :
    s'.Bounded := by
  have hend : s.endPass.Bounded := by
    refine ⟨h.maxFd_lt, fun i hi => ?_⟩
    exact absurd hi (s.endPass_ne_scanning i)
  cases loopStep_move hstep with
  | interrupt => exact ⟨h.maxFd_lt, h.scanning_le⟩
  | selected =>
    refine ⟨h.maxFd_lt, fun i hi => ?_⟩
    obtain rfl := Phase.scanning.inj hi
    exact Nat.zero_le _
  | failed => exact ⟨h.maxFd_lt, fun i hi => by cases hi⟩
  | expired => exact hend
  | visited hphase hgoesOn hv =>
    obtain ⟨hle, hlt⟩ := visitFd_maxFd hv h.maxFd_lt
    refine ⟨by simpa using hlt, fun j hj => ?_⟩
    rw [LoopState.advance_tables]
    rcases s.phase_advance _ _ with hnext | hfinished | hfault
    · rw [hnext] at hj
      obtain rfl := Phase.scanning.inj hj
      have := hgoesOn.1
      omega
    · rw [hfinished] at hj
      cases hj
    · rw [hfault] at hj
      cases hj
  | left => exact hend

theorem LoopState.endPass_of_stop (h : s.stop = true) :
    s.endPass.phase = .finished ∧ s.endPass.stop = true := by
  simp [LoopState.endPass, h]

theorem LoopState.advance_of_stop (h : s.stop = true) (i : Nat) (v : Visited) :
    (s.advance i v).stop = true := by
  unfold LoopState.advance
  cases v.exit with
  | next => exact h
  | stop => simp [LoopState.endPass]
  | fault => exact h

theorem selecting_of_select {ret : Int} {readFds writeFds exceptFds : Finset Nat}
    (h : loopStep l s (.select ret readFds writeFds exceptFds) = some s') :
    s.phase = .selecting := by
  by_contra hne
  simp [loopStep, hne] at h

/-- Behind the signal every step of the loop uses up one of those that are left. -/
theorem loopStep_stepsLeft (h : s.Bounded) (hstop : s.stop = true)
    (hstep : loopStep l s event = some s') :
    s'.stop = true ∧ s'.stepsLeft + (if event.isStep then 1 else 0) ≤ s.stepsLeft ∧
      s'.selectsLeft + (if event.isSelect then 1 else 0) ≤ s.selectsLeft := by
  obtain ⟨hfinished, hstopped⟩ := LoopState.endPass_of_stop hstop
  cases loopStep_move hstep with
  | interrupt => exact ⟨rfl, le_rfl, le_rfl⟩
  | selected =>
    have hphase := selecting_of_select hstep
    refine ⟨hstop, ?_, ?_⟩
    · simp [LoopState.stepsLeft, hphase, Event.isStep]
    · simp [LoopState.selectsLeft, hphase, Event.isSelect]
  | failed =>
    have hphase := selecting_of_select hstep
    refine ⟨hstop, ?_, ?_⟩
    · simp [LoopState.stepsLeft, hphase, Event.isStep]
    · simp [LoopState.selectsLeft, hphase, Event.isSelect]
  | expired =>
    have hphase := selecting_of_select hstep
    refine ⟨hstopped, ?_, ?_⟩
    · simp [LoopState.stepsLeft, hphase, hfinished, Event.isStep]
    · simp [LoopState.selectsLeft, hphase, hfinished, Event.isSelect]
  | @visited answers i v hphase hgoesOn hv =>
    have hlt := h.maxFd_lt
    have hle := hgoesOn.1
    refine ⟨LoopState.advance_of_stop hstop i v, ?_, ?_⟩
    · -- the next descriptor, or the end of the pass or of the loop
      rcases s.phase_advance i v with hnext | hend | hend
      · simp only [LoopState.stepsLeft, hphase, hnext, Event.isStep, if_true]
        omega
      · simp only [LoopState.stepsLeft, hphase, hend, Event.isStep, if_true]
        omega
      · simp only [LoopState.stepsLeft, hphase, hend, Event.isStep, if_true]
        omega
    · rcases s.phase_advance i v with hnext | hend | hend
      · simp [LoopState.selectsLeft, hphase, hnext, Event.isSelect]
      · simp [LoopState.selectsLeft, hphase, hend, Event.isSelect]
      · simp [LoopState.selectsLeft, hphase, hend, Event.isSelect]
  | @left i hphase hleave =>
    have hlt := h.maxFd_lt
    have hle := h.scanning_le i hphase
    refine ⟨hstopped, ?_, ?_⟩
    · simp only [LoopState.stepsLeft, hphase, hfinished, Event.isStep, if_true]
      omega
    · simp [LoopState.selectsLeft, hphase, hfinished, Event.isSelect]

/-- The loop is never stuck: select can be answered, a descriptor can be visited, whatever is
there, and a round can be left. -/
theorem exists_loopStep (l : ListeningSockets) (s : LoopState) :
    s.phase = .finished ∨ s.phase = .fault ∨
      ∃ event s', event.isStep = true ∧ loopStep l s event = some s' := by
  cases hphase : s.phase with
  | selecting =>
    refine Or.inr (Or.inr ⟨.select 0 ∅ ∅ ∅, s.endPass, rfl, ?_⟩)
    simp [loopStep, hphase]
  | scanning i =>
    refine Or.inr (Or.inr ?_)
    by_cases hgoesOn : s.goesOn i
    · -- accept may fail, and a task may be refused
      have hvisit : ∃ v, visitFd l s i ⟨none, 0, false, .refused⟩ = some v := by
        simp only [visitFd, forBody, acceptClient]
        split
        · split
          · exact ⟨_, rfl⟩
          split
          · exact ⟨_, rfl⟩
          split <;> exact ⟨_, rfl⟩
        split
        · split <;> exact ⟨_, rfl⟩
        split
        · split <;> exact ⟨_, rfl⟩
        · exact ⟨_, rfl⟩
      obtain ⟨v, hv⟩ := hvisit
      refine ⟨.visit ⟨none, 0, false, .refused⟩, s.advance i v, rfl, ?_⟩
      simp [loopStep, hphase, hgoesOn, hv]
    · refine ⟨.leave, s.endPass, rfl, ?_⟩
      simp [loopStep, hphase, hgoesOn]
  | finished => exact Or.inl rfl
  | fault => exact Or.inr (Or.inl rfl)

/-- Behind `SIGINT` the loop makes a bounded number of steps and at most one call of select,
and it can go on until it has ended. -/
theorem loop_ends_after_interrupt (l : ListeningSockets) (hfits : ∀ fd ∈ l.fds, fd < maxClients)
    {before after : List Event} {s s' : LoopState}
    (hevents : ∀ event ∈ before ++ after, SelectsListening l event)
    (hrun : run (loopStep l) (.initial l) before = some s) (hstop : s.stop = true)
    (hrun' : run (loopStep l) s after = some s') :
    after.countP Event.isStep ≤ maxClients + 2 ∧ after.countP Event.isSelect ≤ 1 ∧
      (s'.phase = .finished ∨
        ∃ event s'', event.isStep = true ∧ loopStep l s' event = some s'') := by
  -- the listening sockets are in bounds
  have hinit : (LoopState.initial l).Bounded := by
    refine ⟨?_, fun i hi => by cases hi⟩
    have htcp := hfits l.tcp (by simp [ListeningSockets.fds])
    have hudp := hfits l.udp (by simp [ListeningSockets.fds])
    have hhttp := hfits l.http (by simp [ListeningSockets.fds])
    simp only [LoopState.initial, Tables.initial]
    omega
  have hbounded : s.Bounded := run_invariant (fun _ _ _ => loopStep_bounded) hinit hrun
  -- each step takes one from the budget
  have hsteps := countP_le_budget (P := fun s => s.Bounded ∧ s.stop = true)
    LoopState.stepsLeft Event.isStep (fun s event s' h hstep => by
      obtain ⟨hstop, hsteps, -⟩ := loopStep_stepsLeft h.1 h.2 hstep
      exact ⟨⟨loopStep_bounded h.1 hstep, hstop⟩, hsteps⟩) ⟨hbounded, hstop⟩ hrun'
  have hselects := countP_le_budget (P := fun s => s.Bounded ∧ s.stop = true)
    LoopState.selectsLeft Event.isSelect (fun s event s' h hstep => by
      obtain ⟨hstop, -, hselects⟩ := loopStep_stepsLeft h.1 h.2 hstep
      exact ⟨⟨loopStep_bounded h.1 hstep, hstop⟩, hselects⟩) ⟨hbounded, hstop⟩ hrun'
  -- the whole run, from the beginning, stays defined
  have hdefined : s'.phase ≠ .fault := by
    have hmeets : Meets (loopStep l) (fun _ => SelectsListening l) (.initial l)
        (before ++ after) := meets_of_forall_mem fun _ => hevents
    have hwhole : run (loopStep l) (.initial l) (before ++ after) = some s' := by
      rw [run_append, hrun]
      exact hrun'
    have hinv : s'.Inv l := by
      apply run_invariant_of_meets _ (inv_initial l) hmeets hwhole
      exact fun s event s' h hcond hstep => loopStep_inv h hcond hstep
    exact hinv.defined
  refine ⟨?_, ?_, ?_⟩
  · have hle : s.stepsLeft ≤ maxClients + 2 := by
      unfold LoopState.stepsLeft
      split <;> omega
    omega
  · have hle : s.selectsLeft ≤ 1 := by
      unfold LoopState.selectsLeft
      split <;> omega
    omega
  · rcases exists_loopStep l s' with hfinished | hfault | hnext
    · exact Or.inl hfinished
    · exact absurd hfault hdefined
    · exact Or.inr hnext

/-- A client is accepted, and the signal comes before the round is over. -/
def acceptedThenSignal : List Event :=
  .select 2 {3, 5} ∅ ∅ :: List.replicate 4 (.visit ⟨some 6, 4000, true, .refused⟩) ++ [.interrupt]

/-- The rest of the round: another client is accepted. -/
def restOfRound : List Event :=
  [.visit ⟨none, 0, false, .refused⟩, .visit ⟨some 7, 4001, true, .refused⟩, .leave]

theorem loop_ends_after_interrupt_restOfRound :
    ∃ s s', run (loopStep firstSockets) (.initial firstSockets) acceptedThenSignal = some s ∧
      run (loopStep firstSockets) s restOfRound = some s' ∧ s'.phase = .finished ∧
      restOfRound.countP Event.isStep ≤ maxClients + 2 := by
  have hstop : (run (loopStep firstSockets) (.initial firstSockets) acceptedThenSignal).map
      LoopState.stop = some true := by decide +kernel
  obtain ⟨s, hs, hstop⟩ := Option.map_eq_some_iff.mp hstop
  have hphase : (run (loopStep firstSockets) (.initial firstSockets)
      (acceptedThenSignal ++ restOfRound)).map LoopState.phase = some .finished := by
    decide +kernel
  rw [run_append, hs, Option.bind_some] at hphase
  obtain ⟨s', hs', hphase⟩ := Option.map_eq_some_iff.mp hphase
  refine ⟨s, s', hs, hs', hphase, ?_⟩
  refine (loop_ends_after_interrupt firstSockets (by decide) ?_ hs hstop hs').1
  simp [acceptedThenSignal, restOfRound, SelectsListening]

theorem cleanup_closes_all_restOfRound :
    ∃ s, run (loopStep firstSockets) (.initial firstSockets)
        (acceptedThenSignal ++ restOfRound) = some s ∧
      s.tables.opened 6 = some ⟨.tcp, 0⟩ ∧ s.tables.opened 7 = some ⟨.http, 1⟩ ∧
      s.tables.CleanedUp := by
  have hopened : (run (loopStep firstSockets) (.initial firstSockets)
      (acceptedThenSignal ++ restOfRound)).map (fun s => (s.tables.opened 6, s.tables.opened 7)) =
        some (some ⟨.tcp, 0⟩, some ⟨.http, 1⟩) := by decide +kernel
  obtain ⟨s, hs, hopened⟩ := Option.map_eq_some_iff.mp hopened
  obtain ⟨hsimple, hhttp⟩ := Prod.mk.inj hopened
  refine ⟨s, hs, hsimple, hhttp, cleanup_closes_all firstSockets ?_ hs⟩
  simp [acceptedThenSignal, restOfRound, SelectsListening]

end SelectServer
