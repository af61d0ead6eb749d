import Mathlib.Data.Finset.Card
import SelectServer.Server.Descriptors

/-!
# A pass over the ready descriptors

The `for` loop of `handle_connections` ends where `select_ret` has come down to 0. Select counts
bits, and the loop counts descriptors, which can be ready in more than one set; so at every
descriptor `select_ret` is at least the number of ready descriptors still to be visited
(`LoopState.Covers`), and none is left when the loop ends. What is accepted and closed on
the way changes `master` and `max_fd`, but not the copies that the pass goes over, and `max_fd`
never becomes smaller.
-/

namespace SelectServer

open Systems

variable {l : ListeningSockets} {t : Tables} {s s' : LoopState} {log : DescriptorLog} {i : Nat}

/-! ## Ready descriptors -/

/-- The descriptors in the sets of select. -/
def LoopState.ready (s : LoopState) : Finset Nat := s.readFds ∪ s.writeFds ∪ s.exceptFds

/-- How a descriptor of the sets of select is to be handled. -/
def LoopState.kind (s : LoopState) (i : Nat) : Option Handling :=
  readyAs s.readFds s.writeFds s.exceptFds i

theorem LoopState.mem_ready :
    i ∈ s.ready ↔ i ∈ s.readFds ∨ i ∈ s.writeFds ∨ i ∈ s.exceptFds := by
  simp [LoopState.ready]

theorem LoopState.kind_eq_none_iff : s.kind i = none ↔ i ∉ s.ready := by
  rw [LoopState.mem_ready, LoopState.kind, readyAs]
  split_ifs <;> simp_all

/-- The ready descriptors that a pass has still to visit. -/
def LoopState.left (s : LoopState) (i : Nat) : Finset Nat := s.ready.filter (i ≤ ·)

theorem LoopState.left_zero (s : LoopState) : s.left 0 = s.ready :=
  Finset.filter_true_of_mem fun _ _ => Nat.zero_le _

/-- The descriptor visited leaves the others. -/
theorem LoopState.left_erase (s : LoopState) (i : Nat) : (s.left i).erase i = s.left (i + 1) := by
  ext j
  simp only [LoopState.left, Finset.mem_erase, Finset.mem_filter]
  constructor
  · rintro ⟨hne, hj, hle⟩
    exact ⟨hj, by omega⟩
  · rintro ⟨hj, hle⟩
    exact ⟨by omega, hj, by omega⟩

theorem LoopState.card_left (s : LoopState) (i : Nat) :
    (s.left i).card = (if i ∈ s.ready then 1 else 0) + (s.left (i + 1)).card := by
  have hmem : i ∈ s.left i ↔ i ∈ s.ready := by simp [LoopState.left]
  rw [← s.left_erase i]
  split
  next hi =>
    rw [Finset.card_erase_of_mem (hmem.mpr hi)]
    have : 0 < (s.left i).card := Finset.card_pos.mpr ⟨i, hmem.mpr hi⟩
    omega
  next hi => rw [Finset.erase_eq_of_notMem (fun h => hi (hmem.mp h)), Nat.zero_add]

/-- A descriptor that is ready in more than one set is counted once. -/
theorem card_ready_le (readFds writeFds exceptFds : Finset Nat) :
    (readFds ∪ writeFds ∪ exceptFds).card ≤ readFds.card + writeFds.card + exceptFds.card := by
  calc (readFds ∪ writeFds ∪ exceptFds).card
      ≤ (readFds ∪ writeFds).card + exceptFds.card := Finset.card_union_le _ _
    _ ≤ readFds.card + writeFds.card + exceptFds.card := by
      have := Finset.card_union_le readFds writeFds
      omega

/-! ## What the loop keeps -/

/-- The loop is at a descriptor, all ready descriptors are up to `max_fd`, and `select_ret`
covers those still to be visited. -/
structure LoopState.Covers (s : LoopState) (i : Nat) : Prop where
  phase : s.phase = .scanning i
  le_maxFd : ∀ j ∈ s.ready, j ≤ s.tables.maxFd
  selectRet : (s.left i).card ≤ s.selectRet

/-- The `for` loop is not running. -/
def LoopState.Outside (s : LoopState) : Prop := ∀ i, s.phase ≠ .scanning i

/-- Where the condition of the `for` loop fails, every ready descriptor was visited. -/
theorem LoopState.Covers.left_eq_empty (h : s.Covers i) (hleave : ¬ s.goesOn i) :
    s.left i = ∅ := by
  by_contra hne
  obtain ⟨j, hj⟩ := Finset.nonempty_iff_ne_empty.mpr hne
  have hpos : 0 < (s.left i).card := Finset.card_pos.mpr ⟨j, hj⟩
  obtain ⟨hready, hle⟩ := Finset.mem_filter.mp hj
  apply hleave
  refine ⟨hle.trans (h.le_maxFd j hready), ?_⟩
  have := h.selectRet
  omega

theorem maxFd_le_acceptConnection {p : Protocol} {a : Answers} {v : Visited}
    (h : acceptConnection l t p a = some (log, v)) : t.maxFd ≤ v.tables.maxFd := by
  rcases acceptConnection_cases h with ⟨-, rfl⟩ | ⟨newFd, _, -, -, -, -, hmax, -⟩
  · exact le_rfl
  · rw [hmax]
    split <;> omega

/-- No branch makes `max_fd` smaller. -/
theorem Branch.maxFd_le {a : Answers} {kind : Handling} {v : Visited}
    (h : Branch l t i a kind log v) :
    t.maxFd ≤ v.tables.maxFd := by
  cases h with
  | accept p h => exact maxFd_le_acceptConnection h
  | heartbeat direction => cases a.task <;> exact le_rfl
  | client direction =>
    cases a.task with
    | refused => simp [runClientTask]
    | done result =>
      simp only [runClientTask]
      split
      · exact le_rfl
      split
      · simp
      · exact le_rfl
  | except =>
    simp only [exceptClient]
    split
    · exact le_rfl
    · simp
  | fail => exact le_rfl

/-- A visit handles its descriptor if it is ready, and as it is ready. -/
theorem visitDescriptor_handled {a : Answers} {v : Visited}
    (h : visitDescriptor l s i a = some (log, v)) :
    log.handled = (s.kind i).map (i, ·) ∧ s.tables.maxFd ≤ v.tables.maxFd := by
  rcases visitDescriptor_branch h with ⟨kind, log', hkind, hbranch, rfl⟩ | ⟨hkind, rfl, rfl⟩
  · rw [LoopState.kind, hkind]
    exact ⟨rfl, hbranch.maxFd_le⟩
  · rw [LoopState.kind, hkind]
    exact ⟨rfl, le_rfl⟩

/-- The body of the loop goes over copies, and counts a descriptor that is ready. -/
theorem LoopState.advance_sets (s : LoopState) (i : Nat) (v : Visited) :
    (s.advance i v).readFds = s.readFds ∧ (s.advance i v).writeFds = s.writeFds ∧
      (s.advance i v).exceptFds = s.exceptFds ∧
      (s.advance i v).selectRet = s.selectRet - if i ∈ s.ready then 1 else 0 := by
  have hret : (if i ∈ s.readFds ∨ i ∈ s.writeFds ∨ i ∈ s.exceptFds then s.selectRet - 1
      else s.selectRet) = s.selectRet - if i ∈ s.ready then 1 else 0 := by
    by_cases hi : i ∈ s.ready
    · rw [if_pos hi, if_pos (LoopState.mem_ready.mp hi)]
    · rw [if_neg hi, if_neg fun h => hi (LoopState.mem_ready.mpr h), Int.sub_zero]
  cases hexit : v.exit with
  | next =>
    simp only [LoopState.advance, hexit]
    exact ⟨trivial, trivial, trivial, hret⟩
  | stop =>
    simp only [LoopState.advance, hexit, LoopState.endPass]
    exact ⟨trivial, trivial, trivial, hret⟩
  | fault =>
    simp only [LoopState.advance, hexit]
    exact ⟨trivial, trivial, trivial, hret⟩

/-- A visit goes on with the next descriptor or breaks. -/
theorem LoopState.advance_phase (s : LoopState) (i : Nat) (v : Visited) :
    (s.advance i v).phase = .scanning (i + 1) ∨ (s.advance i v).Outside := by
  cases hexit : v.exit with
  | next => exact Or.inl (by simp only [LoopState.advance, hexit])
  | stop => exact Or.inr fun j => by simp [LoopState.advance, hexit, LoopState.endPass]
  | fault => exact Or.inr fun j => by simp [LoopState.advance, hexit]

/-- A visit leaves `select_ret` covering what is behind it, if the pass goes on. -/
theorem LoopState.Covers.advance (h : s.Covers i) {v : Visited}
    (hmax : s.tables.maxFd ≤ v.tables.maxFd)
    (hphase : (s.advance i v).phase = .scanning (i + 1)) :
    (s.advance i v).Covers (i + 1) ∧ (s.advance i v).kind = s.kind := by
  obtain ⟨hread, hwrite, hexcept, hret⟩ := s.advance_sets i v
  have hready : (s.advance i v).ready = s.ready := by
    rw [LoopState.ready, hread, hwrite, hexcept, LoopState.ready]
  have hkind : (s.advance i v).kind = s.kind := by
    funext j
    rw [LoopState.kind, hread, hwrite, hexcept, LoopState.kind]
  refine ⟨⟨hphase, fun j hj => ?_, ?_⟩, hkind⟩
  · rw [hready] at hj
    rw [LoopState.advance_tables]
    exact (h.le_maxFd j hj).trans hmax
  · -- a ready descriptor leaves the set and is counted, another one neither
    have hcard := s.card_left i
    have hcovers := h.selectRet
    rw [hret, LoopState.left, hready]
    change ((s.left (i + 1)).card : Int) ≤ _
    split at hcard
    next hi =>
      rw [if_pos hi]
      omega
    next hi =>
      rw [if_neg hi]
      omega

/-- What can happen from select to the end of the `for` loop. -/
def Event.InPass : Event → Prop
  | .visit _ => True
  | .interrupt => True
  | .select _ _ _ _ => False
  | .leave => False

/-- One step inside a pass: an interrupt changes nothing of it, and a visit handles the next
descriptor and goes on or breaks. -/
theorem connectionStep_covers {event : Event} (h : s.Covers i) (hevent : event.InPass)
    (hstep : connectionStep l s event = some (log, s')) :
    (log.handled = none ∧ s'.Covers i ∧ s'.kind = s.kind) ∨
    (log.handled = (s.kind i).map (i, ·) ∧
      ((s'.Covers (i + 1) ∧ s'.kind = s.kind) ∨ s'.Outside)) := by
  rcases connectionStep_cases hstep with
    ⟨i', answers, v, rfl, hphase, -, hv, rfl⟩ | ⟨hother, hloop, hlog⟩
  · obtain rfl := Phase.scanning.inj (h.phase.symm.trans hphase)
    obtain ⟨hhandled, hmax⟩ := visitDescriptor_handled hv
    refine Or.inr ⟨hhandled, ?_⟩
    rcases s.advance_phase i v with hnext | hout
    · exact Or.inl (h.advance hmax hnext)
    · exact Or.inr hout
  · have hidle : log.handled = none := by
      rcases hlog with rfl | rfl
      · rfl
      · rfl
    cases event with
    | visit answers => exact absurd rfl (hother answers)
    | interrupt =>
      obtain rfl := Option.some.inj hloop
      exact Or.inl ⟨hidle, ⟨h.phase, h.le_maxFd, h.selectRet⟩, rfl⟩
    | select ret readFds writeFds exceptFds => exact hevent.elim
    | leave => exact hevent.elim

/-! ## Passes -/

/-- What the steps of a pass handle, in their order. -/
def handledIn (logs : List DescriptorLog) : List (Nat × Handling) :=
  logs.filterMap DescriptorLog.handled

/-- Behind a break a pass has no end of its own. -/
theorem faultTrace_of_outside (h : s.Outside) {pass : List Event}
    (hpass : ∀ event ∈ pass, event.InPass) :
    faultTrace (connectionStep l) s (pass ++ [.leave]) = none := by
  induction pass generalizing s with
  | nil =>
    cases hphase : s.phase with
    | scanning i => exact absurd hphase (h i)
    | _ => simp [faultTrace, connectionStep, loopStep, hphase]
  | cons event pass ih =>
    obtain ⟨hevent, hrest⟩ := List.forall_mem_cons.mp hpass
    cases event with
    | interrupt =>
      have hstep : connectionStep l s .interrupt = some (.idle [], { s with stop := true }) := rfl
      have hout : ({ s with stop := true } : LoopState).Outside := h
      rw [List.cons_append, faultTrace_cons hstep, ih hout hrest]
      rfl
    | visit answers =>
      cases hphase : s.phase with
      | scanning i => exact absurd hphase (h i)
      | _ => simp [faultTrace, connectionStep, hphase]
    | select ret readFds writeFds exceptFds => exact hevent.elim
    | leave => exact hevent.elim

/-- Where the condition of the `for` loop fails, nothing is left. -/
theorem LoopState.Covers.kind_eq_none (h : s.Covers i) (hleave : ¬ s.goesOn i) {j : Nat}
    (hj : i ≤ j) : s.kind j = none := by
  rw [LoopState.kind_eq_none_iff]
  intro hready
  have hmem : j ∈ s.left i := Finset.mem_filter.mpr ⟨hready, hj⟩
  rw [h.left_eq_empty hleave] at hmem
  exact Finset.notMem_empty j hmem

/-- The step that ends the `for` loop. -/
theorem connectionStep_leave (hphase : s.phase = .scanning i)
    (h : connectionStep l s .leave = some (log, s')) : ¬ s.goesOn i ∧ log.handled = none := by
  obtain ⟨s₁, hs₁, heq⟩ := Option.map_eq_some_iff.mp h
  obtain ⟨rfl, -⟩ := Prod.mk.inj heq
  cases loopStep_move hs₁ with
  | left hphase' hleave =>
    obtain rfl := Phase.scanning.inj (hphase.symm.trans hphase')
    exact ⟨hleave, rfl⟩

/-- From a descriptor on, a pass that comes to its end handles exactly the descriptors that
are ready, in ascending order. -/
theorem faultTrace_handledIn {pass : List Event} {logs : List DescriptorLog} (h : s.Covers i)
    (hpass : ∀ event ∈ pass, event.InPass)
    (hrun : faultTrace (connectionStep l) s (pass ++ [.leave]) = some (logs, s')) :
    (handledIn logs).Pairwise (fun a b => a.1 < b.1) ∧
      ∀ fd kind, (fd, kind) ∈ handledIn logs ↔ i ≤ fd ∧ s.kind fd = some kind := by
  induction pass generalizing s i logs with
  | nil =>
    obtain ⟨log, s₁, logs', hstep, hrest, rfl⟩ := faultTrace_cons_eq_some.mp hrun
    obtain ⟨rfl, -⟩ := Prod.mk.inj (Option.some.inj hrest)
    -- the pass leaves the loop when no descriptor is left
    obtain ⟨hleave, hhandled⟩ := connectionStep_leave h.phase hstep
    have hnil : handledIn [log] = [] := by simp [handledIn, hhandled]
    rw [hnil]
    refine ⟨List.Pairwise.nil, fun fd kind => iff_of_false List.not_mem_nil ?_⟩
    rintro ⟨hle, hkind⟩
    rw [h.kind_eq_none hleave hle] at hkind
    exact absurd hkind (by simp)
  | cons event pass ih =>
    obtain ⟨hevent, hpass⟩ := List.forall_mem_cons.mp hpass
    rw [List.cons_append] at hrun
    obtain ⟨log, s₁, logs', hstep, htrace, rfl⟩ := faultTrace_cons_eq_some.mp hrun
    -- the step handles the descriptor at `i` or none, and the rest of the pass those behind it
    rcases connectionStep_covers h hevent hstep with
      ⟨hhandled, hcovers, hkind⟩ | ⟨hhandled, ⟨hcovers, hkind⟩ | hout⟩
    · -- a step that handles none and leaves the index where it is
      have hcons : handledIn (log :: logs') = handledIn logs' := by simp [handledIn, hhandled]
      rw [hcons, ← hkind]
      exact ih hcovers hpass htrace
    · obtain ⟨hsorted, hmem⟩ := ih hcovers hpass htrace
      rw [hkind] at hmem
      cases hi : s.kind i with
      | none =>
        have hcons : handledIn (log :: logs') = handledIn logs' := by
          simp [handledIn, hhandled, hi]
        rw [hcons]
        refine ⟨hsorted, fun fd kind => (hmem fd kind).trans (and_congr_left fun hfd => ?_)⟩
        -- the descriptor visited was not ready
        have hne : fd ≠ i := by
          rintro rfl
          rw [hi] at hfd
          exact absurd hfd (by simp)
        omega
      | some kind' =>
        have hcons : handledIn (log :: logs') = (i, kind') :: handledIn logs' := by
          simp [handledIn, hhandled, hi]
        rw [hcons]
        constructor
        · -- it comes first, since the rest begins behind it
          refine List.pairwise_cons.mpr ⟨fun b hb => ?_, hsorted⟩
          exact ((hmem b.1 b.2).mp hb).1
        · intro fd kind
          rw [List.mem_cons, hmem, Prod.mk.injEq]
          constructor
          · rintro (⟨rfl, rfl⟩ | ⟨hle, hfd⟩)
            · exact ⟨le_rfl, hi⟩
            · exact ⟨by omega, hfd⟩
          · rintro ⟨hle, hfd⟩
            rcases hle.eq_or_lt with rfl | hlt
            · rw [hi] at hfd
              exact Or.inl ⟨rfl, (Option.some.inj hfd).symm⟩
            · exact Or.inr ⟨hlt, hfd⟩
    · -- the loop was left by a break
      rw [faultTrace_of_outside hout hpass] at htrace
      exact absurd htrace (by simp)

/-- A positive result of select starts the `for` loop with its number of bits. -/
theorem connectionStep_select {ret : Int} {readFds writeFds exceptFds : Finset Nat}
    (hmax : ∀ fd ∈ readFds ∪ writeFds ∪ exceptFds, fd ≤ s.tables.maxFd)
    (hret : ret = readFds.card + writeFds.card + exceptFds.card)
    (h : connectionStep l s (.select ret readFds writeFds exceptFds) = some (log, s')) :
    log.handled = none ∧
      ((s'.Covers 0 ∧ s'.kind = readyAs readFds writeFds exceptFds) ∨ s'.Outside) := by
  obtain ⟨s₁, hs₁, heq⟩ := Option.map_eq_some_iff.mp h
  obtain ⟨rfl, rfl⟩ := Prod.mk.inj heq
  refine ⟨rfl, ?_⟩
  cases loopStep_move hs₁ with
  | selected hpos hread hwrite hexcept =>
    refine Or.inl ⟨⟨rfl, hmax, ?_⟩, rfl⟩
    rw [LoopState.left_zero]
    show ((readFds ∪ writeFds ∪ exceptFds).card : Int) ≤ ret
    rw [hret]
    exact_mod_cast card_ready_le readFds writeFds exceptFds
  | failed hneg => exact Or.inr (by simp [LoopState.Outside])
  | expired => exact Or.inr s.endPass_ne_scanning

/-- One pass that comes to its end handles every descriptor that select has reported once, as
a read if it is ready for reading, else as a write if it is ready for writing, else as an
exception. The calls of the handlers in it are among these (`calls_sublist_handledIn`). -/
theorem pass_handles_ready (l : ListeningSockets) {s s' : LoopState} {ret : Int}
    {readFds writeFds exceptFds : Finset Nat} {pass : List Event} {logs : List DescriptorLog}
    (hmax : ∀ fd ∈ readFds ∪ writeFds ∪ exceptFds, fd ≤ s.tables.maxFd)
    (hret : ret = readFds.card + writeFds.card + exceptFds.card)
    (hpass : ∀ event ∈ pass, event.InPass)
    (hrun : faultTrace (connectionStep l) s
      (.select ret readFds writeFds exceptFds :: (pass ++ [.leave])) = some (logs, s')) :
    ((handledIn logs).map Prod.fst).Nodup ∧
      ∀ fd kind, (fd, kind) ∈ handledIn logs ↔
        readyAs readFds writeFds exceptFds fd = some kind := by
  obtain ⟨log, s₁, logs', hstep, htrace, rfl⟩ := faultTrace_cons_eq_some.mp hrun
  obtain ⟨hhandled, ⟨hcovers, hkind⟩ | hout⟩ := connectionStep_select hmax hret hstep
  · obtain ⟨hsorted, hmem⟩ := faultTrace_handledIn hcovers hpass htrace
    have hcons : handledIn (log :: logs') = handledIn logs' := by simp [handledIn, hhandled]
    rw [hcons]
    constructor
    · apply List.Pairwise.imp _ (List.pairwise_map.mpr hsorted)
      intro a b hlt
      exact hlt.ne
    · intro fd kind
      rw [hmem, hkind]
      exact and_iff_right (Nat.zero_le fd)
  · -- select has reported nothing, and there is no pass
    rw [faultTrace_of_outside hout hpass] at htrace
    exact absurd htrace (by simp)

/-! ## The calls of a pass -/

/-- The descriptor of a call, and the set in which it is found. -/
def Call.target : Call → Nat × Handling
  | .heartbeat direction fd => (fd, direction.handling)
  | .client _ direction fd _ _ => (fd, direction.handling)

/-- A branch calls a handler at most once, for its descriptor and as that is ready. -/
theorem Branch.calls_sublist {a : Answers} {kind : Handling} {v : Visited}
    (h : Branch l t i a kind log v) : (v.calls.map Call.target).Sublist [(i, kind)] := by
  cases h with
  | accept p h =>
    rcases acceptConnection_cases h with ⟨-, rfl⟩ | ⟨newFd, _, -, -, -, hcalls, -⟩
    · exact List.nil_sublist _
    · rw [hcalls]
      exact List.nil_sublist _
  | heartbeat direction =>
    cases a.task with
    | refused => exact List.nil_sublist _
    | done result => exact List.Sublist.refl _
  | client direction =>
    cases a.task with
    | refused => exact List.nil_sublist _
    | done result =>
      simp only [runClientTask]
      split
      · exact List.Sublist.refl _
      split <;> exact List.Sublist.refl _
  | except =>
    simp only [exceptClient]
    split <;> exact List.nil_sublist _
  | fail => exact List.nil_sublist _

/-- The calls of a step are for the descriptor that it handles. -/
theorem connectionStep_calls {event : Event} (h : connectionStep l s event = some (log, s')) :
    ∃ calls, s'.calls = s.calls ++ calls ∧
      (calls.map Call.target).Sublist log.handled.toList := by
  rcases connectionStep_cases h with
    ⟨i, answers, v, -, -, -, hv, rfl⟩ | ⟨hother, hloop, -⟩
  · refine ⟨v.calls, s.advance_calls i v, ?_⟩
    rcases visitDescriptor_branch hv with ⟨kind, log', -, hbranch, rfl⟩ | ⟨-, rfl, rfl⟩
    · exact hbranch.calls_sublist
    · exact List.nil_sublist _
  · refine ⟨[], ?_, List.nil_sublist _⟩
    rw [List.append_nil]
    cases loopStep_move hloop with
    | visited => exact absurd rfl (hother _)
    | _ => rfl

/-- Every handler that is called in a run is called for a descriptor that is handled, as it is
handled, and once for each time. -/
theorem calls_sublist_handledIn {events : List Event} {logs : List DescriptorLog}
    (h : faultTrace (connectionStep l) s events = some (logs, s')) :
    ∃ calls, s'.calls = s.calls ++ calls ∧ (calls.map Call.target).Sublist (handledIn logs) := by
  induction events generalizing s logs with
  | nil =>
    obtain ⟨rfl, rfl⟩ := Prod.mk.inj (Option.some.inj h)
    exact ⟨[], (List.append_nil _).symm, List.nil_sublist _⟩
  | cons event events ih =>
    obtain ⟨log, s₁, logs', hstep, htrace, rfl⟩ := faultTrace_cons_eq_some.mp h
    obtain ⟨calls, hcalls, hfirst⟩ := connectionStep_calls hstep
    obtain ⟨calls', hcalls', hrest⟩ := ih htrace
    refine ⟨calls ++ calls', by rw [hcalls', hcalls, List.append_assoc], ?_⟩
    have hhandled : handledIn (log :: logs') = log.handled.toList ++ handledIn logs' := by
      cases hlog : log.handled <;> simp [handledIn, hlog]
    rw [List.map_append, hhandled]
    exact hfirst.append hrest

/-- The socket of the TCP clients accepts, which makes `max_fd` larger, and the UDP socket is
ready in two sets. -/
def acceptAndHeartbeat : List Event :=
  List.replicate 7 (.visit ⟨some 6, 4000, true, .done (some threadResultSuccess)⟩)

theorem pass_handles_ready_acceptAndHeartbeat :
    ∃ logs s, faultTrace (connectionStep firstSockets) (.initial firstSockets)
        (.select 3 {3, 4} {4} ∅ :: (acceptAndHeartbeat ++ [.leave])) = some (logs, s) ∧
      s.tables.maxFd = 6 ∧ s.selectRet = 1 ∧ ((handledIn logs).map Prod.fst).Nodup ∧
      ∀ fd kind, (fd, kind) ∈ handledIn logs ↔ readyAs {3, 4} {4} ∅ fd = some kind := by
  have hrun : (faultTrace (connectionStep firstSockets) (.initial firstSockets)
      (.select 3 {3, 4} {4} ∅ :: (acceptAndHeartbeat ++ [.leave]))).map
        (fun r => (r.2.tables.maxFd, r.2.selectRet)) = some (6, 1) := by
    decide +kernel
  obtain ⟨⟨logs, s⟩, hs, heq⟩ := Option.map_eq_some_iff.mp hrun
  obtain ⟨hmaxFd, hselectRet⟩ := Prod.mk.inj heq
  refine ⟨logs, s, hs, hmaxFd, hselectRet,
    pass_handles_ready firstSockets (by decide) (by decide) ?_ hs⟩
  intro event hevent
  rw [List.eq_of_mem_replicate hevent]
  trivial

end SelectServer
