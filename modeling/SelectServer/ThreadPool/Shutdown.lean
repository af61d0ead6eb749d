import SelectServer.ThreadPool.Execution

/-!
# The graceful shutdown

`THREADPOOL_GRACEFUL` is 1, the value that also requests an immediate shutdown: a worker
that sees it leaves, whatever is pending. A `threadpool_destroy` that returns 0 has waited
for all workers, so what was pending when it began is never executed.
-/

namespace SelectServer

open Systems

section

variable {F A V : Type*} {n : Nat}

/-- The shutdown begins with an empty queue. -/
def EmptyAtDestroy (s : PoolState F A V n) : PoolLabel F A V n → Prop
  | .destroy _ => s.pool.shutdown = 0 → s.pool.count = 0
  | _ => True

instance (s : PoolState F A V n) : ∀ l, Decidable (EmptyAtDestroy s l)
  | .destroy _ => inferInstanceAs (Decidable (_ → _))
  | .add _ _ _ | .region _ | .wake _ | .load _ | .call _ _ | .store _ | .complete _ | .join =>
    isTrue trivial

/-- A destroy that joins has requested the shutdown, and when it has returned all workers
have left. -/
structure PoolState.Joined (s : PoolState F A V n) : Prop where
  closed : s.joining = true ∨ s.destroyed = true → s.pool.shutdown = 1
  all_left : s.destroyed = true → ∀ w, (s.workers w).hasLeft = true

/-- A step of a worker that has not left: no destroy has returned. -/
theorem PoolState.Joined.setWorker {s : PoolState F A V n} (h : s.Joined) {w : Fin n}
    (hw : (s.workers w).hasLeft = false) (worker : Worker F A V) (pool : Pool F A V)
    (hdown : pool.shutdown = s.pool.shutdown) (calls : List ((F × A) × Option V)) :
    ({ s.setWorker w worker with pool := pool, calls := calls } : PoolState F A V n).Joined := by
  refine ⟨fun hj => hdown.trans (h.closed hj), fun hd => ?_⟩
  -- the worker would have left
  have hleft := h.all_left hd w
  simp [hw] at hleft

theorem PoolState.Step.joined {s s' : PoolState F A V n} {l : PoolLabel F A V n}
    (hstep : s.Step l s') (h : s.Joined) : s'.Joined := by
  cases hstep with
  | refuse => exact h
  | add hroom hopen hwakes =>
    -- an add that succeeds finds the pool open
    have hno : ¬ (s.joining = true ∨ s.destroyed = true) := fun hj => by
      simp [h.closed hj] at hopen
    exact ⟨fun hj => absurd hj hno, fun hd => absurd (Or.inr hd) hno⟩
  | wait hw => exact h.setWorker (by rw [hw]; rfl) _ s.pool rfl _
  | leave hw hdown =>
    exact h.setWorker (by rw [hw]; rfl) _ { s.pool with started := s.pool.started - 1 } rfl _
  | take hw => exact h.setWorker (by rw [hw]; rfl) _ s.pool.removeHead rfl _
  | wake hw => exact h.setWorker (by rw [hw]; rfl) _ s.pool rfl _
  | load hw => exact h.setWorker (by rw [hw]; rfl) _ s.pool rfl _
  | call hw => exact h.setWorker (by rw [hw]; rfl) _ s.pool rfl _
  | store hw => exact h.setWorker (by rw [hw]; rfl) _ (s.pool.setTask _ _) rfl _
  | complete hw => exact h.setWorker (by rw [hw]; rfl) _ (s.pool.setTask _ _) rfl _
  | destroy hopen hlive =>
    exact ⟨fun _ => rfl, fun hd => absurd hd (by simp [hlive])⟩
  | destroyAgain hdown => exact ⟨h.closed, h.all_left⟩
  | join hjoining hleft => exact ⟨fun _ => h.closed (Or.inl hjoining), fun _ => hleft⟩

theorem PoolState.initial_joined (queueSize : Nat) (junk : Nat → Task F A V) :
    (PoolState.initial n queueSize junk).Joined :=
  ⟨fun hj => by simp [PoolState.initial] at hj, fun hd => by simp [PoolState.initial] at hd⟩

/-- A shutdown that begins with an empty queue leaves it empty. -/
theorem PoolState.Step.stays_empty {s s' : PoolState F A V n} {l : PoolLabel F A V n}
    (hstep : s.Step l s') (hempty : EmptyAtDestroy s l)
    (h : s.pool.shutdown = 1 → s.pool.count = 0) : s'.pool.shutdown = 1 → s'.pool.count = 0 := by
  cases hstep with
  | add hroom hopen hwakes => exact fun hdown => absurd hdown (by simp [Pool.append, hopen])
  | take hw hopen hcount => exact fun hdown => absurd hdown (by simp [Pool.removeHead, hopen])
  | destroy hopen hlive => exact fun _ => hempty hopen
  | _ => exact h

/-- When a destroy has returned, the accepted jobs are the executed ones and those that are
still pending. -/
theorem accepted_of_destroyed {s : PoolState F A V n} (hsound : s.Sound) (hjoined : s.Joined)
    (hdestroyed : s.destroyed = true) :
    (s.accepted : Multiset (F × A)) = s.executed + s.pool.pending := by
  -- a worker that has left has nothing in flight
  have hnone : total (inFlight s.pool) s.workers = 0 := by
    refine total_eq_zero fun w => ?_
    have hleft := hjoined.all_left hdestroyed w
    cases hw : s.workers w <;> simp_all [Worker.hasLeft, inFlight]
  rw [hsound.accounted, hnone, add_zero]

/-- In every run whose adds spare the slots that workers have claimed and not read, and whose
shutdown begins with an empty queue: when `threadpool_destroy` has returned 0, every accepted
job has been executed, exactly once. -/
theorem destroyed_executed {queueSize : Nat} (hsize : 0 < queueSize) (junk : Nat → Task F A V)
    (ls : List (PoolLabel F A V n)) (s : PoolState F A V n)
    (hrun : run PoolState.step (PoolState.initial n queueSize junk) ls = some s)
    (hmeets : Meets PoolState.step (fun s l => SparesClaimed s l ∧ EmptyAtDestroy s l)
      (PoolState.initial n queueSize junk) ls)
    (hdestroyed : s.destroyed = true) : (s.executed : Multiset (F × A)) = s.accepted := by
  have hinv : (s.Sound ∧ s.Joined) ∧ (s.pool.shutdown = 1 → s.pool.count = 0) := by
    refine run_invariant_of_meets
      (P := fun s => (s.Sound ∧ s.Joined) ∧ (s.pool.shutdown = 1 → s.pool.count = 0)) ?_
      ⟨⟨PoolState.initial_sound hsize junk, PoolState.initial_joined queueSize junk⟩,
        fun _ => rfl⟩ hmeets hrun
    rintro s l s' ⟨⟨hsound, hjoined⟩, hcount⟩ ⟨hspares, hempty⟩ hl
    have hstep := PoolState.step_cases hsound.shutdown_le hl
    exact ⟨⟨hstep.sound hsound hspares, hstep.joined hjoined⟩, hstep.stays_empty hempty hcount⟩
  obtain ⟨⟨hsound, hjoined⟩, hcount⟩ := hinv
  have hpending : s.pool.pending = [] := by
    rw [← List.length_eq_zero_iff, Pool.length_pending]
    exact hcount (hjoined.closed (Or.inr hdestroyed))
  rw [accepted_of_destroyed hsound hjoined hdestroyed, hpending]
  simp

end

/-- A shutdown after the one accepted job has been taken. -/
theorem destroyed_executed_one :
    ∃ s : PoolState Nat Nat Nat 1,
      run PoolState.step (PoolState.initial 1 1 emptyTask)
        [.add 1 10 none, .region 0, .destroy threadpoolGraceful, .load 0, .call 0 none,
          .store 0, .complete 0, .region 0, .join] = some s ∧
      s.accepted = [(1, 10)] ∧ (s.executed : Multiset (Nat × Nat)) = s.accepted := by
  obtain ⟨s, hrun, hdestroyed, haccepted⟩ : ∃ s : PoolState Nat Nat Nat 1,
      run PoolState.step (PoolState.initial 1 1 emptyTask)
        [.add 1 10 none, .region 0, .destroy threadpoolGraceful, .load 0, .call 0 none,
          .store 0, .complete 0, .region 0, .join] = some s ∧
      s.destroyed = true ∧ s.accepted = [(1, 10)] :=
    ⟨_, rfl, rfl, rfl⟩
  exact ⟨s, hrun, haccepted, destroyed_executed Nat.one_pos emptyTask _ s hrun (by decide)
    hdestroyed⟩

/-- A graceful shutdown with one job pending: the worker leaves, the destroy returns 0, and
the job is never executed. -/
theorem destroyed_discards_pending :
    ∃ s : PoolState Nat Nat Nat 1,
      run PoolState.step (PoolState.initial 1 1 emptyTask)
        [.add 1 10 none, .destroy threadpoolGraceful, .region 0, .join] = some s ∧
      s.destroyed = true ∧ s.accepted = [(1, 10)] ∧ s.executed = [] ∧
      ¬ (s.executed : Multiset (Nat × Nat)) = s.accepted :=
  ⟨_, rfl, rfl, rfl, rfl, by decide⟩

end SelectServer
