import Mathlib.Algebra.Order.BigOperators.Group.Multiset
import SelectServer.Systems.Tally
import SelectServer.ThreadPool.Run

/-!
# Every accepted task is executed once

An accepted job is pending in the ring, in the hands of a worker that has not called it yet,
or called (`PoolState.Sound.accounted`). The account is kept by every step but one: an add
that fills a slot which a worker has claimed and not read. Workers leave the ring in a
shutdown without emptying it, so what is pending then stays pending.
-/

namespace SelectServer

open Systems

section

variable {F A V : Type*} {n : Nat}

/-! ## The account -/

/-- The job a worker has claimed and not called yet. -/
def inFlight (pool : Pool F A V) : Worker F A V → Multiset (F × A)
  | .claimed slot => {(pool.taskQueue slot).job}
  | .loaded _ function argument => {(function, argument)}
  | _ => 0

/-- The jobs that have been called, in order. -/
def PoolState.executed (s : PoolState F A V n) : List (F × A) := s.calls.map Prod.fst

/-- The invariant of the pool: its ring is valid, and every accepted job is executed, in
flight or pending, exactly once. -/
structure PoolState.Sound (s : PoolState F A V n) : Prop where
  valid : s.pool.Valid
  shutdown_le : s.pool.shutdown ≤ 1
  accounted : (s.accepted : Multiset (F × A)) =
    s.executed + total (inFlight s.pool) s.workers + s.pool.pending

/-- An add that succeeds does not fill a slot that a worker has claimed and not read. -/
def SparesClaimed (s : PoolState F A V n) : PoolLabel F A V n → Prop
  | .add _ _ _ => s.pool.count ≠ s.pool.queueSize → s.pool.shutdown = 0 →
      ∀ w, s.workers w ≠ .claimed s.pool.tail
  | _ => True

instance [DecidableEq F] [DecidableEq A] [DecidableEq V] (s : PoolState F A V n) :
    ∀ l, Decidable (SparesClaimed s l)
  | .add _ _ _ => inferInstanceAs (Decidable (_ → _ → ∀ w, s.workers w ≠ .claimed s.pool.tail))
  | .region _ | .wake _ | .load _ | .call _ _ | .store _ | .complete _ | .destroy _ | .join =>
    isTrue trivial

theorem inFlight_congr {pool pool' : Pool F A V} (worker : Worker F A V)
    (h : ∀ slot, worker = .claimed slot →
      (pool'.taskQueue slot).job = (pool.taskQueue slot).job) :
    inFlight pool' worker = inFlight pool worker := by
  cases worker with
  | claimed slot => simp only [inFlight, h slot rfl]
  | _ => rfl

theorem inFlight_of_isAsleep {pool : Pool F A V} {worker : Worker F A V}
    (h : worker.isAsleep = true) : inFlight pool worker = 0 := by
  cases worker <;> simp_all [Worker.isAsleep, inFlight]

/-- A worker that is woken has nothing in flight, before and after. -/
theorem inFlight_signal {pool : Pool F A V} {workers : Fin n → Worker F A V}
    {woken : Option (Fin n)} (h : Wakes workers woken = true) (w : Fin n) :
    inFlight pool (signal workers woken w) = inFlight pool (workers w) := by
  cases woken with
  | none => rfl
  | some v =>
    by_cases hw : w = v
    · subst hw
      rw [inFlight_of_isAsleep h]
      simp [signal, inFlight]
    · simp [signal, hw]

theorem inFlight_broadcast {pool : Pool F A V} {workers : Fin n → Worker F A V} (w : Fin n) :
    inFlight pool (broadcast workers w) = inFlight pool (workers w) := by
  unfold broadcast
  split
  · rename_i hw
    rw [inFlight_of_isAsleep hw]
    rfl
  · rfl

/-- Changing result and mark of a task leaves every job as it is. -/
theorem Pool.job_setTask (pool : Pool F A V) (slot : Nat) (task : Task F A V)
    (h : task.job = (pool.taskQueue slot).job) :
    Task.job ∘ (pool.setTask slot task).taskQueue = Task.job ∘ pool.taskQueue := by
  simp only [Pool.setTask, Function.comp_update, h]
  exact Function.update_eq_self _ _

/-- A step of one worker that changes the pool's jobs in no slot: what changes in the account
is what the worker has in flight. -/
theorem PoolState.Sound.setWorker {s : PoolState F A V n} (h : s.Sound) {w : Fin n}
    {worker : Worker F A V} {pool : Pool F A V} {calls : List ((F × A) × Option V)}
    (hvalid : pool.Valid) (hdown : pool.shutdown ≤ 1)
    (hjob : Task.job ∘ pool.taskQueue = Task.job ∘ s.pool.taskQueue)
    (haccount : (calls.map Prod.fst : Multiset (F × A)) + inFlight pool worker + pool.pending =
      s.executed + inFlight s.pool (s.workers w) + s.pool.pending) :
    ({ s.setWorker w worker with pool := pool, calls := calls } : PoolState F A V n).Sound := by
  refine ⟨hvalid, hdown, ?_⟩
  have hothers : total (inFlight pool) (Function.update s.workers w worker) +
      inFlight s.pool (s.workers w) = total (inFlight s.pool) s.workers + inFlight pool worker :=
    total_update worker fun _ _ => inFlight_congr _ fun slot _ => congrFun hjob slot
  have hsum := h.accounted
  simp only [PoolState.setWorker, PoolState.executed] at haccount hsum ⊢
  rw [hsum]
  -- both sides with the worker's old share added are equal
  refine add_right_cancel (b := inFlight s.pool (s.workers w)) ?_
  calc
    _ = total (inFlight s.pool) s.workers + ((s.calls.map Prod.fst : Multiset (F × A)) +
        inFlight s.pool (s.workers w) + s.pool.pending) := by abel
    _ = total (inFlight s.pool) s.workers + ((calls.map Prod.fst : Multiset (F × A)) +
        inFlight pool worker + pool.pending) := by rw [haccount]
    _ = (calls.map Prod.fst : Multiset (F × A)) +
        (total (inFlight s.pool) s.workers + inFlight pool worker) + pool.pending := by abel
    _ = _ := by
      rw [← hothers]
      abel

/-- The account is kept by every step that spares the claimed slots. -/
theorem PoolState.Step.sound {s s' : PoolState F A V n} {l : PoolLabel F A V n}
    (hstep : s.Step l s') (h : s.Sound) (hspares : SparesClaimed s l) : s'.Sound := by
  cases hstep with
  | refuse => exact h
  | @add function argument woken hroom hopen hwakes =>
    have hle := h.valid.count_le
    obtain ⟨hvalid, hpending⟩ := Pool.append_spec h.valid (by omega) function argument
    refine ⟨hvalid, h.shutdown_le, ?_⟩
    -- no worker reads its job from the slot that is filled
    have hkeep : total (inFlight (s.pool.append function argument)) (signal s.workers woken) =
        total (inFlight s.pool) s.workers := by
      refine total_congr fun w => ?_
      rw [inFlight_signal hwakes]
      refine inFlight_congr _ fun slot hslot => ?_
      have hne : slot ≠ s.pool.tail := by
        rintro rfl
        exact hspares hroom hopen w hslot
      simp [Pool.append, hne]
    have hsum := h.accounted
    simp only [PoolState.executed] at hsum ⊢
    rw [hkeep, hpending, ← Multiset.coe_add, ← Multiset.coe_add, hsum]
    abel
  | @wait w hw hopen hcount =>
    exact h.setWorker h.valid h.shutdown_le rfl (by rw [hw]; rfl)
  | @leave w hw hdown =>
    exact h.setWorker ⟨h.valid.head_lt, h.valid.count_le, h.valid.tail_eq⟩ h.shutdown_le rfl
      (by rw [hw]; rfl)
  | @take w hw hopen hcount =>
    -- the oldest pending job is now in flight
    obtain ⟨hvalid, hpending⟩ := Pool.removeHead_spec h.valid hcount
    refine h.setWorker hvalid h.shutdown_le s.pool.job_removeHead ?_
    rw [hw, hpending, ← Multiset.cons_coe, ← Multiset.singleton_add]
    simp only [inFlight, PoolState.executed, PoolState.setWorker]
    abel
  | @wake w hw => exact h.setWorker h.valid h.shutdown_le rfl (by rw [hw]; rfl)
  | @load w slot hw => exact h.setWorker h.valid h.shutdown_le rfl (by rw [hw]; rfl)
  | @call w slot function argument result hw =>
    -- the job in flight is now executed
    refine h.setWorker h.valid h.shutdown_le rfl ?_
    rw [hw, List.map_append, ← Multiset.coe_add]
    simp only [inFlight, PoolState.executed, List.map_cons, List.map_nil, Multiset.coe_singleton]
    abel
  | @store w slot result hw =>
    have hjob := s.pool.job_setTask slot { s.pool.taskQueue slot with result := result } rfl
    refine h.setWorker ⟨h.valid.head_lt, h.valid.count_le, h.valid.tail_eq⟩ h.shutdown_le
      hjob ?_
    rw [hw, Pool.pending, hjob]
    rfl
  | @complete w slot hw =>
    have hjob := s.pool.job_setTask slot { s.pool.taskQueue slot with done := true } rfl
    refine h.setWorker ⟨h.valid.head_lt, h.valid.count_le, h.valid.tail_eq⟩ h.shutdown_le
      hjob ?_
    rw [hw, Pool.pending, hjob]
    rfl
  | destroy hopen hlive =>
    -- the workers that are woken had nothing in flight
    refine ⟨⟨h.valid.head_lt, h.valid.count_le, h.valid.tail_eq⟩, le_rfl, ?_⟩
    have hkeep : total (inFlight { s.pool with shutdown := 1 }) (broadcast s.workers) =
        total (inFlight s.pool) s.workers :=
      total_congr fun w => by
        rw [inFlight_broadcast]
        exact inFlight_congr _ fun _ _ => rfl
    have hsum := h.accounted
    simp only [PoolState.executed] at hsum ⊢
    rw [hkeep, hsum]
    rfl
  | destroyAgain hdown => exact ⟨h.valid, h.shutdown_le, h.accounted⟩
  | join hjoining hleft => exact ⟨h.valid, h.shutdown_le, h.accounted⟩

theorem PoolState.initial_sound {queueSize : Nat} (hsize : 0 < queueSize)
    (junk : Nat → Task F A V) : (PoolState.initial n queueSize junk).Sound := by
  refine ⟨Pool.initial_valid n hsize junk, Nat.zero_le _, ?_⟩
  have hzero : total (inFlight (Pool.initial n queueSize junk))
      (PoolState.initial n queueSize junk).workers = 0 :=
    total_eq_zero fun _ => rfl
  simp only [PoolState.initial, PoolState.executed] at hzero ⊢
  rw [hzero]
  rfl

/-! ## The workers run until everything is executed -/

/-- How many steps a worker is away from sleep, without another task. -/
def Worker.rank : Worker F A V → Nat
  | .asleep | .left => 0
  | .awake => 1
  | .stored _ => 2
  | .called _ _ => 3
  | .loaded _ _ _ => 4
  | .claimed _ => 5

/-- How many steps the workers can make without another add. -/
def PoolState.work (s : PoolState F A V n) : Nat := 5 * s.pool.count + total Worker.rank s.workers

/-- Without a shutdown no lock is left held and no worker leaves, and while tasks are pending
the workers do not all sleep. -/
structure PoolState.Wakeful (s : PoolState F A V n) : Prop where
  lock_free : s.pool.shutdown = 0 → s.lockHeld = false
  none_left : s.pool.shutdown = 0 → ∀ w, s.workers w ≠ .left
  some_awake : s.pool.shutdown = 0 → 0 < s.pool.count → ∃ w, s.workers w ≠ .asleep

/-- A worker that goes on to a place where it neither sleeps nor has left. -/
theorem PoolState.Wakeful.setWorker {s : PoolState F A V n} (h : s.Wakeful) (w : Fin n)
    (worker : Worker F A V) (hasleep : worker ≠ .asleep) (hleft : worker ≠ .left)
    (pool : Pool F A V) (hdown : pool.shutdown = s.pool.shutdown)
    (calls : List ((F × A) × Option V)) :
    ({ s.setWorker w worker with pool := pool, calls := calls } :
      PoolState F A V n).Wakeful := by
  refine ⟨fun hopen => h.lock_free (hdown ▸ hopen), fun hopen v => ?_, fun _ _ => ⟨w, ?_⟩⟩
  · by_cases hv : v = w
    · subst hv
      simpa [PoolState.setWorker] using hleft
    · simpa [PoolState.setWorker, hv] using h.none_left (hdown ▸ hopen) v
  · simpa [PoolState.setWorker] using hasleep

/-- Signalling wakes a worker, or finds one awake. -/
theorem exists_awake_signal (hn : 0 < n) {workers : Fin n → Worker F A V}
    {woken : Option (Fin n)} (h : Wakes workers woken = true) :
    ∃ w, signal workers woken w ≠ .asleep := by
  cases woken with
  | some w => exact ⟨w, by simp [signal]⟩
  | none =>
    simp only [Wakes, decide_eq_true_eq] at h
    refine ⟨⟨0, hn⟩, fun hw => ?_⟩
    have := h ⟨0, hn⟩
    simp only [signal] at hw
    simp [hw, Worker.isAsleep] at this

theorem signal_ne_left {workers : Fin n → Worker F A V} (h : ∀ w, workers w ≠ .left)
    (woken : Option (Fin n)) (w : Fin n) : signal workers woken w ≠ .left := by
  cases woken with
  | none => exact h w
  | some v =>
    by_cases hw : w = v
    · simp [signal, hw]
    · simpa [signal, hw] using h w

theorem PoolState.Step.wakeful (hn : 0 < n) {s s' : PoolState F A V n} {l : PoolLabel F A V n}
    (hstep : s.Step l s') (h : s.Wakeful) : s'.Wakeful := by
  cases hstep with
  | refuse => exact h
  | add hroom hopen hwakes =>
    exact ⟨fun _ => h.lock_free hopen, fun _ => signal_ne_left (h.none_left hopen) _,
      fun _ _ => exists_awake_signal hn hwakes⟩
  | @wait w hw hopen hcount =>
    refine ⟨h.lock_free, fun _ v => ?_, fun _ hpos => absurd hcount hpos.ne'⟩
    by_cases hv : v = w
    · simp [PoolState.setWorker, hv]
    · simpa [PoolState.setWorker, hv] using h.none_left hopen v
  | leave hw hdown =>
    have hclosed : ¬ s.pool.shutdown = 0 := by omega
    exact ⟨fun hopen => absurd hopen hclosed, fun hopen => absurd hopen hclosed,
      fun hopen => absurd hopen hclosed⟩
  | @take w hw hopen hcount =>
    exact h.setWorker w (.claimed s.pool.head) (by simp) (by simp) s.pool.removeHead rfl _
  | @wake w hw => exact h.setWorker w .awake (by simp) (by simp) s.pool rfl _
  | @load w slot hw => exact h.setWorker w (.loaded slot _ _) (by simp) (by simp) s.pool rfl _
  | @call w slot function argument result hw =>
    exact h.setWorker w (.called slot result) (by simp) (by simp) s.pool rfl _
  | @store w slot result hw =>
    exact h.setWorker w (.stored slot) (by simp) (by simp) (s.pool.setTask slot _) rfl _
  | @complete w slot hw =>
    exact h.setWorker w .awake (by simp) (by simp) (s.pool.setTask slot _) rfl _
  | destroy hopen hlive =>
    exact ⟨fun hopen => absurd hopen Nat.one_ne_zero, fun hopen => absurd hopen Nat.one_ne_zero,
      fun hopen => absurd hopen Nat.one_ne_zero⟩
  | destroyAgain hdown =>
    exact ⟨fun hopen => absurd hopen hdown, h.none_left, h.some_awake⟩
  | join hjoining hleft => exact ⟨h.lock_free, h.none_left, h.some_awake⟩

theorem PoolState.initial_wakeful (queueSize : Nat) (junk : Nat → Task F A V) :
    (PoolState.initial n queueSize junk).Wakeful :=
  ⟨fun _ => rfl, fun _ _ => by simp [PoolState.initial],
    fun _ hpos => absurd hpos (by simp [PoolState.initial, Pool.initial])⟩

/-- A worker that gets one step nearer to sleep, with the tasks it takes counted, leaves one
unit of work less. -/
theorem PoolState.work_setWorker {s : PoolState F A V n} {w : Fin n} {worker : Worker F A V}
    {pool : Pool F A V} {calls : List ((F × A) × Option V)}
    (h : worker.rank + 5 * pool.count + 1 = (s.workers w).rank + 5 * s.pool.count) :
    ({ s.setWorker w worker with pool := pool, calls := calls } : PoolState F A V n).work + 1 =
      s.work := by
  have hrank : total Worker.rank (Function.update s.workers w worker) + (s.workers w).rank =
      total Worker.rank s.workers + worker.rank :=
    total_update worker fun _ _ => rfl
  simp only [PoolState.work, PoolState.setWorker]
  omega

/-- Every move of a worker uses up one unit of work. -/
theorem PoolState.Step.work_eq {s s' : PoolState F A V n} {l : PoolLabel F A V n}
    (hstep : s.Step l s') (hmove : l.isMove = true) : s'.work + 1 = s.work := by
  cases hstep with
  | wait hw => exact PoolState.work_setWorker (by simp only [hw, Worker.rank]; omega)
  | leave hw => exact PoolState.work_setWorker (by simp only [hw, Worker.rank]; omega)
  | take hw hopen hcount =>
    -- the worker is farther from sleep, and the queue one task shorter
    exact PoolState.work_setWorker (by simp only [hw, Worker.rank, Pool.removeHead]; omega)
  | load hw => exact PoolState.work_setWorker (by simp only [hw, Worker.rank]; omega)
  | call hw =>
    exact PoolState.work_setWorker (by simp only [hw, Worker.rank, PoolState.setWorker]; omega)
  | store hw =>
    exact PoolState.work_setWorker (by simp only [hw, Worker.rank, Pool.setTask]; omega)
  | complete hw =>
    exact PoolState.work_setWorker (by simp only [hw, Worker.rank, Pool.setTask]; omega)
  | _ => cases hmove

/-- Moves never go on for longer than the work there is. -/
theorem length_le_work {s s' : PoolState F A V n} {ls : List (PoolLabel F A V n)}
    (h : s.Sound) (hmoves : ∀ l ∈ ls, l.isMove = true)
    (hrun : run PoolState.step s ls = some s') : ls.length ≤ s.work := by
  induction ls generalizing s with
  | nil => exact Nat.zero_le _
  | cons l ls ih =>
    obtain ⟨s₁, hs₁, hrun⟩ := run_cons_eq_some.mp hrun
    have hmove := hmoves l List.mem_cons_self
    have hstep := PoolState.step_cases h.shutdown_le hs₁
    have hspares : SparesClaimed s l := by
      cases l with
      | add => cases hmove
      | _ => trivial
    have hrest := ih (hstep.sound h hspares) (fun l hl => hmoves l (List.mem_cons_of_mem _ hl)) hrun
    have hwork := hstep.work_eq hmove
    rw [List.length_cons]
    omega

/-- Where no worker can move and no shutdown was requested, every accepted job has been
executed. -/
theorem executed_of_no_move {s : PoolState F A V n} (hsound : s.Sound) (hwakeful : s.Wakeful)
    (hopen : s.pool.shutdown = 0)
    (hstuck : ∀ l : PoolLabel F A V n, l.isMove = true → s.step l = none) :
    (s.executed : Multiset (F × A)) = s.accepted := by
  -- a worker that does not sleep could move
  have hasleep : ∀ w, s.workers w = .asleep := by
    intro w
    by_contra hw
    obtain ⟨l, s', hl, hmove⟩ :=
      PoolState.worker_moves hsound.shutdown_le (hwakeful.lock_free hopen) w hw
        (hwakeful.none_left hopen w)
    rw [hstuck l hmove] at hl
    cases hl
  -- and with tasks pending not all of them would sleep
  have hempty : s.pool.pending = [] := by
    rw [← List.length_eq_zero_iff, Pool.length_pending]
    by_contra hcount
    obtain ⟨w, hw⟩ := hwakeful.some_awake hopen (by omega)
    exact hw (hasleep w)
  have hnone : total (inFlight s.pool) s.workers = 0 :=
    total_eq_zero fun w => by rw [hasleep w]; rfl
  rw [hsound.accounted, hnone, hempty]
  simp

/-- In every run whose adds spare the slots that workers have claimed and not read, every
accepted job is executed, in flight or pending, exactly once, with the function and argument
it was accepted with. As long as no shutdown is requested, the workers' moves come to an end
after a bounded number of steps, and where they do, every accepted job has been executed,
exactly once. -/
theorem accepted_executed_once (hn : 0 < n) {queueSize : Nat} (hsize : 0 < queueSize)
    (junk : Nat → Task F A V) (ls : List (PoolLabel F A V n)) (s : PoolState F A V n)
    (hrun : run PoolState.step (PoolState.initial n queueSize junk) ls = some s)
    (hspares : Meets PoolState.step SparesClaimed (PoolState.initial n queueSize junk) ls) :
    ((s.accepted : Multiset (F × A)) =
      s.executed + total (inFlight s.pool) s.workers + s.pool.pending) ∧
    (s.pool.shutdown = 0 →
      (∀ moves s', (∀ l ∈ moves, l.isMove = true) → run PoolState.step s moves = some s' →
        moves.length ≤ s.work) ∧
      ((∀ l : PoolLabel F A V n, l.isMove = true → s.step l = none) →
        (s.executed : Multiset (F × A)) = s.accepted)) := by
  have hinv : s.Sound ∧ s.Wakeful := by
    refine run_invariant_of_meets (P := fun s => s.Sound ∧ s.Wakeful) ?_
      ⟨PoolState.initial_sound hsize junk, PoolState.initial_wakeful queueSize junk⟩ hspares hrun
    rintro s l s' ⟨hsound, hwakeful⟩ hspare hl
    have hstep := PoolState.step_cases hsound.shutdown_le hl
    exact ⟨hstep.sound hsound hspare, hstep.wakeful hn hwakeful⟩
  obtain ⟨hsound, hwakeful⟩ := hinv
  exact ⟨hsound.accounted, fun hopen => ⟨fun _ _ hmoves hrun' =>
    length_le_work hsound hmoves hrun', executed_of_no_move hsound hwakeful hopen⟩⟩

end

/-- The task array before the first add, with tasks that are numbers. -/
def emptyTask (_ : Nat) : Task Nat Nat Nat := ⟨0, 0, none, none, false⟩

/-- A run of one worker on one slot in which the add finds the slot free. -/
theorem accepted_executed_once_one_slot :
    ∃ s : PoolState Nat Nat Nat 1,
      run PoolState.step (PoolState.initial 1 1 emptyTask)
        [.add 1 10 none, .region 0, .load 0, .call 0 none, .store 0, .complete 0, .region 0] =
          some s ∧
      s.accepted = [(1, 10)] ∧ (s.executed : Multiset (Nat × Nat)) = s.accepted := by
  obtain ⟨s, hrun, hopen, hasleep, haccepted⟩ : ∃ s : PoolState Nat Nat Nat 1,
      run PoolState.step (PoolState.initial 1 1 emptyTask)
        [.add 1 10 none, .region 0, .load 0, .call 0 none, .store 0, .complete 0, .region 0] =
          some s ∧
      s.pool.shutdown = 0 ∧ (∀ w, s.workers w = .asleep) ∧ s.accepted = [(1, 10)] :=
    ⟨_, rfl, rfl, by decide, rfl⟩
  obtain ⟨-, hdone⟩ := accepted_executed_once Nat.one_pos Nat.one_pos emptyTask _ s hrun
    (by decide)
  exact ⟨s, hrun, haccepted, (hdone hopen).2 fun l hl => PoolState.step_of_asleep hasleep hl⟩

/-- One worker and one slot: the second add fills the slot of the first one before the
worker has read it. The second job is executed twice, the first one never. -/
theorem accepted_executed_once_overwritten :
    ∃ s : PoolState Nat Nat Nat 1,
      run PoolState.step (PoolState.initial 1 1 emptyTask)
        [.add 1 10 none, .region 0, .add 2 20 none,
          .load 0, .call 0 none, .store 0, .complete 0,
          .region 0, .load 0, .call 0 none, .store 0, .complete 0] = some s ∧
      s.pool.shutdown = 0 ∧ s.accepted = [(1, 10), (2, 20)] ∧
      s.executed = [(2, 20), (2, 20)] ∧ (1, 10) ∉ s.executed :=
  ⟨_, rfl, rfl, rfl, rfl, by decide⟩

end SelectServer
