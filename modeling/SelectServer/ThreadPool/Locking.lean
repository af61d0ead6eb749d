import SelectServer.ThreadPool.Execution

/-!
# Who holds the lock of the pool

Any number of callers of `threadpool_add` and `threadpool_destroy` with the workers of one pool,
step by step, with the results of the pthread calls. `ThreadPool.Run` has the tasks and no
failures; here a thread is what it does to `pool->lock`, and every call may fail.

A caller that returns with the lock leaves it to nobody: the workers and all other callers wait
for it forever. `lock_released_iff` says in which runs no caller does.
-/

namespace SelectServer

open Systems

/-! ## Threads -/

/-- Where a caller of the pool is. -/
inductive PoolCaller (F A : Type*)
  /-- in no call; `last` is the result of the last one -/
  | outside (last : Option Int)
  /-- in `threadpool_add`, behind `pthread_mutex_lock` -/
  | adding (function : F) (argument : A)
  /-- in `threadpool_destroy`, behind `pthread_mutex_lock` -/
  | destroying (flags : Nat)
  /-- in `threadpool_destroy`, about to join thread `i` -/
  | joining (i : Nat)
  deriving DecidableEq, Repr

/-- Where a worker is in `threadpool_thread`. -/
inductive PoolWorker
  /-- about to lock the pool -/
  | outside
  /-- behind `pthread_mutex_lock` -/
  | inside
  /-- in `pthread_cond_wait` -/
  | waiting
  /-- with a task, behind the unlock -/
  | running
  /-- behind the loop -/
  | leaving
  | left
  deriving DecidableEq, Repr

/-- The thread that holds the lock. -/
inductive LockHolder (κ : Type*) (n : Nat)
  | caller (k : κ)
  | worker (w : Fin n)
  deriving DecidableEq, Repr

/-- A pool with its lock, its callers and its workers. -/
structure LockedPool (κ F A V : Type*) (n : Nat) where
  pool : Pool F A V
  lock : Option (LockHolder κ n)
  callers : κ → PoolCaller F A
  workers : Fin n → PoolWorker
  freed : Bool

/-- A step; the Boolean arguments are the results of the pthread calls in it, `true` for
success. -/
inductive LockLabel (κ F A : Type*) (n : Nat)
  /-- `threadpool_add` up to its `pthread_mutex_lock` -/
  | add (k : κ) (function : Option F) (argument : A) (locked : Bool)
  /-- the rest of it -/
  | addRegion (k : κ) (signal unlocked : Bool)
  /-- `threadpool_destroy` up to its `pthread_mutex_lock` -/
  | destroy (k : κ) (flags : Nat) (locked : Bool)
  /-- its part under the lock -/
  | destroyRegion (k : κ) (calls : DestroyCalls)
  | join (k : κ) (joined : Bool)
  /-- `threadpool_free` -/
  | free (k : κ) (locked : Bool)
  | workerLock (w : Fin n) (locked : Bool)
  /-- the region of a worker up to the call that releases the lock, `pthread_cond_wait` or
  `pthread_mutex_unlock` -/
  | region (w : Fin n) (released : Bool)
  /-- a wake-up, by a signal or a broadcast or by nothing -/
  | wake (w : Fin n)
  /-- the task is executed -/
  | task (w : Fin n)
  /-- `pool->started--` -/
  | exit (w : Fin n)

section

variable {κ F A V : Type*} {n : Nat} [DecidableEq κ]

/-- The pool that `threadpool_create` returns. -/
def LockedPool.initial (n queueSize : Nat) (junk : Nat → Task F A V) : LockedPool κ F A V n where
  pool := Pool.initial n queueSize junk
  lock := none
  callers := fun _ => .outside none
  workers := fun _ => .outside
  freed := false

/-- A caller moves on. -/
def LockedPool.setCaller (s : LockedPool κ F A V n) (k : κ) (caller : PoolCaller F A) :
    LockedPool κ F A V n :=
  { s with callers := Function.update s.callers k caller }

/-- A worker moves on. -/
def LockedPool.setWorker (s : LockedPool κ F A V n) (w : Fin n) (worker : PoolWorker) :
    LockedPool κ F A V n :=
  { s with workers := Function.update s.workers w worker }

/-- `pthread_mutex_unlock`: a success releases the lock, whoever holds it. -/
def LockedPool.unlock (s : LockedPool κ F A V n) (unlocked : Bool) : LockedPool κ F A V n :=
  { s with lock := if unlocked then none else s.lock }

/-! ## Steps -/

/-- `pthread_mutex_lock` by a caller: a success waits for the lock. -/
def LockedPool.callerLock (s : LockedPool κ F A V n) (k : κ) (locked : Bool)
    (behind : PoolCaller F A) : Option (LockedPool κ F A V n) :=
  if locked then
    if s.lock = none then some { s.setCaller k behind with lock := some (.caller k) } else none
  else some (s.setCaller k (.outside (some threadpoolLockFailure)))

/-- The step function; `none` where the step is not enabled. No call is made on a pool that has
been freed. -/
def LockedPool.step (s : LockedPool κ F A V n) :
    LockLabel κ F A n → Option (LockedPool κ F A V n)
  | .add k function argument locked =>
    match s.freed, s.callers k, function with
    | false, .outside _, none => some (s.setCaller k (.outside (some threadpoolInvalid)))
    | false, .outside _, some function => s.callerLock k locked (.adding function argument)
    | _, _, _ => none
  | .addRegion k signal unlocked =>
    match s.callers k with
    | .adding function argument =>
      let r := s.pool.addRegion signal function argument
      some ({ s with pool := r.pool }.setCaller k
        (.outside (some (if unlocked then r.ret else threadpoolLockFailure)))
        |>.unlock unlocked)
    | _ => none
  | .destroy k flags locked =>
    match s.freed, s.callers k with
    | false, .outside _ => s.callerLock k locked (.destroying flags)
    | _, _ => none
  | .destroyRegion k calls =>
    match s.callers k with
    | .destroying flags =>
      let r := s.pool.destroyRegion calls flags
      some ({ s with pool := r.pool }.setCaller k
        (if r.err = 0 then .joining 0 else .outside (some r.err))
        |>.unlock (!r.lockHeld))
    | _ => none
  | .join k joined =>
    match s.callers k with
    | .joining i =>
      if h : i < n then
        if joined then
          if s.workers ⟨i, h⟩ = .left then some (s.setCaller k (.joining (i + 1))) else none
        else some (s.setCaller k (.outside (some threadpoolThreadFailure)))
      else none
    | _ => none
  | .free k locked =>
    match s.callers k with
    | .joining i =>
      if n ≤ i then
        if 0 < s.pool.started then some (s.setCaller k (.outside (some 0)))
        -- the result of this `pthread_mutex_lock` is ignored; the lock goes with the pool
        else if locked ∧ s.lock ≠ none then none
        else some { s.setCaller k (.outside (some 0)) with freed := true, lock := none }
      else none
    | _ => none
  | .workerLock w locked =>
    match s.freed, s.workers w with
    | false, .outside =>
      -- the result is ignored: a worker that fails goes on without the lock
      if locked then
        if s.lock = none then some { s.setWorker w .inside with lock := some (.worker w) }
        else none
      else some (s.setWorker w .inside)
    | _, _ => none
  | .region w released =>
    match s.workers w with
    | .inside =>
      match s.pool.threadRegion with
      | .wait =>
        -- a wait that fails is at the test of its loop again
        some (if released then (s.setWorker w .waiting).unlock true else s)
      | .leave => some ((s.setWorker w .leaving).unlock released)
      | .take _ pool => some (({ s with pool := pool }.setWorker w .running).unlock released)
    | _ => none
  | .wake w => if s.workers w = .waiting then some (s.setWorker w .outside) else none
  | .task w => if s.workers w = .running then some (s.setWorker w .outside) else none
  | .exit w =>
    if s.workers w = .leaving then
      some { s.setWorker w .left with pool := { s.pool with started := s.pool.started - 1 } }
    else none

/-! ## Returning without the lock -/

/-- A caller between the lock and the unlock of its call. -/
def PoolCaller.inRegion : PoolCaller F A → Bool
  | .adding _ _ | .destroying _ => true
  | .outside _ | .joining _ => false

/-- A caller that holds the lock is between the lock and the unlock of its call; one that has
returned does not hold it. -/
def LockedPool.Released (s : LockedPool κ F A V n) : Prop :=
  ∀ k, s.lock = some (.caller k) → (s.callers k).inRegion = true

/-- The unlock in `threadpool_add` succeeds, and a `threadpool_destroy` finds the pool open, and
its broadcast and its unlock succeed, at least when these are the calls that have the lock. -/
def KeepsLock (s : LockedPool κ F A V n) : LockLabel κ F A n → Prop
  | .addRegion k _ unlocked => s.lock = some (.caller k) → unlocked = true
  | .destroyRegion k calls => s.lock = some (.caller k) →
      s.pool.shutdown = 0 ∧ calls.broadcast = true ∧ calls.unlock = true
  | _ => True

instance (s : LockedPool κ F A V n) : ∀ l, Decidable (KeepsLock s l)
  | .addRegion _ _ _ => inferInstanceAs (Decidable (_ → _))
  | .destroyRegion _ _ => inferInstanceAs (Decidable (_ → _))
  | .add _ _ _ _ | .destroy _ _ _ | .join _ _ | .free _ _ | .workerLock _ _ | .region _ _ |
    .wake _ | .task _ | .exit _ => isTrue trivial

variable {s s' : LockedPool κ F A V n} {k : κ}

omit [DecidableEq κ] in
/-- Nothing is asked of a lock that no caller holds. -/
theorem released_of_ne (h : ∀ k, s.lock ≠ some (.caller k)) : s.Released :=
  fun k hk => absurd hk (h k)

/-- A caller that is not in its region does not hold the lock, and may move on. -/
theorem LockedPool.Released.setCaller (h : s.Released) (hk : (s.callers k).inRegion = false)
    (caller : PoolCaller F A) : (s.setCaller k caller).Released := by
  intro k' hk'
  have hin := h k' hk'
  have hne : k' ≠ k := by
    rintro rfl
    rw [hk] at hin
    cases hin
  show ((Function.update s.callers k caller) k').inRegion = true
  rw [Function.update_of_ne hne]
  exact hin

/-- The lock is handed to a caller together with its region. -/
theorem released_callerLock (h : s.Released) (hk : (s.callers k).inRegion = false)
    {locked : Bool} {behind : PoolCaller F A} (hbehind : behind.inRegion = true)
    (hstep : s.callerLock k locked behind = some s') : s'.Released := by
  unfold LockedPool.callerLock at hstep
  split at hstep
  · simp only [Option.ite_none_right_eq_some, Option.some.injEq] at hstep
    obtain ⟨-, rfl⟩ := hstep
    intro k' hk'
    obtain rfl : k = k' := by simpa using hk'
    show ((Function.update s.callers k behind) k).inRegion = true
    rw [Function.update_self]
    exact hbehind
  · obtain rfl := Option.some.inj hstep
    exact h.setCaller hk _

/-- A caller leaves its region without the lock exactly if it releases it or has lost it. -/
theorem released_leave_iff (h : s.Released) {caller : PoolCaller F A}
    (hcaller : caller.inRegion = false) (pool : Pool F A V) (unlocked : Bool) :
    (({ s with pool := pool }.setCaller k caller).unlock unlocked).Released ↔
      (s.lock = some (.caller k) → unlocked = true) := by
  cases unlocked with
  | true =>
    refine iff_of_true (released_of_ne fun k' hk' => ?_) fun _ => rfl
    cases hk'
  | false =>
    constructor
    · intro hreleased hk
      have hin : ((Function.update s.callers k caller) k).inRegion = true := hreleased k hk
      rw [Function.update_self, hcaller] at hin
      cases hin
    · intro hk k' hk'
      have hne : k' ≠ k := by
        rintro rfl
        cases hk hk'
      show ((Function.update s.callers k caller) k').inRegion = true
      rw [Function.update_of_ne hne]
      exact h k' hk'

omit [DecidableEq κ] in
/-- What a worker does leaves the callers alone. -/
theorem LockedPool.Released.of_callers (h : s.Released) (hcallers : s'.callers = s.callers)
    (hlock : s'.lock = s.lock ∨ ∀ k, s'.lock ≠ some (.caller k)) : s'.Released := by
  rcases hlock with hlock | hlock
  · intro k hk
    rw [hcallers]
    exact h k (hlock ▸ hk)
  · exact released_of_ne hlock

theorem destroyRegion_lockHeld (pool : Pool F A V) (calls : DestroyCalls) (flags : Nat) :
    ((!(pool.destroyRegion calls flags).lockHeld) = true ↔
      pool.shutdown = 0 ∧ calls.broadcast = true ∧ calls.unlock = true) := by
  unfold Pool.destroyRegion
  by_cases hdown : pool.shutdown = 0
  · by_cases hcalls : calls.broadcast = true ∧ calls.unlock = true
    · simp [hdown, hcalls]
    · simp [hdown, hcalls]
  · simp [hdown]

theorem LockedPool.Released.add (h : s.Released) {function : Option F} {argument : A}
    {locked : Bool} (hstep : s.step (.add k function argument locked) = some s') : s'.Released := by
  simp only [LockedPool.step] at hstep
  split at hstep
  · obtain rfl := Option.some.inj hstep
    exact h.setCaller (by rw [‹s.callers k = _›]; rfl) _
  · exact released_callerLock h (by rw [‹s.callers k = _›]; rfl) rfl hstep
  · cases hstep

theorem LockedPool.Released.destroy (h : s.Released) {flags : Nat} {locked : Bool}
    (hstep : s.step (.destroy k flags locked) = some s') : s'.Released := by
  simp only [LockedPool.step] at hstep
  split at hstep
  · exact released_callerLock h (by rw [‹s.callers k = _›]; rfl) rfl hstep
  · cases hstep

theorem LockedPool.Released.join (h : s.Released) {joined : Bool}
    (hstep : s.step (.join k joined) = some s') : s'.Released := by
  simp only [LockedPool.step] at hstep
  split at hstep
  · have hk : (s.callers k).inRegion = false := by rw [‹s.callers k = _›]; rfl
    split at hstep
    · split at hstep
      · simp only [Option.ite_none_right_eq_some, Option.some.injEq] at hstep
        obtain ⟨-, rfl⟩ := hstep
        exact h.setCaller hk _
      · obtain rfl := Option.some.inj hstep
        exact h.setCaller hk _
    · cases hstep
  · cases hstep

theorem LockedPool.Released.free (h : s.Released) {locked : Bool}
    (hstep : s.step (.free k locked) = some s') : s'.Released := by
  simp only [LockedPool.step] at hstep
  split at hstep
  · have hk : (s.callers k).inRegion = false := by rw [‹s.callers k = _›]; rfl
    simp only [Option.ite_none_right_eq_some] at hstep
    obtain ⟨-, hstep⟩ := hstep
    split at hstep
    · obtain rfl := Option.some.inj hstep
      exact h.setCaller hk _
    · simp only [Option.ite_none_left_eq_some, Option.some.injEq] at hstep
      obtain ⟨-, rfl⟩ := hstep
      exact released_of_ne fun k' hk' => by cases hk'
  · cases hstep

theorem LockedPool.Released.workerLock (h : s.Released) {w : Fin n} {locked : Bool}
    (hstep : s.step (.workerLock w locked) = some s') : s'.Released := by
  simp only [LockedPool.step] at hstep
  split at hstep
  · split at hstep
    · simp only [Option.ite_none_right_eq_some, Option.some.injEq] at hstep
      obtain ⟨-, rfl⟩ := hstep
      exact h.of_callers rfl (Or.inr fun k hk => by cases hk)
    · obtain rfl := Option.some.inj hstep
      exact h.of_callers rfl (Or.inl rfl)
  · cases hstep

theorem LockedPool.Released.region (h : s.Released) {w : Fin n} {released : Bool}
    (hstep : s.step (.region w released) = some s') : s'.Released := by
  simp only [LockedPool.step] at hstep
  -- whatever the region does, a release leaves the lock free, a failure leaves it as it was
  have hlock : ∀ (t : LockedPool κ F A V n), t.lock = s.lock →
      (t.unlock released).lock = s.lock ∨ ∀ k, (t.unlock released).lock ≠ some (.caller k) := by
    intro t ht
    cases released with
    | true => exact Or.inr fun k hk => by cases hk
    | false => exact Or.inl ht
  split at hstep
  · split at hstep
    · obtain rfl := Option.some.inj hstep
      cases released with
      | true => exact h.of_callers rfl (hlock (s.setWorker w .waiting) rfl)
      | false => exact h
    · obtain rfl := Option.some.inj hstep
      exact h.of_callers rfl (hlock (s.setWorker w .leaving) rfl)
    · obtain rfl := Option.some.inj hstep
      exact h.of_callers rfl (hlock _ rfl)
  · cases hstep

/-- A step keeps the lock with those who are in their regions exactly if it meets the
condition. -/
theorem LockedPool.step_released_iff (h : s.Released) {l : LockLabel κ F A n}
    (hstep : s.step l = some s') : KeepsLock s l ↔ s'.Released := by
  cases l with
  | add k function argument locked => exact iff_of_true trivial (h.add hstep)
  | addRegion k signal unlocked =>
    simp only [LockedPool.step] at hstep
    split at hstep
    · obtain rfl := Option.some.inj hstep
      exact (released_leave_iff h rfl _ unlocked).symm
    · cases hstep
  | destroy k flags locked => exact iff_of_true trivial (h.destroy hstep)
  | destroyRegion k calls =>
    simp only [LockedPool.step] at hstep
    split at hstep
    · obtain rfl := Option.some.inj hstep
      rw [released_leave_iff h (by split <;> rfl), destroyRegion_lockHeld]
      rfl
    · cases hstep
  | join k joined => exact iff_of_true trivial (h.join hstep)
  | free k locked => exact iff_of_true trivial (h.free hstep)
  | workerLock w locked => exact iff_of_true trivial (h.workerLock hstep)
  | region w released => exact iff_of_true trivial (h.region hstep)
  | wake w =>
    simp only [LockedPool.step, Option.ite_none_right_eq_some, Option.some.injEq] at hstep
    obtain ⟨-, rfl⟩ := hstep
    exact iff_of_true trivial (h.of_callers rfl (Or.inl rfl))
  | task w =>
    simp only [LockedPool.step, Option.ite_none_right_eq_some, Option.some.injEq] at hstep
    obtain ⟨-, rfl⟩ := hstep
    exact iff_of_true trivial (h.of_callers rfl (Or.inl rfl))
  | exit w =>
    simp only [LockedPool.step, Option.ite_none_right_eq_some, Option.some.injEq] at hstep
    obtain ⟨-, rfl⟩ := hstep
    exact iff_of_true trivial (h.of_callers rfl (Or.inl rfl))

omit [DecidableEq κ] in
theorem LockedPool.initial_released (queueSize : Nat) (junk : Nat → Task F A V) :
    (LockedPool.initial n queueSize junk : LockedPool κ F A V n).Released :=
  released_of_ne fun k hk => by cases hk

/-- In a run of any callers with the workers, no call ever returns with the lock exactly if every
step meets the condition: no unlock of `threadpool_add` fails, and every `threadpool_destroy`
that gets the lock is the first one, and its broadcast and its unlock succeed. -/
theorem lock_released_iff (queueSize : Nat) (junk : Nat → Task F A V)
    (ls : List (LockLabel κ F A n))
    (hrun : run LockedPool.step (LockedPool.initial n queueSize junk) ls = some s) :
    Meets LockedPool.step (fun s l => ∀ s', s.step l = some s' → s'.Released)
        (LockedPool.initial n queueSize junk) ls ↔
      Meets LockedPool.step KeepsLock (LockedPool.initial n queueSize junk) ls :=
  (meets_iff_of_step (fun _ _ _ h hstep => LockedPool.step_released_iff h hstep)
    (LockedPool.initial_released queueSize junk) hrun).symm

end

/-- A caller adds a task and destroys the pool. -/
def addAndDestroy : List (LockLabel Bool Nat Nat 1) :=
  [.add true (some 1) 10 true, .addRegion true true true, .workerLock 0 true, .region 0 true,
    .task 0, .destroy true threadpoolGraceful true, .destroyRegion true ⟨true, true⟩,
    .workerLock 0 true, .region 0 true, .exit 0, .join true true, .free true true]

theorem lock_released_addAndDestroy :
    ∃ s : LockedPool Bool Nat Nat Nat 1,
      run LockedPool.step (LockedPool.initial 1 1 emptyTask) addAndDestroy = some s ∧
        s.callers true = .outside (some 0) ∧
        Meets LockedPool.step (fun s l => ∀ s', s.step l = some s' → s'.Released)
          (LockedPool.initial 1 1 emptyTask : LockedPool Bool Nat Nat Nat 1) addAndDestroy := by
  obtain ⟨s, hrun, hret⟩ : ∃ s : LockedPool Bool Nat Nat Nat 1,
      run LockedPool.step (LockedPool.initial 1 1 emptyTask) addAndDestroy = some s ∧
        s.callers true = .outside (some 0) := ⟨_, rfl, rfl⟩
  exact ⟨s, hrun, hret, (lock_released_iff 1 emptyTask addAndDestroy hrun).mpr (by decide)⟩

/-- A second destroy, while the first one joins the worker, returns `THREADPOOL_SHUTDOWN` with
the lock. The worker cannot enter its region, so the first destroy waits for it forever. -/
theorem lock_kept_by_destroy :
    ∃ s : LockedPool Bool Nat Nat Nat 1,
      run LockedPool.step (LockedPool.initial 1 1 emptyTask)
        [.destroy true 0 true, .destroyRegion true ⟨true, true⟩, .destroy false 0 true,
          .destroyRegion false ⟨true, true⟩] = some s ∧
        s.callers false = .outside (some threadpoolShutdown) ∧
        s.lock = some (.caller false) ∧ ¬ s.Released ∧
        s.callers true = .joining 0 ∧ s.workers 0 = .outside ∧
        s.step (.workerLock 0 true) = none := by
  refine ⟨_, rfl, rfl, rfl, fun h => ?_, rfl, rfl, rfl⟩
  exact absurd (h false rfl) (by decide)

end SelectServer
