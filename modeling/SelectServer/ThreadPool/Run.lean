import Mathlib.Data.Fintype.Basic
import SelectServer.ThreadPool.Queue

/-!
# Runs of the pool

The workers and the callers of the pool as a transition system. A region under a lock is one
step; between its regions a worker reads the task of its slot, calls the function, and
stores the result, each a step of its own, so that any other step may come in between.

`accepted` and `calls` record what happened: the jobs of the adds that returned 0, and the
calls of task functions with the values they returned. The value of a call is arbitrary.
-/

namespace SelectServer

open Systems

/-! ## State -/

/-- Where a worker is in the loop of `threadpool_thread`. -/
inductive Worker (F A V : Type*)
  /-- in `pthread_cond_wait` -/
  | asleep
  /-- about to enter its region -/
  | awake
  /-- behind the region, the slot not yet read -/
  | claimed (slot : Nat)
  /-- function and argument read, the function not yet called -/
  | loaded (slot : Nat) (function : F) (argument : A)
  /-- the function has returned -/
  | called (slot : Nat) (result : Option V)
  /-- the result is stored, the task not yet marked as done -/
  | stored (slot : Nat)
  /-- behind the loop -/
  | left
  deriving DecidableEq, Repr

/-- A pool with its workers. `lockHeld` is a lock that a caller has returned with, `joining`
a `threadpool_destroy` that waits for the workers, `destroyed` one that has returned 0. -/
structure PoolState (F A V : Type*) (n : Nat) where
  pool : Pool F A V
  workers : Fin n → Worker F A V
  lockHeld : Bool
  joining : Bool
  destroyed : Bool
  accepted : List (F × A)
  calls : List ((F × A) × Option V)

/-- A step. `add` names the worker that `pthread_cond_signal` wakes, if any sleeps; `wake`
is a spurious wake-up. -/
inductive PoolLabel (F A V : Type*) (n : Nat)
  | add (function : F) (argument : A) (woken : Option (Fin n))
  | region (w : Fin n)
  | wake (w : Fin n)
  | load (w : Fin n)
  | call (w : Fin n) (result : Option V)
  | store (w : Fin n)
  | complete (w : Fin n)
  | destroy (flags : Nat)
  | join

section

variable {F A V : Type*} {n : Nat}

def Worker.isAsleep : Worker F A V → Bool
  | .asleep => true
  | _ => false

def Worker.hasLeft : Worker F A V → Bool
  | .left => true
  | _ => false

/-- The state in which `threadpool_create` returns the pool: the workers have started. -/
def PoolState.initial (n queueSize : Nat) (junk : Nat → Task F A V) : PoolState F A V n where
  pool := Pool.initial n queueSize junk
  workers := fun _ => .awake
  lockHeld := false
  joining := false
  destroyed := false
  accepted := []
  calls := []

/-- One worker moves on. -/
def PoolState.setWorker (s : PoolState F A V n) (w : Fin n) (worker : Worker F A V) :
    PoolState F A V n :=
  { s with workers := Function.update s.workers w worker }

/-- The workers that `pthread_cond_signal` may wake: one that sleeps, where one does. -/
def Wakes (workers : Fin n → Worker F A V) : Option (Fin n) → Bool
  | some w => (workers w).isAsleep
  | none => decide (∀ w, (workers w).isAsleep = false)

/-- The workers after `pthread_cond_signal`. -/
def signal (workers : Fin n → Worker F A V) : Option (Fin n) → Fin n → Worker F A V
  | some w => Function.update workers w .awake
  | none => workers

/-- The workers after `pthread_cond_broadcast`. -/
def broadcast (workers : Fin n → Worker F A V) (w : Fin n) : Worker F A V :=
  if (workers w).isAsleep then .awake else workers w

/-- Change the task of a slot. -/
def Pool.setTask (pool : Pool F A V) (slot : Nat) (task : Task F A V) : Pool F A V :=
  { pool with taskQueue := Function.update pool.taskQueue slot task }

/-! ## Steps -/

/-- The step function of the pool; `none` where the step is not enabled. No region can be
entered while the lock is held, and no call is made on a pool that has been freed. -/
def PoolState.step (s : PoolState F A V n) : PoolLabel F A V n → Option (PoolState F A V n)
  | .add function argument woken =>
    if s.lockHeld || s.destroyed then none
    else
      -- the lock and unlock inside succeed; an add that fails wakes nobody
      let r := threadpoolAdd ⟨true, true, true⟩ s.pool (some function) argument
      if r.ret = 0 then
        if Wakes s.workers woken then
          some { s with
            pool := r.pool
            workers := signal s.workers woken
            accepted := s.accepted ++ [(function, argument)] }
        else none
      else if woken = none then some { s with pool := r.pool }
      else none
  | .region w =>
    match s.lockHeld, s.workers w with
    | false, .awake =>
      -- a worker that waits is back at the test of its loop when it wakes up
      match s.pool.threadRegion with
      | .wait => some (s.setWorker w .asleep)
      | .leave =>
        some { s.setWorker w .left with pool := { s.pool with started := s.pool.started - 1 } }
      | .take slot pool => some { s.setWorker w (.claimed slot) with pool := pool }
    | _, _ => none
  | .wake w =>
    match s.workers w with
    | .asleep => some (s.setWorker w .awake)
    | _ => none
  | .load w =>
    match s.workers w with
    | .claimed slot =>
      -- the slot as it is now, which an add may have filled again
      let task := s.pool.taskQueue slot
      some (s.setWorker w (.loaded slot task.function task.argument))
    | _ => none
  | .call w result =>
    match s.workers w with
    | .loaded slot function argument =>
      some { s.setWorker w (.called slot result) with
        calls := s.calls ++ [((function, argument), result)] }
    | _ => none
  | .store w =>
    match s.workers w with
    | .called slot result =>
      some { s.setWorker w (.stored slot) with
        pool := s.pool.setTask slot { s.pool.taskQueue slot with result := result } }
    | _ => none
  | .complete w =>
    match s.workers w with
    | .stored slot =>
      some { s.setWorker w .awake with
        pool := s.pool.setTask slot { s.pool.taskQueue slot with done := true } }
    | _ => none
  | .destroy flags =>
    if s.lockHeld || s.destroyed then none
    else
      let r := s.pool.destroyRegion ⟨true, true⟩ flags
      -- the error exit returns with the lock held
      if r.err = 0 then
        some { s with pool := r.pool, workers := broadcast s.workers, joining := true }
      else some { s with pool := r.pool, lockHeld := r.lockHeld }
  | .join =>
    if s.joining ∧ ∀ w, (s.workers w).hasLeft = true then
      some { s with joining := false, destroyed := true }
    else none

/-- What a step can do, guards included. -/
inductive PoolState.Step (s : PoolState F A V n) : PoolLabel F A V n → PoolState F A V n → Prop
  | refuse {function : F} {argument : A}
      (hclosed : s.pool.count = s.pool.queueSize ∨ s.pool.shutdown ≠ 0) :
      Step s (.add function argument none) s
  | add {function : F} {argument : A} {woken : Option (Fin n)}
      (hroom : s.pool.count ≠ s.pool.queueSize) (hopen : s.pool.shutdown = 0)
      (hwakes : Wakes s.workers woken = true) :
      Step s (.add function argument woken) { s with
        pool := s.pool.append function argument
        workers := signal s.workers woken
        accepted := s.accepted ++ [(function, argument)] }
  | wait {w : Fin n} (hw : s.workers w = .awake) (hopen : s.pool.shutdown = 0)
      (hcount : s.pool.count = 0) : Step s (.region w) (s.setWorker w .asleep)
  | leave {w : Fin n} (hw : s.workers w = .awake) (hdown : s.pool.shutdown = 1) :
      Step s (.region w)
        { s.setWorker w .left with pool := { s.pool with started := s.pool.started - 1 } }
  | take {w : Fin n} (hw : s.workers w = .awake) (hopen : s.pool.shutdown = 0)
      (hcount : 0 < s.pool.count) :
      Step s (.region w)
        { s.setWorker w (.claimed s.pool.head) with pool := s.pool.removeHead }
  | wake {w : Fin n} (hw : s.workers w = .asleep) : Step s (.wake w) (s.setWorker w .awake)
  | load {w : Fin n} {slot : Nat} (hw : s.workers w = .claimed slot) :
      Step s (.load w) (s.setWorker w (.loaded slot (s.pool.taskQueue slot).function
        (s.pool.taskQueue slot).argument))
  | call {w : Fin n} {slot : Nat} {function : F} {argument : A} {result : Option V}
      (hw : s.workers w = .loaded slot function argument) :
      Step s (.call w result) { s.setWorker w (.called slot result) with
        calls := s.calls ++ [((function, argument), result)] }
  | store {w : Fin n} {slot : Nat} {result : Option V}
      (hw : s.workers w = .called slot result) :
      Step s (.store w) { s.setWorker w (.stored slot) with
        pool := s.pool.setTask slot { s.pool.taskQueue slot with result := result } }
  | complete {w : Fin n} {slot : Nat} (hw : s.workers w = .stored slot) :
      Step s (.complete w) { s.setWorker w .awake with
        pool := s.pool.setTask slot { s.pool.taskQueue slot with done := true } }
  | destroy {flags : Nat} (hopen : s.pool.shutdown = 0) (hlive : s.destroyed = false) :
      Step s (.destroy flags) { s with
        pool := { s.pool with shutdown := 1 }
        workers := broadcast s.workers
        joining := true }
  | destroyAgain {flags : Nat} (hdown : s.pool.shutdown ≠ 0) :
      Step s (.destroy flags) { s with lockHeld := true }
  | join (hjoining : s.joining = true) (hleft : ∀ w, (s.workers w).hasLeft = true) :
      Step s .join { s with joining := false, destroyed := true }

/-- Every step of the step function is one of these. -/
theorem PoolState.step_cases {s s' : PoolState F A V n} {l : PoolLabel F A V n}
    (hdown : s.pool.shutdown ≤ 1) (h : s.step l = some s') : s.Step l s' := by
  cases l with
  | add function argument woken =>
    simp only [PoolState.step, threadpoolAdd, if_true] at h
    split at h
    · cases h
    · -- full, closed, or room: only the last wakes a worker
      rcases s.pool.addRegion_cases function argument with ⟨hfull, hadd⟩ | ⟨hfull, hdown, hadd⟩ |
        ⟨hfull, hopen, hadd⟩
      · rw [hadd, if_neg (by decide : ¬ threadpoolQueueFull = 0)] at h
        split at h
        · rename_i hwoken
          obtain rfl := Option.some.inj h
          exact hwoken ▸ .refuse (.inl hfull)
        · cases h
      · rw [hadd, if_neg (by decide : ¬ threadpoolShutdown = 0)] at h
        split at h
        · rename_i hwoken
          obtain rfl := Option.some.inj h
          exact hwoken ▸ .refuse (.inr hdown)
        · cases h
      · rw [hadd, if_pos rfl] at h
        split at h
        · rename_i hwakes
          obtain rfl := Option.some.inj h
          exact .add hfull hopen hwakes
        · cases h
  | region w =>
    simp only [PoolState.step] at h
    split at h
    · rename_i hw
      -- the pool is open and empty, it is shut down, or there is a task
      rcases Pool.threadRegion_cases hdown with ⟨hopen, hcount, hregion⟩ | ⟨hdown, hregion⟩ |
        ⟨hopen, hcount, hregion⟩
      · simp only [hregion, Option.some.injEq] at h
        exact h ▸ .wait hw hopen hcount
      · simp only [hregion, Option.some.injEq] at h
        exact h ▸ .leave hw hdown
      · simp only [hregion, Option.some.injEq] at h
        exact h ▸ .take hw hopen hcount
    · cases h
  | wake w =>
    -- the steps of a worker between its regions need no more than its state
    simp only [PoolState.step] at h
    split at h
    · rename_i hw
      exact Option.some.inj h ▸ .wake hw
    · cases h
  | load w =>
    simp only [PoolState.step] at h
    split at h
    · rename_i slot hw
      exact Option.some.inj h ▸ .load hw
    · cases h
  | call w result =>
    simp only [PoolState.step] at h
    split at h
    · rename_i slot function argument hw
      exact Option.some.inj h ▸ .call hw
    · cases h
  | store w =>
    simp only [PoolState.step] at h
    split at h
    · rename_i slot result hw
      exact Option.some.inj h ▸ .store hw
    · cases h
  | complete w =>
    simp only [PoolState.step] at h
    split at h
    · rename_i slot hw
      exact Option.some.inj h ▸ .complete hw
    · cases h
  | destroy flags =>
    simp only [PoolState.step] at h
    split at h
    · cases h
    · rename_i hlive
      -- the first call shuts the pool down, the others are refused
      by_cases hzero : s.pool.shutdown = 0
      · have hregion : s.pool.destroyRegion ⟨true, true⟩ flags =
            ⟨0, false, { s.pool with shutdown := 1 }⟩ := by
          rw [Pool.destroyRegion_eq, if_neg (by simp [hzero])]
        rw [hregion, if_pos rfl] at h
        obtain rfl := Option.some.inj h
        simp only [Bool.or_eq_true, not_or, Bool.not_eq_true] at hlive
        exact .destroy hzero hlive.2
      · have hregion : s.pool.destroyRegion ⟨true, true⟩ flags =
            ⟨threadpoolShutdown, true, s.pool⟩ := by
          rw [Pool.destroyRegion_eq, if_pos hzero]
        rw [hregion, if_neg (by decide : ¬ threadpoolShutdown = 0)] at h
        obtain rfl := Option.some.inj h
        exact .destroyAgain hzero
  | join =>
    simp only [PoolState.step] at h
    split at h
    · rename_i hjoin
      obtain rfl := Option.some.inj h
      exact .join hjoin.1 hjoin.2
    · cases h

/-- A step that a worker makes on its own, spurious wake-ups excepted. -/
def PoolLabel.isMove : PoolLabel F A V n → Bool
  | .region _ | .load _ | .call _ _ | .store _ | .complete _ => true
  | _ => false

/-- While all workers sleep, none of them makes a step on its own. -/
theorem PoolState.step_of_asleep {s : PoolState F A V n} (h : ∀ w, s.workers w = .asleep)
    {l : PoolLabel F A V n} (hmove : l.isMove = true) : s.step l = none := by
  cases l with
  | region w => cases hlock : s.lockHeld <;> simp [PoolState.step, h w, hlock]
  | load w => simp [PoolState.step, h w]
  | call w result => simp [PoolState.step, h w]
  | store w => simp [PoolState.step, h w]
  | complete w => simp [PoolState.step, h w]
  | _ => cases hmove

/-- A worker that neither sleeps nor has left can move on. -/
theorem PoolState.worker_moves {s : PoolState F A V n} (hdown : s.pool.shutdown ≤ 1)
    (hlock : s.lockHeld = false) (w : Fin n) (hasleep : s.workers w ≠ .asleep)
    (hleft : s.workers w ≠ .left) : ∃ l s', s.step l = some s' ∧ l.isMove = true := by
  cases hw : s.workers w with
  | asleep => exact absurd hw hasleep
  | left => exact absurd hw hleft
  | awake =>
    -- whatever the region decides, the worker can enter it
    rcases Pool.threadRegion_cases hdown with ⟨-, -, hregion⟩ | ⟨-, hregion⟩ | ⟨-, -, hregion⟩ <;>
      exact ⟨.region w, _, by simp only [PoolState.step, hlock, hw, hregion]; rfl, rfl⟩
  | claimed slot => exact ⟨.load w, _, by simp only [PoolState.step, hw]; rfl, rfl⟩
  | loaded slot function argument =>
    -- the function returns some value
    exact ⟨.call w none, _, by simp only [PoolState.step, hw]; rfl, rfl⟩
  | called slot result => exact ⟨.store w, _, by simp only [PoolState.step, hw]; rfl, rfl⟩
  | stored slot => exact ⟨.complete w, _, by simp only [PoolState.step, hw]; rfl, rfl⟩

end

end SelectServer
