import Mathlib.Logic.Function.Basic
import Mathlib.Data.Int.Basic

/-!
# The thread pool of `shared/threadpool.c`

The pool, its tasks, and its functions up to the points where they let go of the lock:
`threadpool_create`, `threadpool_add`, the region in which a worker looks for a task, and
`threadpool_destroy` up to its joins. A region under the lock is one function; what the
threads do between the regions is a matter of `ThreadPool.Run`.

`F` are the task functions, `A` their arguments and `V` what their results point to;
`none : Option V` is the result NULL.
-/

namespace SelectServer

/-! ## Constants -/

/-- `THREADPOOL_INVALID`. -/
def threadpoolInvalid : Int := -1

/-- `THREADPOOL_LOCK_FAILURE`. -/
def threadpoolLockFailure : Int := -2

/-- `THREADPOOL_QUEUE_FULL`. -/
def threadpoolQueueFull : Int := -3

/-- `THREADPOOL_SHUTDOWN`. -/
def threadpoolShutdown : Int := -4

/-- `THREADPOOL_THREAD_FAILURE`. -/
def threadpoolThreadFailure : Int := -5

/-- `THREADPOOL_GRACEFUL`. -/
def threadpoolGraceful : Nat := 1

/-! ## Data -/

/-- `threadpool_task_t`, less its mutex and condition; `thread` is the index of the thread
the field points to. -/
structure Task (F A V : Type*) where
  function : F
  argument : A
  result : Option V
  thread : Option Nat
  done : Bool
  deriving DecidableEq, Repr

/-- `threadpool_t`, less the mutex, the condition and the array of thread ids. A pool exists
only for sizes that are not negative. -/
structure Pool (F A V : Type*) where
  taskQueue : Nat → Task F A V
  threadCount : Nat
  queueSize : Nat
  head : Nat
  tail : Nat
  count : Nat
  shutdown : Nat
  started : Nat

section

variable {F A V : Type*}

/-! ## `threadpool_create` -/

/-- The results of the calls of `threadpool_create`: does each succeed, and what the task
array contains at first. -/
structure CreateCalls (F A V : Type*) where
  pool : Bool
  threads : Bool
  taskQueue : Bool
  mutexInit : Bool
  condInit : Bool
  pthreadCreate : Nat → Bool
  junk : Nat → Task F A V

/-- All calls succeed, and the array is zero. -/
def CreateCalls.ideal : CreateCalls Nat Nat Nat where
  pool := true
  threads := true
  taskQueue := true
  mutexInit := true
  condInit := true
  pthreadCreate := fun _ => true
  junk := fun _ => ⟨0, 0, none, none, false⟩

/-- What `threadpool_create` comes to: NULL, a pool, or a pool of which a thread could not be
created, which is given to `threadpool_destroy` before NULL is returned. -/
inductive Created (F A V : Type*)
  | null
  | pool (p : Pool F A V)
  | cleanUp (p : Pool F A V)

/-- The loop that creates the threads, `remaining` of them still to be created. -/
def startThreads (pthreadCreate : Nat → Bool) : Nat → Pool F A V → Created F A V
  | 0, pool => .pool pool
  | remaining + 1, pool =>
    -- the thread created is number `started`
    if pthreadCreate pool.started then
      startThreads pthreadCreate remaining { pool with started := pool.started + 1 }
    else .cleanUp pool

/-- `threadpool_create`. An array of a negative number of elements cannot be allocated. -/
def threadpoolCreate (calls : CreateCalls F A V) (threadCount queueSize : Int) : Created F A V :=
  if calls.pool ∧ (calls.mutexInit ∧ calls.condInit) ∧
      (0 ≤ threadCount ∧ calls.threads) ∧ (0 ≤ queueSize ∧ calls.taskQueue) then
    startThreads calls.pthreadCreate threadCount.toNat {
      taskQueue := calls.junk
      threadCount := threadCount.toNat
      queueSize := queueSize.toNat
      head := 0
      tail := 0
      count := 0
      shutdown := 0
      started := 0 }
  else .null

/-! ## `threadpool_add` -/

/-- What `threadpool_add` leaves behind: its result, the index of the slot that `task_out`
points to, and the pool. -/
structure Added (F A V : Type*) where
  ret : Int
  taskOut : Option Nat
  pool : Pool F A V

/-- Fill the slot at the tail and move the tail on. -/
def Pool.append (pool : Pool F A V) (function : F) (argument : A) : Pool F A V :=
  { pool with
    taskQueue := Function.update pool.taskQueue pool.tail
      ⟨function, argument, none, some pool.tail, false⟩
    tail := (pool.tail + 1) % pool.queueSize
    count := pool.count + 1 }

/-- The part of `threadpool_add` under the lock; `signal` tells whether
`pthread_cond_signal` succeeds. -/
def Pool.addRegion (pool : Pool F A V) (signal : Bool) (function : F) (argument : A) :
    Added F A V :=
  if pool.count = pool.queueSize then ⟨threadpoolQueueFull, none, pool⟩
  else if pool.shutdown ≠ 0 then ⟨threadpoolShutdown, none, pool⟩
  else ⟨if signal then 0 else threadpoolLockFailure, some pool.tail,
    pool.append function argument⟩

/-- The results of the pthread calls of `threadpool_add`. -/
structure AddCalls where
  lock : Bool
  signal : Bool
  unlock : Bool

/-- `threadpool_add` for a pool that is not NULL. -/
def threadpoolAdd (calls : AddCalls) (pool : Pool F A V) (function : Option F) (argument : A) :
    Added F A V :=
  match function with
  | none => ⟨threadpoolInvalid, none, pool⟩
  | some function =>
    if calls.lock then
      let r := pool.addRegion calls.signal function argument
      if calls.unlock then r else { r with ret := threadpoolLockFailure }
    else ⟨threadpoolLockFailure, none, pool⟩

/-! ## `threadpool_thread` -/

/-- What a worker does at the head of its loop, under the lock: wait for the condition,
leave the loop, or take the task of a slot. -/
inductive ThreadRegion (F A V : Type*)
  | wait
  | leave
  | take (slot : Nat) (pool : Pool F A V)

/-- Take the slot at the head out of the ring. -/
def Pool.removeHead (pool : Pool F A V) : Pool F A V :=
  { pool with
    taskQueue := Function.update pool.taskQueue pool.head
      { pool.taskQueue pool.head with done := false }
    head := (pool.head + 1) % pool.queueSize
    count := pool.count - 1 }

/-- The part of `threadpool_thread` under the lock. -/
def Pool.threadRegion (pool : Pool F A V) : ThreadRegion F A V :=
  if pool.count = 0 ∧ pool.shutdown = 0 then .wait
  -- the second test is never reached with another outcome: the flag is 1 either way
  else if pool.shutdown = 1 ∨ (pool.shutdown = threadpoolGraceful ∧ pool.count = 0) then .leave
  else .take pool.head pool.removeHead

/-! ## `threadpool_wait` -/

/-- What `threadpool_wait` comes to before it reads the result: NULL at once for a task
without a thread, the end of its loop for a task that is done, another round otherwise. -/
inductive WaitRegion
  | null
  | finished
  | blocked
  deriving DecidableEq, Repr

/-- The check of the thread and the loop of `threadpool_wait`, which holds the task's lock.
The result is read behind it. -/
def threadpoolWait (task : Task F A V) : WaitRegion :=
  if task.thread = none then .null
  else if task.done then .finished
  else .blocked

/-! ## `threadpool_destroy` -/

/-- What the part of `threadpool_destroy` under the lock leaves behind: `err`, the pool, and
whether the lock is still held. -/
structure DestroyStart (F A V : Type*) where
  err : Int
  lockHeld : Bool
  pool : Pool F A V

/-- The results of the pthread calls of that part. -/
structure DestroyCalls where
  broadcast : Bool
  unlock : Bool

/-- The part of `threadpool_destroy` under the lock. Both error exits leave it before the
lock is released. -/
def Pool.destroyRegion (pool : Pool F A V) (calls : DestroyCalls) (flags : Nat) :
    DestroyStart F A V :=
  if pool.shutdown ≠ 0 then ⟨threadpoolShutdown, true, pool⟩
  else
    -- both values are 1
    let pool := { pool with
      shutdown := if flags &&& threadpoolGraceful ≠ 0 then threadpoolGraceful else 1 }
    if calls.broadcast ∧ calls.unlock then ⟨0, false, pool⟩
    else ⟨threadpoolLockFailure, true, pool⟩

end

end SelectServer
